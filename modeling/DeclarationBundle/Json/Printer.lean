import DeclarationBundle.Json.Basic

/-!
# Printing JSON

`Json.print` writes a value on one line and in ASCII alone: a character beyond it is written as one
code unit or as the two of a surrogate pair.

* `Json.quote` is a text between quotes, `Json.escape` one of its characters.
* A decimal is written as its digits and its exponent, so that no digit is rounded away.
-/

namespace DeclarationBundle.Json

/-- Four hexadecimal digits of a code unit. -/
def hexUnit (unit : Nat) : String :=
  let digits := Nat.toDigits 16 unit
  String.ofList (List.replicate (4 - digits.length) '0' ++ digits)

/-- A code unit as an escape. -/
def escapeUnit (unit : Nat) : String :=
  "\\u" ++ hexUnit unit

/-- **A character inside a string.** -/
def escape (c : Char) : String :=
  if c = '"' then "\\\""
  else if c = '\\' then "\\\\"
  else if 0x20 ≤ c.toNat ∧ c.toNat < 0x7F then String.singleton c
  else if c.toNat < 0x10000 then escapeUnit c.toNat
  else
    let beyond := c.toNat - 0x10000
    escapeUnit (0xD800 + beyond / 1024) ++ escapeUnit (0xDC00 + beyond % 1024)

/-- A text between quotes. -/
def quote (text : String) : String :=
  "\"" ++ String.join (text.toList.map escape) ++ "\""

/-- Some code points between quotes, each as an escape unless a character stands for it. -/
def quoteCodes (codes : List Nat) : String :=
  "\"" ++ String.join (codes.map fun code =>
    if 0xD800 ≤ code ∧ code ≤ 0xDFFF then escapeUnit code else escape (Char.ofNat code)) ++ "\""

/-- A minus sign where there is one. -/
def sign (negative : Bool) : String :=
  if negative then "-" else ""

mutual

/-- **The text of a value.** -/
def print : Json → String
  | .null => "null"
  | .bool value => if value then "true" else "false"
  | .integer value => toString value
  | .decimal negative digits exponent =>
      sign negative ++ toString digits ++ "e" ++ toString exponent
  | .infinity negative => sign negative ++ "Infinity"
  | .nan => "NaN"
  | .string text => quote text
  | .brokenText codes => quoteCodes codes
  | .array items => "[" ++ ",".intercalate (printItems items) ++ "]"
  | .object members => "\x7b" ++ ",".intercalate (printMembers members) ++ "\x7d"

/-- The texts of some items. -/
def printItems : List Json → List String
  | [] => []
  | item :: items => print item :: printItems items

/-- The texts of some members. -/
def printMembers : List (String × Json) → List String
  | [] => []
  | (key, value) :: members => (quote key ++ ":" ++ print value) :: printMembers members

end

end DeclarationBundle.Json
