import DeclarationBundle.Json.Basic

/-!
# Reading JSON

`Json.read` reads one value that is the whole text but for blanks. Beside the values of the standard
it admits `NaN`, `Infinity` and `-Infinity`. A text that is refused is refused at a place: the first
character that no value can continue with, or the start of what stays open.

* A control character inside a string is refused. The half of a surrogate pair that stands alone is
  kept as it is, and the string is then no text (`Json.ofCodes`). In a key, which no field of
  anything has then, it is read as the replacement character.
* A whole number of more than `maxDigits` digits is refused without a place.
-/

namespace DeclarationBundle.Json

/-- What is wrong with a text at some place. -/
inductive Fault
  | expectingValue
  | expectingName
  | expectingColon
  | expectingComma
  | extraData
  | unterminatedString
  | controlCharacter
  | invalidEscape
  | invalidCodeEscape
  | byteOrderMark
  deriving DecidableEq, Repr

/-- The wording of a fault. -/
def Fault.message : Fault → String
  | .expectingValue => "Expecting value"
  | .expectingName => "Expecting property name enclosed in double quotes"
  | .expectingColon => "Expecting ':' delimiter"
  | .expectingComma => "Expecting ',' delimiter"
  | .extraData => "Extra data"
  | .unterminatedString => "Unterminated string starting at"
  | .controlCharacter => "Invalid control character at"
  | .invalidEscape => "Invalid \\escape"
  | .invalidCodeEscape => "Invalid \\uXXXX escape"
  | .byteOrderMark => "Unexpected UTF-8 BOM (decode using utf-8-sig)"

/-- The most digits a whole number may have. -/
def maxDigits : Nat := 4300

/-- Why a text is no JSON value. -/
inductive ReadError
  /-- A fault at a line and column, both from one, and at an offset from zero. -/
  | malformed (fault : Fault) (line column offset : Nat)
  | tooManyDigits (count : Nat)
  deriving DecidableEq, Repr

/-- The wording of a whole number that is too long, wherever one is read. -/
def tooManyDigitsMessage (count : Nat) : String :=
  s!"Exceeds the limit ({maxDigits} digits) for integer string conversion: " ++
    s!"value has {count} digits; " ++
    "use sys.set_int_max_str_digits() to increase the limit"

/-- The wording of an error. -/
def ReadError.message : ReadError → String
  | .malformed fault line column offset =>
    s!"{fault.message}: line {line} column {column} (char {offset})"
  | .tooManyDigits count => tooManyDigitsMessage count

/-- A refusal while reading: the place is an offset. -/
inductive Refusal
  | at (fault : Fault) (offset : Nat)
  | tooManyDigits (count : Nat)

/-- What is left to read, and where it begins. -/
structure Rest where
  offset : Nat
  chars : List Char

/-- The characters that may stand between tokens. -/
def isBlank (c : Char) : Bool :=
  c == ' ' || c == '\t' || c == '\n' || c == '\r'

/-- Moves past `n` characters. -/
def Rest.advance (r : Rest) (n : Nat) : Rest :=
  ⟨r.offset + n, r.chars.drop n⟩

/-- Moves past blanks. -/
def Rest.skipBlanks (r : Rest) : Rest :=
  r.advance (r.chars.takeWhile isBlank).length

/-- The value of a hexadecimal digit. -/
def hexDigit? (c : Char) : Option Nat :=
  if c.isDigit then some (c.toNat - '0'.toNat)
  else if 'a' ≤ c ∧ c ≤ 'f' then some (c.toNat - 'a'.toNat + 10)
  else if 'A' ≤ c ∧ c ≤ 'F' then some (c.toNat - 'A'.toNat + 10)
  else none

/-- The number that four hexadecimal digits write. -/
def hexCode? : List Char → Option Nat
  | [a, b, c, d] => do
    let a ← hexDigit? a
    let b ← hexDigit? b
    let c ← hexDigit? c
    let d ← hexDigit? d
    some (((a * 16 + b) * 16 + c) * 16 + d)
  | _ => none

/-- The character that a backslash and `c` stand for. -/
def simpleEscape? (c : Char) : Option Char :=
  match c with
  | '"' => some '"'
  | '\\' => some '\\'
  | '/' => some '/'
  | 'b' => some (Char.ofNat 8)
  | 'f' => some (Char.ofNat 12)
  | 'n' => some '\n'
  | 'r' => some '\r'
  | 't' => some '\t'
  | _ => none

/-- A code point that is half of a surrogate pair. -/
def isHalf (code : Nat) : Bool :=
  0xD800 ≤ code && code ≤ 0xDFFF

/-- The string of some code points. -/
def ofCodes (codes : List Nat) : Json :=
  if codes.any isHalf then .brokenText codes else .string (String.ofList (codes.map Char.ofNat))

/-- The key of some code points, with the replacement character for half a pair. -/
def keyOf (codes : List Nat) : String :=
  String.ofList (codes.map fun code => Char.ofNat (if isHalf code then 0xFFFD else code))

/-- The code unit written by the four characters after `\u`, the letter `u` standing at `r`. A text
must go on after them. -/
def readUnit (r : Rest) : Except Refusal Nat :=
  let digits := (r.chars.drop 1).take 4
  match (if (r.chars.drop 5).isEmpty then none else hexCode? digits) with
  | some unit => .ok unit
  | none => .error (.at .invalidCodeEscape r.offset)

/-- Whether a second escape follows that could complete a pair. -/
def secondEscape? (r : Rest) : Option Rest :=
  match r.chars with
  | '\\' :: 'u' :: more => if 5 ≤ more.length then some (r.advance 1) else none
  | _ => none

/-- The code point written by a code escape, the letter `u` standing at `r`, and what follows. -/
def readCodeEscape (r : Rest) : Except Refusal (Nat × Rest) := do
  let unit ← readUnit r
  let next := r.advance 5
  if 0xD800 ≤ unit ∧ unit ≤ 0xDBFF then
    match secondEscape? next with
    | none => .ok (unit, next)
    | some second =>
      let low ← readUnit second
      if 0xDC00 ≤ low ∧ low ≤ 0xDFFF then
        .ok (0x10000 + (unit - 0xD800) * 1024 + (low - 0xDC00), second.advance 5)
      else .ok (unit, next)
  else .ok (unit, next)

/-- The code points of a string after its opening quote, which stands at `start`. -/
def readString (start : Nat) : Nat → Rest → List Nat → Except Refusal (List Nat × Rest)
  | 0, _, _ => .error (.at .unterminatedString start)
  | fuel + 1, r, done =>
    match r.chars with
    | [] => .error (.at .unterminatedString start)
    | '"' :: _ => .ok (done.reverse, r.advance 1)
    | '\\' :: [] => .error (.at .unterminatedString start)
    | '\\' :: 'u' :: _ => do
      let (code, next) ← readCodeEscape (r.advance 1)
      readString start fuel next (code :: done)
    | '\\' :: e :: _ =>
      match simpleEscape? e with
      | some c => readString start fuel (r.advance 2) (c.toNat :: done)
      | none => .error (.at .invalidEscape r.offset)
    | c :: _ =>
      if c.toNat ≤ 0x1F then .error (.at .controlCharacter r.offset)
      else readString start fuel (r.advance 1) (c.toNat :: done)

/-- The number that decimal digits write. -/
def decimalValue (digits : List Char) : Nat :=
  digits.foldl (fun n c => n * 10 + (c.toNat - '0'.toNat)) 0

/-- The fraction digits after a point, if there are any. -/
def fraction (chars : List Char) : List Char :=
  match chars with
  | '.' :: more => more.takeWhile Char.isDigit
  | _ => []

/-- The sign and digits of an exponent, and how many characters it takes. -/
def exponentPart (chars : List Char) : Option (Bool × List Char × Nat) :=
  let finish (negative : Bool) (taken : Nat) (more : List Char) :=
    let digits := more.takeWhile Char.isDigit
    if digits.isEmpty then none else some (negative, digits, taken + digits.length)
  match chars with
  | e :: more =>
    if e == 'e' || e == 'E' then
      match more with
      | '+' :: digits => finish false 2 digits
      | '-' :: digits => finish true 2 digits
      | _ => finish false 1 more
    else none
  | [] => none

/-- A number after its sign, which begins at `start`. -/
def readNumber (negative : Bool) (start : Nat) (r : Rest) : Except Refusal (Json × Rest) := do
  let whole ← match r.chars with
    | '0' :: _ => .ok ['0']
    | c :: _ =>
      if c.isDigit then .ok (r.chars.takeWhile Char.isDigit)
      else .error (.at .expectingValue start)
    | [] => .error (.at .expectingValue start)
  let afterWhole := r.advance whole.length
  let digits := fraction afterWhole.chars
  let afterFraction := if digits.isEmpty then afterWhole else afterWhole.advance (digits.length + 1)
  match exponentPart afterFraction.chars with
  | some (down, power, taken) =>
    let size : Int := decimalValue power
    .ok (.decimal negative (decimalValue (whole ++ digits))
      ((if down then -size else size) - digits.length),
      afterFraction.advance taken)
  | none =>
    if !digits.isEmpty then
      .ok (.decimal negative (decimalValue (whole ++ digits)) (-digits.length), afterFraction)
    else if whole.length > maxDigits then .error (.tooManyDigits whole.length)
    else
      let value : Int := decimalValue whole
      .ok (.integer (if negative then -value else value), afterFraction)

/-- The words that are values. -/
def words : List (String × Json) :=
  [("null", .null), ("true", .bool true), ("false", .bool false), ("NaN", .nan),
    ("Infinity", .infinity false), ("-Infinity", .infinity true)]

/-- A word that is a value, or a number. -/
def readAtom (r : Rest) : Except Refusal (Json × Rest) :=
  match words.find? (fun w => w.1.toList.isPrefixOf r.chars) with
  | some (word, value) => .ok (value, r.advance word.length)
  | none =>
    match r.chars with
    | '-' :: _ => readNumber true r.offset (r.advance 1)
    | _ => readNumber false r.offset r

mutual

/-- A value, which must begin at once. -/
def readValue : Nat → Rest → Except Refusal (Json × Rest)
  | 0, r => .error (.at .expectingValue r.offset)
  | fuel + 1, r =>
    match r.chars with
    | [] => .error (.at .expectingValue r.offset)
    | '"' :: _ => do
      let (codes, next) ← readString r.offset r.chars.length (r.advance 1) []
      .ok (ofCodes codes, next)
    | '[' :: _ =>
      let inner := (r.advance 1).skipBlanks
      match inner.chars with
      | ']' :: _ => .ok (.array [], inner.advance 1)
      | _ => readItems fuel inner []
    | '{' :: _ =>
      let inner := (r.advance 1).skipBlanks
      match inner.chars with
      | '}' :: _ => .ok (.object [], inner.advance 1)
      | _ => readMembers fuel inner []
    | _ => readAtom r

/-- The items of an array after those already read, the last one first. -/
def readItems : Nat → Rest → List Json → Except Refusal (Json × Rest)
  | 0, r, _ => .error (.at .expectingValue r.offset)
  | fuel + 1, r, done => do
    let (item, next) ← readValue fuel r
    let next := next.skipBlanks
    match next.chars with
    | ']' :: _ => .ok (.array (item :: done).reverse, next.advance 1)
    | ',' :: _ => readItems fuel (next.advance 1).skipBlanks (item :: done)
    | _ => .error (.at .expectingComma next.offset)

/-- The members of an object after those already read, the last one first. -/
def readMembers : Nat → Rest → List (String × Json) → Except Refusal (Json × Rest)
  | 0, r, _ => .error (.at .expectingName r.offset)
  | fuel + 1, r, done => do
    match r.chars with
    | '"' :: _ =>
      let (key, afterKey) ← readString r.offset r.chars.length (r.advance 1) []
      let colon := afterKey.skipBlanks
      match colon.chars with
      | ':' :: _ =>
        let (value, next) ← readValue fuel (colon.advance 1).skipBlanks
        let next := next.skipBlanks
        match next.chars with
        | '}' :: _ =>
          .ok (.object (ofMembers ((keyOf key, value) :: done).reverse), next.advance 1)
        | ',' :: _ => readMembers fuel (next.advance 1).skipBlanks ((keyOf key, value) :: done)
        | _ => .error (.at .expectingComma next.offset)
      | _ => .error (.at .expectingColon colon.offset)
    | _ => .error (.at .expectingName r.offset)

end

/-- Gives a refusal its line and column in `text`. -/
def Refusal.locate (text : List Char) : Refusal → ReadError
  | .tooManyDigits count => .tooManyDigits count
  | .at fault offset =>
    let before := text.take offset
    .malformed fault (before.count '\n' + 1)
      ((before.reverse.takeWhile (· != '\n')).length + 1) offset

/-- A value and nothing after it but blanks. A value takes one character at least, and a nested one
two steps, which bounds the steps by twice the length. -/
def readWhole (text : List Char) : Except Refusal Json := do
  if text.head? = some (Char.ofNat 0xFEFF) then .error (.at .byteOrderMark 0)
  let (value, next) ← readValue (2 * text.length + 2) (Rest.mk 0 text).skipBlanks
  let next := next.skipBlanks
  if next.chars.isEmpty then .ok value else .error (.at .extraData next.offset)

/-- Reads the value that a text writes. -/
def read (text : String) : Except ReadError Json :=
  (readWhole text.toList).mapError (Refusal.locate text.toList)

end DeclarationBundle.Json
