import DeclarationBundle.Text.Basic

/-!
# Blank characters and line boundaries

* `Text.isBlank` holds of every Unicode space and of the control characters that separate.
* `Text.isLineBreak` holds of the characters that end a line; a carriage return and a line feed
  together end one line (`Text.splitLines`).
-/

namespace DeclarationBundle.Text

/-- A character that only separates. -/
def isBlank (c : Char) : Bool :=
  let n := c.toNat
  (0x09 ≤ n && n ≤ 0x0D) || (0x1C ≤ n && n ≤ 0x20) || n == 0x85 || n == 0xA0 || n == 0x1680 ||
    (0x2000 ≤ n && n ≤ 0x200A) || n == 0x2028 || n == 0x2029 || n == 0x202F || n == 0x205F ||
      n == 0x3000

/-- `s` without the blanks at its two ends. -/
def strip (s : String) : String :=
  trim isBlank s

/-- `s` without the blanks at its end. -/
def stripEnd (s : String) : String :=
  dropEndWhile isBlank s

/-- A character that ends a line. -/
def isLineBreak (c : Char) : Bool :=
  let n := c.toNat
  (0x0A ≤ n && n ≤ 0x0D) || (0x1C ≤ n && n ≤ 0x1E) || n == 0x85 || n == 0x2028 || n == 0x2029

/-- The lines of a text, `current` being the line under way with its last character first. What ends
a line is no part of it, and nothing follows the last line break. -/
def linesFrom (current : List Char) : List Char → List (List Char)
  | [] => if current.isEmpty then [] else [current.reverse]
  | '\r' :: '\n' :: rest => current.reverse :: linesFrom [] rest
  | c :: rest =>
    if isLineBreak c then current.reverse :: linesFrom [] rest else linesFrom (c :: current) rest

/-- The lines of a text. -/
def splitLines (s : String) : List String :=
  (linesFrom [] s.toList).map String.ofList

end DeclarationBundle.Text
