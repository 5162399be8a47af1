import DeclarationBundle.Text.Printable

/-!
# Quoted text in messages

A path in a message stands in quotes, with every character that could not be read back escaped. The
quotes are single ones, unless the text holds single quotes and no double ones.
-/

namespace DeclarationBundle.Text

/-- The last `width` hexadecimal digits of a number. -/
def hex (width n : Nat) : String :=
  let digits := Nat.toDigits 16 n
  String.ofList (List.replicate (width - digits.length) '0' ++ digits)

/-- A character inside quotes of the kind `mark`. -/
def quoteChar (mark c : Char) : String :=
  let n := c.toNat
  if c = mark then "\\" ++ String.singleton c
  else if c = '\\' then "\\\\"
  else if c = '\t' then "\\t"
  else if c = '\r' then "\\r"
  else if c = '\n' then "\\n"
  else if isPrintable c then String.singleton c
  else if n < 0x100 then "\\x" ++ hex 2 n
  else if n < 0x10000 then "\\u" ++ hex 4 n
  else "\\U" ++ hex 8 n

/-- **Quoted text**, as messages show it. -/
def quoted (s : String) : String :=
  let mark := if s.toList.contains '\'' && !s.toList.contains '"' then '"' else '\''
  String.singleton mark ++ String.join (s.toList.map (quoteChar mark)) ++ String.singleton mark

end DeclarationBundle.Text
