import DeclarationBundle.Text.Basic

/-!
# Indentation

Text is indented line by line, a line ending wherever the line end occurs that the caller has
chosen, whatever its characters. The first line and empty lines stay as they are, and so does the
end of the text.
-/

namespace DeclarationBundle.Text

/-- A line end, with a line after it that holds something. -/
def opensLine (eol text : List Char) : Bool :=
  let after := text.drop eol.length
  eol.isPrefixOf text && !eol.isPrefixOf after && !after.isEmpty

/-- Indents a text of which the next `pending` characters finish a line end. -/
def indentFrom (eol indent : List Char) : Nat → List Char → List Char
  | _, [] => []
  | pending, c :: rest =>
    match if pending = 0 && opensLine eol (c :: rest) then eol.length else pending with
    | 0 => c :: indentFrom eol indent 0 rest
    | 1 => c :: (indent ++ indentFrom eol indent 0 rest)
    | more + 2 => c :: indentFrom eol indent (more + 1) rest

/-- **A text with every line but the first indented**, unless it is empty. -/
def indentLines (eol indent text : String) : String :=
  String.ofList (indentFrom eol.toList indent.toList 0 text.toList)

end DeclarationBundle.Text
