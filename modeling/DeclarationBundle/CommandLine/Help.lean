import DeclarationBundle.Text.Basic

/-!
# Help pages

A help page shows how a command is used, what it does, its options, and the commands it hands on to.
Explanations stand in a column of their own, and a line of them ends where the next word would not
fit (`Help.wrap`).
-/

namespace DeclarationBundle.CommandLine

/-- What a help page shows. -/
structure Help where
  usage : String
  purpose : String
  /-- Each with its explanation. -/
  options : List (String × String)
  commands : List (String × String)
  deriving DecidableEq, Repr

namespace Help

/-- The characters that a line may have. -/
def width : Nat := 78

/-- How far paragraphs and columns are moved in. -/
def margin : Nat := 2

/-- Some spaces. -/
def spaces (n : Nat) : String :=
  String.ofList (List.replicate n ' ')

/-- Puts words into lines, behind the line under way. -/
def wrapFrom (limit : Nat) (line : String) : List String → List String
  | [] => [line]
  | word :: words =>
    if line.length + 1 + word.length ≤ limit then wrapFrom limit (line ++ " " ++ word) words
    else line :: wrapFrom limit word words

/-- **A text in lines** of at most `limit` characters, as far as its words allow. -/
def wrap (limit : Nat) (text : String) : List String :=
  match Text.fields ' ' text with
  | [] => []
  | word :: words => wrapFrom limit word words

/-- The lines of one row, whose explanation begins in column `column`. -/
def rowLines (column : Nat) (row : String × String) : List String :=
  match wrap (width - column - margin) row.2 with
  | [] => [spaces margin ++ row.1]
  | first :: more =>
    (spaces margin ++ row.1 ++ spaces (column - row.1.length) ++ first) ::
      more.map (spaces (column + margin) ++ ·)

/-- A titled list of rows, or nothing without rows. -/
def table (title : String) (rows : List (String × String)) : List String :=
  let column := (rows.map (·.1.length)).foldl max 0 + margin
  if rows.isEmpty then [] else "" :: (title ++ ":") :: rows.flatMap (rowLines column)

/-- The line that shows how a command is used. -/
def usageLine (h : Help) : String :=
  "Usage: " ++ h.usage

/-- **The lines of a help page.** -/
def lines (h : Help) : List String :=
  [h.usageLine, ""] ++ (wrap (width - margin) h.purpose).map (spaces margin ++ ·) ++
    table "Options" h.options ++ table "Commands" h.commands

end Help

end DeclarationBundle.CommandLine
