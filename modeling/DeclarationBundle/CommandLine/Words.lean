/-!
# Words of a command

A command given as one text is cut into words at its blanks. Between single quotes every character
stands for itself; between double quotes a backslash makes a double quote or a backslash stand for
itself, and outside quotes it does so for any character.
-/

namespace DeclarationBundle.CommandLine.Words

/-- Why a text is no command. -/
inductive Error where
  | openQuote
  | openEscape
  deriving DecidableEq, Repr

/-- The wording of an error. -/
def Error.message : Error → String
  | .openQuote => "No closing quotation"
  | .openEscape => "No escaped character"

/-- Where the reader stands: between words, or in one with its last character first. -/
inductive State where
  | between
  | plain (word : List Char)
  | escaped (word : List Char)
  | quoted (mark : Char) (word : List Char)
  /-- Behind a backslash between double quotes. -/
  | quotedEscape (word : List Char)
  deriving DecidableEq, Repr

/-- A character between words. -/
def isBlank (c : Char) : Bool :=
  c == ' ' || c == '\t' || c == '\r' || c == '\n'

/-- A character that quotes. -/
def isQuote (c : Char) : Bool :=
  c == '\'' || c == '"'

/-- The state after one more character of an unquoted word. -/
def extend (word : List Char) (c : Char) : State :=
  if c = '\\' then .escaped word else if isQuote c then .quoted c word else .plain (c :: word)

/-- Reads words from a state on. -/
def readFrom : State → List Char → Except Error (List String)
  | .between, [] => .ok []
  | .plain word, [] => .ok [String.ofList word.reverse]
  | .escaped _, [] => .error .openEscape
  | .quotedEscape _, [] => .error .openEscape
  | .quoted _ _, [] => .error .openQuote
  | .between, c :: rest => readFrom (if isBlank c then .between else extend [] c) rest
  | .plain word, c :: rest =>
    if isBlank c then (readFrom .between rest).map (String.ofList word.reverse :: ·)
    else readFrom (extend word c) rest
  | .escaped word, c :: rest => readFrom (.plain (c :: word)) rest
  | .quoted mark word, c :: rest =>
    if c = mark then readFrom (.plain word) rest
    else if c = '\\' ∧ mark = '"' then readFrom (.quotedEscape word) rest
    else readFrom (.quoted mark (c :: word)) rest
  | .quotedEscape word, c :: rest =>
    if c = '"' ∨ c = '\\' then readFrom (.quoted '"' (c :: word)) rest
    else readFrom (.quoted '"' (c :: '\\' :: word)) rest

/-- **The words of a command.** -/
def split (text : String) : Except Error (List String) :=
  readFrom .between text.toList

end DeclarationBundle.CommandLine.Words
