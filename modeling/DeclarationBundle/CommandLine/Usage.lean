import DeclarationBundle.CommandLine.Similar
import DeclarationBundle.Text.Quoted

/-!
# Usage errors

What can be wrong with the arguments of a command, and how it is said. A word that names nothing is
answered with the names that are most like it.
-/

namespace DeclarationBundle.CommandLine

/-- What is wrong with the path that an option gives. -/
inductive PathFault where
  | missing
  | isFile
  | isDirectory
  deriving DecidableEq, Repr

/-- The wording of a fault. -/
def PathFault.message : PathFault → String
  | .missing => "does not exist"
  | .isFile => "is a file"
  | .isDirectory => "is a directory"

/-- What is wrong with some arguments. -/
inductive UsageError where
  | noSuchOption (name : String) (similar : List String)
  | needsValue (option : String)
  | takesNoValue (option : String)
  | missingCommand
  | noSuchCommand (name : String) (similar : List String)
  /-- `kind` is what the option wants the path to be. -/
  | badPath (option kind path : String) (fault : PathFault)
  deriving DecidableEq, Repr

namespace UsageError

/-- What to add to a message when there are similar names. -/
def suggestion (similar : List String) : String :=
  match similar with
  | [] => ""
  | [one] => s!" Did you mean {Text.quoted one}?"
  | several => " (Did you mean one of: " ++ ", ".intercalate (several.map Text.quoted) ++ "?)"

/-- The wording of an error. -/
def message : UsageError → String
  | .noSuchOption name similar => s!"No such option {Text.quoted name}." ++ suggestion similar
  | .needsValue option => s!"Option {Text.quoted option} requires an argument."
  | .takesNoValue option => s!"Option {Text.quoted option} does not take a value."
  | .missingCommand => "Missing command."
  | .noSuchCommand name similar => s!"No such command {Text.quoted name}." ++ suggestion similar
  | .badPath option kind path fault =>
    s!"Invalid value for '{option}': {kind} {Text.quoted path} {fault.message}."

/-- Whether the usage of the command is shown with an error. -/
def showsUsage : UsageError → Bool
  | .needsValue _ => false
  | .takesNoValue _ => false
  | _ => true

end UsageError

end DeclarationBundle.CommandLine
