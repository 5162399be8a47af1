import DeclarationBundle.Bundle.Output
import DeclarationBundle.Compiler.Listing
import DeclarationBundle.Diagnostic
import DeclarationBundle.Stack
import DeclarationBundle.Text.Utf8

/-!
# Failures

Why a bundling run ends without a bundle, with the wording of each cause. `Failure.isReported` tells
the causes that a run announces from those that nobody along the way is prepared for.
-/

namespace DeclarationBundle

/-- What keeps a directory from being taken away. -/
inductive Obstacle where
  | system (error : SystemError)
  /-- The directories in it lie too deep for the stack. -/
  | tooDeep
  deriving DecidableEq, Repr

/-- The wording of an obstacle. -/
def Obstacle.message : Obstacle → String
  | .system error => error.message
  | .tooDeep => Stack.overflowMessage

/-- Why there is no program to bundle. -/
inductive CompileError where
  | notConfigured
  | notFound (word : String)
  /-- There is no directory for the compiler to write to. -/
  | noScratch (error : SystemError)
  /-- A word of the command, or the directory to run it in, has a null character in it. -/
  | nullWord
  | notStarted (word : String) (error : SystemError)
  /-- What the compiler printed is no text. -/
  | garbled (error : Utf8.DecodeError)
  /-- The output of the compiler holds a number that is too long. -/
  | tooManyDigits (count : Nat)
  /-- A declaration that the compiler wrote cannot be opened. -/
  | unreadable (error : SystemError)
  /-- A declaration that the compiler wrote is no text. -/
  | undecodable (error : Utf8.DecodeError)
  /-- The directory that the compiler wrote to cannot be taken away. -/
  | notRemoved (obstacle : Obstacle)
  /-- The sources have no common directory. -/
  | scattered (error : Path.AncestorError)
  deriving DecidableEq, Repr

/-- The wording of an error. -/
def CompileError.message : CompileError → String
  | .notConfigured => "No compiler command configured"
  | .notFound word => s!"Could not find compiler executable: {word}"
  | .noScratch error => error.message
  | .nullWord => nullPathMessage
  | .notStarted word error => s!"Failed to run {word}: {error.message}"
  | .garbled error => error.message
  | .tooManyDigits count => Json.tooManyDigitsMessage count
  | .unreadable error => error.message
  | .undecodable error => error.message
  | .notRemoved obstacle => obstacle.message
  | .scattered error => error.message

/-- Why a run ends without a bundle. -/
inductive Failure where
  | compiling (error : CompileError)
  /-- What the compiler says against a file. -/
  | rejected (diagnostics : List Diagnostic)
  | output (error : Output.Error)
  /-- The path of a file that was to be opened has a null character in it. -/
  | nullPath
  | unreadable (error : SystemError)
  | undecodable (error : Utf8.DecodeError)
  /-- The stack was too small. -/
  | overflow
  deriving DecidableEq, Repr

namespace Failure

/-- The wording of a failure. -/
def message : Failure → String
  | .compiling error => error.message
  | .rejected diagnostics => Diagnostic.report diagnostics
  | .output error => error.message
  | .nullPath => nullPathMessage
  | .unreadable error => error.message
  | .undecodable error => error.message
  | .overflow => Stack.overflowMessage

/-- The failure of what was to be done with a path. -/
def ofPathError (answered : SystemError → Failure) : PathError SystemError → Failure
  | .null => .nullPath
  | .system error => answered error

/-- Whether a run is prepared for a failure. -/
def isReported : Failure → Bool
  | .compiling .notConfigured => true
  | .compiling (.notFound _) => true
  | .compiling (.notStarted _ _) => true
  | .compiling _ => false
  | .rejected _ => true
  | .output .closed => false
  | .output _ => true
  | .nullPath => false
  | .unreadable _ => false
  | .undecodable _ => false
  | .overflow => false

end Failure

end DeclarationBundle
