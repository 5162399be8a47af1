import DeclarationBundle.Text.Quoted

/-!
# Errors of the system

What the system answers when it cannot do what it is asked to: an error number, and the path that it
was asked about if there is one.

A path with a null character in it is not even handed to the system, which would take the character
for the end of the path (`PathError.null`). That is an error of another kind than the system's own,
and whoever is prepared for the one need not be prepared for the other.
-/

namespace DeclarationBundle

/-- The kinds of error that files and streams give rise to. -/
inductive Errno where
  | noEntry
  | inputOutput
  | permissionDenied
  | fileExists
  | notDirectory
  | isDirectory
  | noSpace
  | nameTooLong
  deriving DecidableEq, Repr

/-- The number of an error. -/
def Errno.number : Errno → Nat
  | .noEntry => 2
  | .inputOutput => 5
  | .permissionDenied => 13
  | .fileExists => 17
  | .notDirectory => 20
  | .isDirectory => 21
  | .noSpace => 28
  | .nameTooLong => 36

/-- The wording of an error. -/
def Errno.text : Errno → String
  | .noEntry => "No such file or directory"
  | .inputOutput => "Input/output error"
  | .permissionDenied => "Permission denied"
  | .fileExists => "File exists"
  | .notDirectory => "Not a directory"
  | .isDirectory => "Is a directory"
  | .noSpace => "No space left on device"
  | .nameTooLong => "File name too long"

/-- An error, with the path that the request was about. -/
structure SystemError where
  errno : Errno
  path : Option String
  deriving DecidableEq, Repr

/-- The wording of an error and its path. -/
def SystemError.message (e : SystemError) : String :=
  let reason := s!"[Errno {e.errno.number}] {e.errno.text}"
  match e.path with
  | none => reason
  | some path => reason ++ ": " ++ Text.quoted path

/-- Why nothing can be done with a path, `ε` being what the system answers. -/
inductive PathError (ε : Type) where
  /-- The path has a null character in it. -/
  | null
  | system (error : ε)
  deriving DecidableEq, Repr

/-- The wording for a path with a null character in it. -/
def nullPathMessage : String := "embedded null byte"

/-- The error about a path, with the path. -/
def PathError.about (path : String) : PathError Errno → PathError SystemError
  | .null => .null
  | .system errno => .system ⟨errno, some path⟩

end DeclarationBundle
