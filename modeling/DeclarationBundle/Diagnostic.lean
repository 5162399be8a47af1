/-!
# Diagnostics

What a compiler has to say against a program: an error with its code, mostly about a place in a
file.

* `Diagnostic.categorize` assigns a code to the part of the compiler that it comes from.
* `Diagnostic.format` writes a diagnostic as the compiler prints it, `Diagnostic.report` many of
  them.
-/

namespace DeclarationBundle

/-- The part of a compiler that a diagnostic comes from. -/
inductive Category where
  | syntactic
  | semantic
  | declaration
  | emit
  deriving DecidableEq, Repr

/-- One error. Lines and columns count from one. -/
structure Diagnostic where
  code : Int
  message : String
  file : Option String
  line : Int
  column : Int
  category : Category
  deriving DecidableEq, Repr

namespace Diagnostic

/-- The category of a code. What concerns no file is about the run as a whole; option errors that
name a file stay with it. -/
def categorize (code : Int) (hasFile : Bool) : Category :=
  if !hasFile then .emit
  else if 5000 ≤ code ∧ code < 7000 then .emit
  else if 1000 ≤ code ∧ code < 2000 then .syntactic
  else if 4000 ≤ code ∧ code < 5000 then .declaration
  else .semantic

/-- A diagnostic as the compiler prints it. -/
def format (d : Diagnostic) : String :=
  match d.file with
  | none => s!"error TS{d.code}: {d.message}"
  | some file => s!"{file}({d.line},{d.column}): error TS{d.code}: {d.message}"

/-- The line above a list of diagnostics. -/
def header : String := "Declaration generation failed"

/-- The header and the diagnostics, one after the other. -/
def report (diagnostics : List Diagnostic) : String :=
  "\n".intercalate (header :: diagnostics.map format)

end Diagnostic

end DeclarationBundle
