import DeclarationBundle.Syntax.Node

/-!
# The stack

Four things are done by functions that call themselves: values are read that hold other values,
patterns are searched for from directory to directory, directories are made above one another, and
syntax trees are walked. How deep these calls may go is not for the program to say. `Stack` says of
each of them whether the stack is too small for it; nothing is assumed about it, except where a
theorem asks for a stack on which something fits.
-/

namespace DeclarationBundle

/-- What is done by a function that calls itself. -/
inductive Recursion where
  /-- Reading the values that a text writes. -/
  | values (text : String)
  /-- Searching for the patterns among some paths, from a base directory. -/
  | patterns (base : String) (paths : List String)
  /-- Making the directories above a file. -/
  | directories (path : String)
  /-- Walking a syntax tree. -/
  | nodes (tree : Syntax.Node)

/-- **A stack**, by what it is too small for. -/
structure Stack where
  overflows : Recursion → Bool

namespace Stack

/-- The stack that everything fits on. -/
def unbounded : Stack :=
  ⟨fun _ => false⟩

/-- The wording for what does not fit on a stack. -/
def overflowMessage : String := "maximum recursion depth exceeded"

end Stack

end DeclarationBundle
