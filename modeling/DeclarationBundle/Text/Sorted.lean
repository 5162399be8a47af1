/-!
# Sorted texts

Texts in the order of their characters' code points. Equal texts all stay.
-/

namespace DeclarationBundle.Text

/-- Puts a text in before the first one that it is not above. -/
def insertSorted (s : String) : List String → List String
  | [] => [s]
  | t :: rest => if s ≤ t then s :: t :: rest else t :: insertSorted s rest

/-- **The texts in order.** -/
def sorted (texts : List String) : List String :=
  texts.foldr insertSorted []

end DeclarationBundle.Text
