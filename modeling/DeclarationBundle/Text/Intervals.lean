/-!
# Sets of characters by their intervals

A set of code points is written as the ascending list of its boundaries: the first code point of an
interval, the first one after it, the first one of the next interval, and so on. A code point lies
in the set when an odd number of boundaries is at or below it.
-/

namespace DeclarationBundle.Text

/-- Whether `n` lies in the set with the given boundaries. -/
def inIntervals : List Nat → Nat → Bool
  | [], _ => false
  | bound :: bounds, n => if n < bound then false else !inIntervals bounds n

end DeclarationBundle.Text
