import DeclarationBundle.Text.Sorted

/-!
# Similar names

How like two names are is measured by the characters they share: those of the longest stretch that
both have, and those shared to its left and to its right in the same way.

* `Similar.shared` counts the shared characters.
* `Similar.closest` picks the names that come near enough to one that was mistyped.
-/

namespace DeclarationBundle.CommandLine.Similar

/-- How far two texts agree from their beginnings. -/
def agreement : List Char → List Char → Nat
  | a :: as, b :: bs => if a = b then agreement as bs + 1 else 0
  | _, _ => 0

/-- A stretch that two texts share: where it begins in each, and its length. -/
structure Stretch where
  left : Nat
  right : Nat
  length : Nat
  deriving DecidableEq, Repr

/-- The longer of two stretches, or the first of equally long ones. -/
def Stretch.longer (s t : Stretch) : Stretch :=
  if s.length < t.length then t else s

/-- The longest stretch that begins the text `a` at offset `left`, among those in `b`. -/
def longestAt (a : List Char) (left : Nat) : Nat → List Char → Stretch
  | _, [] => ⟨left, 0, 0⟩
  | right, b :: bs => Stretch.longer ⟨left, right, agreement a (b :: bs)⟩
      (longestAt a left (right + 1) bs)

/-- The longest stretch that two texts share. -/
def longest (b : List Char) : Nat → List Char → Stretch
  | _, [] => ⟨0, 0, 0⟩
  | left, a :: as => Stretch.longer (longestAt (a :: as) left 0 b) (longest b (left + 1) as)

/-- Counts the characters that two texts share, the first of them not longer than `bound`. -/
def sharedWithin : Nat → List Char → List Char → Nat
  | 0, _, _ => 0
  | bound + 1, a, b =>
    let s := longest b 0 a
    if s.length = 0 then 0
    else
      s.length + sharedWithin bound (a.take s.left) (b.take s.right) +
        sharedWithin bound (a.drop (s.left + s.length)) (b.drop (s.right + s.length))

/-- **How many characters two texts share.** -/
def shared (a b : String) : Nat :=
  sharedWithin a.length a.toList b.toList

/-- A name, with the characters it shares and with all there are. -/
structure Candidate where
  name : String
  shared : Nat
  total : Nat

/-- Whether three fifths of the characters are shared. -/
def Candidate.isNear (c : Candidate) : Bool :=
  3 * c.total ≤ 10 * c.shared

/-- Whether one candidate is better than another: it shares a greater part, or as much under a later
name. -/
def Candidate.isBetter (c d : Candidate) : Bool :=
  d.shared * c.total < c.shared * d.total ||
    (d.shared * c.total == c.shared * d.total && decide (d.name < c.name))

/-- Puts a candidate in before the first that it is better than. -/
def insert (c : Candidate) : List Candidate → List Candidate
  | [] => [c]
  | d :: rest => if c.isBetter d then c :: d :: rest else d :: insert c rest

/-- The most names to pick. -/
def limit : Nat := 3

/-- **The names closest to `word`** among those near enough, in order. -/
def closest (word : String) (names : List String) : List String :=
  let candidates := names.map fun name => ⟨name, shared name word, name.length + word.length⟩
  let best := ((candidates.filter Candidate.isNear).foldr insert []).take limit
  Text.sorted (best.map (·.name))

end DeclarationBundle.CommandLine.Similar
