import DeclarationBundle.Proofs.Syntax.Preorder

/-!
# Before and after in a tree

The address of a place is the way down to it, child by child. Of two places one is above the other,
or their ways part, and the one that goes on into the earlier child comes before the other
(`Cursor.Precedes`). No walk is needed to say so, and a walk in document order agrees with it.

* `Cursor.not_precedes_of_mem_below`: a place comes neither before nor after one below it.
* `Cursor.pairwise_precedes`: of two places that a walk meets, the later is below the earlier, or
  the earlier comes before it.
* `Cursor.leavesBefore_eq`: among the leaves of a tree, those before a place are the ones that a
  walk has met when it comes there.
-/

namespace DeclarationBundle.Syntax

/-- Two ways down part, and the first goes on into the earlier child. -/
def partsBefore : List Nat → List Nat → Bool
  | i :: way, j :: way' => i < j || (i == j && partsBefore way way')
  | _, _ => false

/-- A way that goes nowhere has nothing after it. -/
theorem partsBefore_nil_right (way : List Nat) : partsBefore way [] = false := by
  cases way <;> rfl

/-- What two ways share makes no difference. -/
theorem partsBefore_append (shared way way' : List Nat) :
    partsBefore (shared ++ way) (shared ++ way') = partsBefore way way' := by
  induction shared with
  | nil => rfl
  | cons i shared ih => simp [partsBefore, ih]

/-- A way that goes on further parts nowhere from where it has come. -/
theorem partsBefore_of_prefix {way way' : List Nat} (h : way <+: way') :
    partsBefore way way' = false ∧ partsBefore way' way = false := by
  obtain ⟨further, rfl⟩ := h
  have h_self := partsBefore_append way [] further
  have h_further := partsBefore_append way further []
  rw [List.append_nil] at h_self h_further
  exact ⟨h_self, h_further.trans (partsBefore_nil_right further)⟩

/-- Of two ways that part, only one goes on into the earlier child. -/
theorem partsBefore_asymm {way way' : List Nat} (h : partsBefore way way' = true) :
    partsBefore way' way = false := by
  induction way generalizing way' with
  | nil => cases h
  | cons i way ih =>
    cases way' with
    | nil => rfl
    | cons j way' =>
      simp only [partsBefore, Bool.or_eq_true, Bool.and_eq_true, decide_eq_true_eq,
        beq_iff_eq] at h
      -- they part here, or both go on into the same child
      rcases h with h_lt | ⟨rfl, h⟩
      · simp only [partsBefore, Bool.or_eq_false_iff, Bool.and_eq_false_iff,
          decide_eq_false_iff_not, beq_eq_false_iff_ne]
        omega
      · simp [partsBefore, ih h]

/-- The way down to a place with the given way up: which child it goes on into at each node. -/
def addressOf (above : List Frame) : List Nat :=
  (above.map (·.before.length)).reverse

/-- One step down adds one number to the address. -/
theorem addressOf_cons (frame : Frame) (above : List Frame) :
    addressOf (frame :: above) = addressOf above ++ [frame.before.length] := by
  simp [addressOf]

/-- The address of a place begins with that of each place above it. -/
theorem addressOf_prefix_of_suffix {above above' : List Frame} (h : above <:+ above') :
    addressOf above <+: addressOf above' :=
  List.reverse_prefix.2 (h.map _)

namespace Cursor

/-- **A place comes before another** in document order, neither being above the other. -/
def Precedes (c d : Cursor) : Prop :=
  partsBefore (addressOf c.above) (addressOf d.above) = true

instance (c d : Cursor) : Decidable (c.Precedes d) :=
  inferInstanceAs (Decidable (_ = true))

variable {c d : Cursor}

/-- Of two places one at most comes before the other. -/
theorem Precedes.asymm (h : c.Precedes d) : ¬ d.Precedes c := by
  rw [Precedes, partsBefore_asymm h]
  exact Bool.false_ne_true

/-- A place comes neither before nor after what is at or below it. -/
theorem not_precedes_of_mem_preorder (h : d ∈ c.preorder) : ¬ c.Precedes d ∧ ¬ d.Precedes c := by
  -- the address of the one goes on from that of the other
  have h_way := addressOf_prefix_of_suffix (suffix_of_mem_nodesAt h)
  obtain ⟨h_before, h_after⟩ := partsBefore_of_prefix h_way
  rw [Precedes, Precedes, h_before, h_after]
  exact ⟨Bool.false_ne_true, Bool.false_ne_true⟩

/-- **A place comes neither before nor after one below it.** -/
theorem not_precedes_of_mem_below (h : d ∈ c.below) : ¬ c.Precedes d ∧ ¬ d.Precedes c :=
  not_precedes_of_mem_preorder (mem_preorder_of_mem_below h)

/-- What lies at or below a child comes before what lies at or below a later one. -/
theorem precedes_of_suffix {parent : Node} {before passed : List Node} {above : List Frame}
    (h_lt : before.length < passed.length) (hc : ⟨parent, before⟩ :: above <:+ c.above)
    (hd : ⟨parent, passed⟩ :: above <:+ d.above) : c.Precedes d := by
  obtain ⟨way, h_c⟩ := addressOf_prefix_of_suffix hc
  obtain ⟨way', h_d⟩ := addressOf_prefix_of_suffix hd
  -- the two addresses go on differently from that of the parent
  rw [addressOf_cons, List.append_assoc] at h_c h_d
  rw [Precedes, ← h_c, ← h_d, partsBefore_append]
  simp [partsBefore, h_lt]

end Cursor

/-- The two forms of `Cursor.pairwise_precedes`. -/
private theorem pairwise_precedes_all :
    (∀ (node : Node) (above : List Frame),
      (nodesAt node above).Pairwise fun c d => d ∈ c.below ∨ c.Precedes d) ∧
    ∀ (nodes : List Node) (parent : Node) (before : List Node) (above : List Frame),
      (nodesAmong nodes parent before above).Pairwise fun c d => d ∈ c.below ∨ c.Precedes d := by
  refine Node.induction _ _ ?node ?nil ?cons
  case node =>
    intro node ih above
    rw [nodesAt_eq]
    exact List.pairwise_cons.2 ⟨fun d hd => .inl hd, ih node [] above⟩
  case nil => exact fun _ _ _ => .nil
  case cons =>
    intro node nodes ih ih_nodes parent before above
    rw [nodesAmong]
    refine List.pairwise_append.2 ⟨ih _, ih_nodes _ _ _, fun c hc d hd => .inr ?_⟩
    -- the ways down part at the parent, where the first goes on into this child
    obtain ⟨passed, h_passed, h_suffix⟩ := exists_suffix_of_mem_nodesAmong hd
    exact Cursor.precedes_of_suffix h_passed (suffix_of_mem_nodesAt hc) h_suffix

namespace Cursor

/-- **Of two places at or below a place, the later is below the earlier or comes after it.** -/
theorem pairwise_precedes (c : Cursor) :
    c.preorder.Pairwise fun d e => e ∈ d.below ∨ d.Precedes e :=
  pairwise_precedes_all.1 c.node c.above

/-- A node without children. -/
def isLeaf (c : Cursor) : Bool :=
  c.node.children.isEmpty

/-- Nothing lies below a leaf. -/
theorem below_of_isLeaf {c : Cursor} (h : c.isLeaf = true) : c.below = [] := by
  rw [below, List.isEmpty_iff.1 h, nodesAmong]

/-- The leaves of a tree that come before a place, in document order. -/
def leavesBefore (tree : Node) (c : Cursor) : List Cursor :=
  (root tree).preorder.filter fun d => d.isLeaf && decide (d.Precedes c)

/-- **The leaves before a place** are those that a walk over the tree has met when it comes to the
place. -/
theorem leavesBefore_eq {tree : Node} {before after : List Cursor} {c : Cursor}
    (h : (root tree).preorder = before ++ c :: after) :
    leavesBefore tree c = before.filter isLeaf := by
  have h_pairwise := pairwise_precedes (root tree)
  rw [h] at h_pairwise
  obtain ⟨-, h_after, h_before⟩ := List.pairwise_append.1 h_pairwise
  -- a leaf that was met is not above the place, so it comes before it
  have h_met : before.filter (fun d => d.isLeaf && decide (d.Precedes c))
      = before.filter isLeaf := by
    refine List.filter_congr fun d hd => ?_
    cases h_leaf : d.isLeaf with
    | false => rfl
    | true =>
      rcases h_before d hd c (List.mem_cons_self ..) with h_below | h_precedes
      · rw [below_of_isLeaf h_leaf] at h_below
        cases h_below
      · simp [h_precedes]
  -- the place itself and all after it: below the place, or the place comes before them
  have h_ahead : (c :: after).filter (fun d => d.isLeaf && decide (d.Precedes c)) = [] := by
    rw [List.filter_eq_nil_iff]
    intro d hd
    have h_not : ¬ d.Precedes c := by
      rcases List.mem_cons.1 hd with rfl | hd
      · exact (not_precedes_of_mem_preorder (mem_preorder_self d)).1
      · rcases (List.pairwise_cons.1 h_after).1 d hd with h_below | h_precedes
        · exact (not_precedes_of_mem_below h_below).2
        · exact h_precedes.asymm
    simp [h_not]
  rw [leavesBefore, h, List.filter_append, h_met, h_ahead, List.append_nil]

end Cursor

end DeclarationBundle.Syntax
