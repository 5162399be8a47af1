import Mathlib
import DeclarationBundle.Syntax.Cursor

/-!
# The nodes of a tree in document order

`Cursor.preorder` lists all the places at or below a place, each node before its children. It is
what a walk over a tree is compared with.

* `Node.induction` is the induction that goes with such a walk.
* `nodup_nodesAt`: no place is listed twice, since the way up tells places apart.
* `Node.IsOrdered`: the children of a node stand inside it, one after the other.
* `Cursor.pairwise_follows`: in a tree of such nodes, a later place is below an earlier one or after
  it.
-/

namespace DeclarationBundle.Syntax

/-- **Induction over a tree**, together with the lists of children that a walk goes through. -/
theorem Node.induction (motive : Node → Prop) (among : List Node → Prop)
    (node : ∀ node : Node, among node.children → motive node) (nil : among [])
    (cons : ∀ node nodes, motive node → among nodes → among (node :: nodes)) :
    (∀ node, motive node) ∧ ∀ nodes, among nodes :=
  have h_node : ∀ n, motive n := fun n =>
    -- the recursor of the type goes over the nodes and the lists of nodes together
    @Node.rec motive among (fun _ _ _ _ _ _ h => node _ h) nil cons n
  ⟨h_node, fun nodes => by
    induction nodes with
    | nil => exact nil
    | cons n nodes ih => exact cons n nodes (h_node n) ih⟩

mutual

/-- A node and all below it, in document order. -/
def nodesAt : Node → List Frame → List Cursor
  | node@⟨_, _, _, _, _, children⟩, above => ⟨node, above⟩ :: nodesAmong children node [] above

/-- Some children of `parent` and all below them, in document order. -/
def nodesAmong : List Node → Node → List Node → List Frame → List Cursor
  | [], _, _, _ => []
  | node :: nodes, parent, before, above =>
    nodesAt node (⟨parent, before⟩ :: above) ++ nodesAmong nodes parent (node :: before) above

end

namespace Cursor

/-- The places at or below a place, in document order. -/
def preorder (c : Cursor) : List Cursor :=
  nodesAt c.node c.above

/-- The places below a place, in document order. -/
def below (c : Cursor) : List Cursor :=
  nodesAmong c.node.children c.node [] c.above

/-- A place comes before all below it. -/
theorem preorder_eq (c : Cursor) : c.preorder = c :: c.below := by
  obtain ⟨⟨_, _, _, _, _, _⟩, _⟩ := c
  rfl

/-- It is one of the places at or below it. -/
theorem mem_preorder_self (c : Cursor) : c ∈ c.preorder := by
  rw [preorder_eq]
  exact List.mem_cons_self ..

end Cursor

/-- A node comes first, and then what is below it. -/
theorem nodesAt_eq (node : Node) (above : List Frame) :
    nodesAt node above = ⟨node, above⟩ :: nodesAmong node.children node [] above := by
  cases node
  rfl

/-- The places among some children are those at or below each. -/
theorem nodesAmong_eq_flatMap (parent : Node) (above : List Frame) (nodes before : List Node) :
    nodesAmong nodes parent before above
      = (childrenFrom parent above before nodes).flatMap Cursor.preorder := by
  induction nodes generalizing before with
  | nil => rfl
  | cons node nodes ih =>
    rw [nodesAmong, childrenFrom, List.flatMap_cons, ih]
    rfl

/-- The second of two lists of children has the first among the siblings before it. -/
theorem childrenFrom_append (parent : Node) (above : List Frame) (nodes more before : List Node) :
    childrenFrom parent above before (nodes ++ more)
      = childrenFrom parent above before nodes
        ++ childrenFrom parent above (nodes.reverse ++ before) more := by
  induction nodes generalizing before with
  | nil => rfl
  | cons node nodes ih =>
    rw [List.cons_append, childrenFrom, childrenFrom, ih, List.cons_append, List.reverse_cons,
      List.append_assoc]
    rfl

/-- So have the places at or below the children of the second list. -/
theorem nodesAmong_append (nodes more : List Node) (parent : Node) (before : List Node)
    (above : List Frame) :
    nodesAmong (nodes ++ more) parent before above
      = nodesAmong nodes parent before above
        ++ nodesAmong more parent (nodes.reverse ++ before) above := by
  rw [nodesAmong_eq_flatMap, childrenFrom_append, List.flatMap_append, ← nodesAmong_eq_flatMap,
    ← nodesAmong_eq_flatMap]

/-- The places of some children are places of these nodes. -/
theorem mem_childrenFrom_node {parent : Node} {above : List Frame} {nodes before : List Node}
    {c : Cursor} (h : c ∈ childrenFrom parent above before nodes) : c.node ∈ nodes := by
  induction nodes generalizing before with
  | nil => cases h
  | cons node nodes ih =>
    rcases List.mem_cons.1 h with rfl | h
    · exact List.mem_cons_self ..
    · exact List.mem_cons_of_mem _ (ih h)

/-- Each place among some children is at or below one of them. -/
theorem mem_nodesAmong_of_mem_childrenFrom {parent : Node} {above : List Frame}
    {nodes before : List Node} {c : Cursor} (h : c ∈ childrenFrom parent above before nodes) :
    c ∈ nodesAmong nodes parent before above := by
  rw [nodesAmong_eq_flatMap]
  exact List.mem_flatMap.2 ⟨c, h, c.mem_preorder_self⟩

/-- What is below something below a node is below the node: the two forms of `preorder_subset`. -/
private theorem preorder_subset_all :
    (∀ (node : Node) (above : List Frame), ∀ d ∈ nodesAt node above,
        d.preorder ⊆ nodesAt node above) ∧
    ∀ (nodes : List Node) (parent : Node) (before : List Node) (above : List Frame),
      ∀ d ∈ nodesAmong nodes parent before above,
        d.preorder ⊆ nodesAmong nodes parent before above := by
  refine Node.induction _ _ ?node ?nil ?cons
  case node =>
    intro node ih above d hd
    rw [nodesAt_eq] at hd
    rcases List.mem_cons.1 hd with rfl | hd
    · exact List.Subset.refl _
    · rw [nodesAt_eq]
      exact fun e he => List.mem_cons_of_mem _ (ih node [] above d hd he)
  case nil => exact fun _ _ _ d hd => by cases hd
  case cons =>
    intro node nodes ih ih_nodes parent before above d hd
    rw [nodesAmong] at hd ⊢
    rcases List.mem_append.1 hd with hd | hd
    · exact fun e he => List.mem_append_left _ (ih _ d hd he)
    · exact fun e he => List.mem_append_right _ (ih_nodes _ _ _ d hd he)

/-- What is below something below a place is below the place. -/
theorem Cursor.preorder_subset {c d : Cursor} (h : d ∈ c.preorder) : d.preorder ⊆ c.preorder :=
  preorder_subset_all.1 c.node c.above d h

/-- The same among some children. -/
theorem preorder_subset_nodesAmong {nodes : List Node} {parent : Node} {before : List Node}
    {above : List Frame} {d : Cursor} (h : d ∈ nodesAmong nodes parent before above) :
    d.preorder ⊆ nodesAmong nodes parent before above :=
  preorder_subset_all.2 nodes parent before above d h

/-- What is at or below a place below another is below that other. -/
theorem Cursor.preorder_subset_below {c d : Cursor} (h : d ∈ c.below) : d.preorder ⊆ c.below :=
  preorder_subset_nodesAmong h

/-- What is below a place is at or below it. -/
theorem Cursor.mem_preorder_of_mem_below {c d : Cursor} (h : d ∈ c.below) : d ∈ c.preorder := by
  rw [preorder_eq]
  exact List.mem_cons_of_mem _ h

/-! ### Each place once -/

/-- The two forms of `nodup_nodesAt`. The way up from a place goes on as the way up from the node it
is at or below does, so it tells one node from another by the siblings before. -/
private theorem nodup_all :
    (∀ (node : Node) (above : List Frame), (nodesAt node above).Nodup ∧
        ∀ c ∈ nodesAt node above, above <:+ c.above) ∧
    ∀ (nodes : List Node) (parent : Node) (before : List Node) (above : List Frame),
      (nodesAmong nodes parent before above).Nodup ∧
        ∀ c ∈ nodesAmong nodes parent before above, ∃ passed : List Node,
          before.length ≤ passed.length ∧ ⟨parent, passed⟩ :: above <:+ c.above := by
  refine Node.induction _ _ ?node ?nil ?cons
  case node =>
    intro node ih above
    obtain ⟨h_nodup, h_above⟩ := ih node [] above
    rw [nodesAt_eq]
    refine ⟨List.nodup_cons.2 ⟨fun h_mem => ?_, h_nodup⟩, fun c hc => ?_⟩
    · -- the way up from a place below the node is longer
      obtain ⟨passed, -, h_suffix⟩ := h_above _ h_mem
      have h_length := h_suffix.length_le
      rw [List.length_cons] at h_length
      exact absurd h_length (Nat.not_succ_le_self _)
    · rcases List.mem_cons.1 hc with rfl | hc
      · exact List.suffix_refl _
      · obtain ⟨passed, -, h_suffix⟩ := h_above c hc
        exact (List.suffix_cons ..).trans h_suffix
  case nil => exact fun _ _ _ => ⟨List.nodup_nil, fun c hc => by cases hc⟩
  case cons =>
    intro node nodes ih ih_nodes parent before above
    -- each part lists no place twice, so it is left to tell the parts apart
    obtain ⟨h_first, h_at⟩ := ih (⟨parent, before⟩ :: above)
    obtain ⟨h_rest, h_among⟩ := ih_nodes parent (node :: before) above
    rw [nodesAmong]
    refine ⟨List.nodup_append'.2 ⟨h_first, h_rest, fun c hc hc' => ?_⟩, fun c hc => ?_⟩
    · -- the ways up from both are equally long, but there are not as many siblings before
      obtain ⟨passed, h_passed, h_suffix⟩ := h_among c hc'
      have h_eq : (⟨parent, before⟩ :: above : List Frame) = ⟨parent, passed⟩ :: above :=
        (List.suffix_of_suffix_length_le (h_at c hc) h_suffix (by simp)).eq_of_length (by simp)
      have h_before : before = passed := (Frame.mk.inj (List.cons.inj h_eq).1).2
      rw [← h_before, List.length_cons] at h_passed
      exact Nat.not_succ_le_self _ h_passed
    · rcases List.mem_append.1 hc with hc | hc
      · exact ⟨before, le_refl _, h_at c hc⟩
      · obtain ⟨passed, h_passed, h_suffix⟩ := h_among c hc
        exact ⟨passed, (Nat.le_succ _).trans h_passed, h_suffix⟩

/-- **No place is listed twice.** -/
theorem nodup_nodesAt (node : Node) (above : List Frame) : (nodesAt node above).Nodup :=
  (nodup_all.1 node above).1

/-- Nor is any place among some children. -/
theorem nodup_nodesAmong (nodes : List Node) (parent : Node) (before : List Node)
    (above : List Frame) : (nodesAmong nodes parent before above).Nodup :=
  (nodup_all.2 nodes parent before above).1

/-- The way up from a place at or below a node goes on as that from the node does. -/
theorem suffix_of_mem_nodesAt {node : Node} {above : List Frame} {c : Cursor}
    (h : c ∈ nodesAt node above) : above <:+ c.above :=
  (nodup_all.1 node above).2 c h

/-- The way up from a place at or below some children leads through one of them. -/
theorem exists_suffix_of_mem_nodesAmong {nodes : List Node} {parent : Node} {before : List Node}
    {above : List Frame} {c : Cursor} (h : c ∈ nodesAmong nodes parent before above) :
    ∃ passed : List Node, before.length ≤ passed.length ∧ ⟨parent, passed⟩ :: above <:+ c.above :=
  (nodup_all.2 nodes parent before above).2 c h

/-- A place is not below anything that is at or below it. -/
theorem Cursor.notMem_below {c d : Cursor} (h : d ∈ c.preorder) : c ∉ d.below := by
  intro h_mem
  obtain ⟨passed, -, h_suffix⟩ := exists_suffix_of_mem_nodesAmong h_mem
  have h_length := h_suffix.length_le.trans (suffix_of_mem_nodesAt h).length_le
  -- below a place the way up to the root is longer, and at or below it no shorter
  rw [List.length_cons] at h_length
  exact Nat.not_succ_le_self _ h_length

/-! ### Trees in order -/

/-- Nodes that stand between two offsets, one after the other. -/
def Node.StandBetween (stop : Nat) : Nat → List Node → Prop
  | start, [] => start ≤ stop
  | start, node :: nodes =>
    start ≤ node.start ∧ node.start ≤ node.stop ∧ StandBetween stop node.stop nodes

/-- **A node in order**: its children stand inside it, one after the other. -/
def Node.IsOrdered (node : Node) : Prop :=
  Node.StandBetween node.stop node.start node.children

namespace Node

variable {start stop : Nat} {nodes : List Node}

/-- Between two offsets that nodes stand between there is room. -/
theorem StandBetween.le (h : StandBetween stop start nodes) : start ≤ stop := by
  induction nodes generalizing start with
  | nil => exact h
  | cons node nodes ih => exact h.1.trans (h.2.1.trans (ih h.2.2))

/-- None of the nodes begins before the first offset. -/
theorem StandBetween.start_le (h : StandBetween stop start nodes) {node : Node}
    (h_mem : node ∈ nodes) : start ≤ node.start := by
  induction nodes generalizing start with
  | nil => cases h_mem
  | cons first nodes ih =>
    rcases List.mem_cons.1 h_mem with rfl | h_mem
    · exact h.1
    · exact h.1.trans (h.2.1.trans (ih h.2.2 h_mem))

/-- A node in order does not end before it begins. -/
theorem IsOrdered.start_le_stop {node : Node} (h : node.IsOrdered) : node.start ≤ node.stop :=
  StandBetween.le h

instance decidableStandBetween (stop start : Nat) (nodes : List Node) :
    Decidable (StandBetween stop start nodes) :=
  match nodes with
  | [] => inferInstanceAs (Decidable (start ≤ stop))
  | node :: nodes =>
    have := decidableStandBetween stop node.stop nodes
    inferInstanceAs (Decidable (start ≤ node.start ∧ node.start ≤ node.stop ∧
        StandBetween stop node.stop nodes))

instance (node : Node) : Decidable node.IsOrdered :=
  inferInstanceAs (Decidable (StandBetween ..))

end Node

/-- A place is below another, or begins where the other ends or later. -/
def Cursor.Follows (d c : Cursor) : Prop :=
  d ∈ c.below ∨ c.node.stop ≤ d.node.start

/-- The two forms of `pairwise_follows`, with what it takes to join the children: that nothing
stands outside the offsets around it. -/
private theorem pairwise_follows_all :
    (∀ (node : Node) (above : List Frame), (∀ c ∈ nodesAt node above, c.node.IsOrdered) →
      ((nodesAt node above).Pairwise fun c d => d.Follows c) ∧
        ∀ c ∈ nodesAt node above, node.start ≤ c.node.start ∧ c.node.stop ≤ node.stop) ∧
    ∀ (nodes : List Node) (parent : Node) (before : List Node) (above : List Frame)
        (start stop : Nat),
      (∀ c ∈ nodesAmong nodes parent before above, c.node.IsOrdered) →
      Node.StandBetween stop start nodes →
      ((nodesAmong nodes parent before above).Pairwise fun c d => d.Follows c) ∧
        ∀ c ∈ nodesAmong nodes parent before above, start ≤ c.node.start ∧ c.node.stop ≤ stop := by
  refine Node.induction _ _ ?node ?nil ?cons
  case node =>
    intro node ih above h_ordered
    -- the node comes first and everything else is below it
    rw [nodesAt_eq] at h_ordered ⊢
    have h_node := h_ordered _ (List.mem_cons_self ..)
    obtain ⟨h_pairwise, h_inside⟩ := ih node [] above node.start node.stop
      (fun c hc => h_ordered c (List.mem_cons_of_mem _ hc)) h_node
    refine ⟨List.pairwise_cons.2 ⟨fun d hd => .inl hd, h_pairwise⟩, fun c hc => ?_⟩
    rcases List.mem_cons.1 hc with rfl | hc
    · exact ⟨le_refl _, le_refl _⟩
    · exact h_inside c hc
  case nil => exact fun _ _ _ _ _ _ _ => ⟨.nil, fun c hc => by cases hc⟩
  case cons =>
    intro node nodes ih ih_nodes parent before above start stop h_ordered h_between
    rw [nodesAmong] at h_ordered ⊢
    obtain ⟨h_first, h_at⟩ := ih (⟨parent, before⟩ :: above)
      fun c hc => h_ordered c (List.mem_append_left _ hc)
    obtain ⟨h_rest, h_among⟩ := ih_nodes parent (node :: before) above node.stop stop
      (fun c hc => h_ordered c (List.mem_append_right _ hc)) h_between.2.2
    refine ⟨List.pairwise_append.2 ⟨h_first, h_rest, fun c hc d hd => ?_⟩, fun c hc => ?_⟩
    · -- all of the first child ends where it does, and the others begin there or later
      exact .inr ((h_at c hc).2.trans (h_among d hd).1)
    · rcases List.mem_append.1 hc with hc | hc
      · exact ⟨h_between.1.trans (h_at c hc).1, (h_at c hc).2.trans h_between.2.2.le⟩
      · exact ⟨h_between.1.trans (h_between.2.1.trans (h_among c hc).1), (h_among c hc).2⟩

/-- Nothing below a node of a tree in order reaches out of it. -/
theorem within_of_mem_nodesAt {node : Node} {above : List Frame}
    (h : ∀ c ∈ nodesAt node above, c.node.IsOrdered) {c : Cursor} (hc : c ∈ nodesAt node above) :
    node.start ≤ c.node.start ∧ c.node.stop ≤ node.stop :=
  (pairwise_follows_all.1 node above h).2 c hc

/-- **Of two places in a tree in order, the later is below the earlier or after it.** -/
theorem Cursor.pairwise_follows {tree : Node} (h : ∀ c ∈ (root tree).preorder, c.node.IsOrdered) :
    (root tree).preorder.Pairwise fun c d => d.Follows c :=
  (pairwise_follows_all.1 tree [] h).1

end DeclarationBundle.Syntax
