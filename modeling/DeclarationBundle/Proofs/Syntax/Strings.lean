import DeclarationBundle.Proofs.Syntax.DocumentOrder

/-!
# String nodes of a tree

The string nodes at or below a node are found with a stack. Whatever is on it, what is still to be
found are the outermost string nodes of the places there, from the top on
(`stringsOn_eq_flatMap`): so the stack is the part of a walk that is yet to come.

* `stringsAt` are the outermost string nodes of a node, by its branches. The search finds these
  (`Cursor.strings_eq_stringsAt`).
* `Cursor.strings_outermost`: they are the string nodes that lie in no other, each once and in
  document order.
-/

namespace DeclarationBundle.Syntax

mutual

/-- The outermost string nodes at or below a node. -/
def stringsAt : Node → List Frame → List Cursor
  | node@⟨_, _, _, _, _, children⟩, above =>
    if node.isString then [⟨node, above⟩] else stringsAmong children node [] above

/-- The outermost string nodes at or below some children of `parent`, in order. -/
def stringsAmong : List Node → Node → List Node → List Frame → List Cursor
  | [], _, _, _ => []
  | node :: nodes, parent, before, above =>
    stringsAt node (⟨parent, before⟩ :: above) ++ stringsAmong nodes parent (node :: before) above

end

/-- A string node is its own outermost one, whatever there may be below it. -/
theorem stringsAt_eq (node : Node) (above : List Frame) :
    stringsAt node above
      = if node.isString then [⟨node, above⟩] else stringsAmong node.children node [] above := by
  cases node
  rfl

/-- The children of a node may be cut in two; those of the first part then stand before the
second. -/
theorem stringsAmong_append (nodes more : List Node) (parent : Node) (before : List Node)
    (above : List Frame) :
    stringsAmong (nodes ++ more) parent before above
      = stringsAmong nodes parent before above
        ++ stringsAmong more parent (nodes.reverse ++ before) above := by
  induction nodes generalizing before with
  | nil => rfl
  | cons node nodes ih =>
    rw [List.cons_append, stringsAmong, stringsAmong, ih, List.append_assoc, List.reverse_cons,
      List.append_assoc]
    rfl

/-- The string nodes among some children are those at or below each. -/
theorem stringsAmong_eq_flatMap (parent : Node) (above : List Frame) (nodes before : List Node) :
    stringsAmong nodes parent before above
      = (childrenFrom parent above before nodes).flatMap fun c => stringsAt c.node c.above := by
  induction nodes generalizing before with
  | nil => rfl
  | cons node nodes ih => rw [stringsAmong, childrenFrom, List.flatMap_cons, ih]

/-! ### The search -/

/-- **The stack holds what is yet to come**: what is found from now on are the string nodes of the
places on it, those of its top first. -/
theorem stringsOn_eq_flatMap (stack : List Cursor) :
    stringsOn stack = stack.flatMap fun c => stringsAt c.node c.above := by
  fun_induction stringsOn stack with
  | case1 => rfl
  | case2 c stack h_string ih =>
    rw [List.flatMap_cons, stringsAt_eq, if_pos h_string, ih]
    rfl
  | case3 c stack h_string ih =>
    -- the children take the place of their parent
    rw [ih, pushAll_reverse, List.flatMap_append, List.flatMap_cons, stringsAt_eq,
      if_neg h_string, stringsAmong_eq_flatMap]
    rfl

/-- The search from a place finds the string nodes of its branches: at first there is nothing else
on the stack. -/
theorem Cursor.strings_eq_stringsAt (c : Cursor) : c.strings = stringsAt c.node c.above := by
  rw [Cursor.strings, stringsOn_eq_flatMap, List.flatMap_singleton]

/-! ### Which nodes are found -/

/-- A string node among some places that lies in no other. -/
def IsOutermost (places : List Cursor) (c : Cursor) : Prop :=
  c ∈ places ∧ c.node.isString = true ∧ ∀ d ∈ places, d.node.isString = true → c ∉ d.below

/-- Places of two parts, each with all below them, and none in common: the outermost string nodes of
both are those of either. -/
theorem isOutermost_append {first second : List Cursor} (h_first : ∀ c ∈ first, c.below ⊆ first)
    (h_second : ∀ c ∈ second, c.below ⊆ second) (h_disjoint : first.Disjoint second) (c : Cursor) :
    IsOutermost (first ++ second) c ↔ IsOutermost first c ∨ IsOutermost second c := by
  unfold IsOutermost
  constructor
  · rintro ⟨h_mem, h_string, h_in⟩
    obtain ⟨h_in_first, h_in_second⟩ := List.forall_mem_append.1 h_in
    exact (List.mem_append.1 h_mem).imp (⟨·, h_string, h_in_first⟩) (⟨·, h_string, h_in_second⟩)
  · rintro (⟨h_mem, h_string, h_in⟩ | ⟨h_mem, h_string, h_in⟩)
    · refine ⟨List.mem_append_left _ h_mem, h_string, List.forall_mem_append.2 ⟨h_in, ?_⟩⟩
      exact fun d hd _ h_below => h_disjoint h_mem (h_second d hd h_below)
    · refine ⟨List.mem_append_right _ h_mem, h_string, List.forall_mem_append.2 ⟨?_, h_in⟩⟩
      exact fun d hd _ h_below => h_disjoint (h_first d hd h_below) h_mem

/-- The outermost string nodes of a node, in the order of a walk over it: the two forms. -/
private theorem stringsAt_all :
    (∀ (node : Node) (above : List Frame),
      (stringsAt node above).Sublist (nodesAt node above) ∧
        ∀ c, c ∈ stringsAt node above ↔ IsOutermost (nodesAt node above) c) ∧
    ∀ (nodes : List Node) (parent : Node) (before : List Node) (above : List Frame),
      (stringsAmong nodes parent before above).Sublist (nodesAmong nodes parent before above) ∧
        ∀ c, c ∈ stringsAmong nodes parent before above
          ↔ IsOutermost (nodesAmong nodes parent before above) c := by
  refine Node.induction _ _ ?node ?nil ?cons
  case node =>
    intro node ih above
    obtain ⟨h_sublist, h_mem⟩ := ih node [] above
    rw [stringsAt_eq, nodesAt_eq]
    by_cases h_string : node.isString = true
    · rw [if_pos h_string]
      -- a string node hides all others below it
      refine ⟨List.singleton_sublist.2 (List.mem_cons_self ..), fun c => ?_⟩
      rw [List.mem_singleton]
      constructor
      · rintro rfl
        refine ⟨List.mem_cons_self .., h_string, fun d hd _ => Cursor.notMem_below ?_⟩
        rwa [Cursor.preorder, nodesAt_eq]
      · rintro ⟨hc, -, h_in⟩
        -- what else there is lies in the node itself
        have h_self := h_in ⟨node, above⟩ (List.mem_cons_self ..) h_string
        exact (List.mem_cons.1 hc).resolve_right h_self
    · rw [if_neg h_string]
      -- a node that is no string hides nothing, and is not found itself
      refine ⟨h_sublist.cons _, fun c => (h_mem c).trans ?_⟩
      unfold IsOutermost
      rw [List.forall_mem_cons, List.mem_cons]
      constructor
      · rintro ⟨hc, h_c, h_in⟩
        exact ⟨.inr hc, h_c, fun h => absurd h h_string, h_in⟩
      · rintro ⟨rfl | hc, h_c, -, h_in⟩
        · exact absurd h_c h_string
        · exact ⟨hc, h_c, h_in⟩
  case nil =>
    intro parent before above
    refine ⟨.slnil, fun c => ⟨fun h => ?_, fun h => ?_⟩⟩
    · cases h
    · cases h.1
  case cons =>
    intro node nodes ih ih_nodes parent before above
    obtain ⟨h_sublist, h_mem⟩ := ih (⟨parent, before⟩ :: above)
    obtain ⟨h_sublist_rest, h_mem_rest⟩ := ih_nodes parent (node :: before) above
    have h_nodup := nodup_nodesAmong (node :: nodes) parent before above
    rw [nodesAmong] at h_nodup
    rw [stringsAmong, nodesAmong]
    refine ⟨h_sublist.append h_sublist_rest, fun c => ?_⟩
    -- the first child and the rest have no place in common, and each has all below its places
    rw [List.mem_append, h_mem, h_mem_rest, isOutermost_append]
    · intro d hd e he
      exact Cursor.preorder_subset (c := ⟨node, ⟨parent, before⟩ :: above⟩) hd
        (Cursor.mem_preorder_of_mem_below he)
    · exact fun d hd e he => preorder_subset_nodesAmong hd (Cursor.mem_preorder_of_mem_below he)
    · exact List.disjoint_of_nodup_append h_nodup

/-- **The search finds the outermost string nodes**: those at or below a place that lie in no other
string node there, each once, and one after the other in document order. -/
theorem Cursor.strings_outermost (c : Cursor) :
    (∀ d, d ∈ c.strings ↔ d ∈ c.preorder ∧ d.node.isString = true ∧
      ∀ m ∈ c.preorder, m.node.isString = true → d ∉ m.below) ∧
    c.strings.Sublist c.preorder ∧
    c.strings.Nodup ∧
    c.strings.Pairwise fun d e => d.Precedes e := by
  obtain ⟨h_sublist, h_mem⟩ := stringsAt_all.1 c.node c.above
  rw [← strings_eq_stringsAt] at h_sublist h_mem
  refine ⟨h_mem, h_sublist, h_sublist.nodup (nodup_nodesAt c.node c.above), ?_⟩
  -- of two places in document order the later lies below the earlier or after it, and an outermost
  -- string node lies below no other
  refine ((pairwise_precedes c).sublist h_sublist).imp_of_mem fun {d e} hd he h_order => ?_
  obtain ⟨h_place, h_string, -⟩ := (h_mem d).1 hd
  exact h_order.resolve_left (((h_mem e).1 he).2.2 d h_place h_string)

end DeclarationBundle.Syntax
