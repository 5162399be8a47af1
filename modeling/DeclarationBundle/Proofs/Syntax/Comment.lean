import DeclarationBundle.Proofs.Syntax.Preorder

/-!
# Putting comments into a source

A comment that is put into a source is one leaf more in its tree, and what comes after it moves on
by the length of what was put in. `Reading.Commented` says so of a source and its tree together:
one comment is added anywhere among the children of a node that has some and does not lie in a
string, with any blanks or line end around it. Nodes around the comment cover whatever holds it.

* `Node.Each` is a property of all nodes of a tree, by its children (`Node.each_iff`).
* `Relabels` are the maps on nodes that leave everything but the spans as it is, such as
  `Node.shift`.
* `Inserts` is one comment more in a tree. A node that does not hold it keeps its text, whether it
  ends before (`text_of_le`) or has moved on (`text_shift_of_le`).
* `Cursor.exists_parent`: a place has its node among the children of the node above it.
-/

namespace DeclarationBundle.Syntax

/-! ### Properties of all nodes -/

/-- The nodes of a tree do not depend on what is above it: the two forms. -/
private theorem map_node_all :
    (∀ (node : Node) (above above' : List Frame),
      (nodesAt node above).map (·.node) = (nodesAt node above').map (·.node)) ∧
    ∀ (nodes : List Node) (parent parent' : Node) (before before' : List Node)
        (above above' : List Frame),
      (nodesAmong nodes parent before above).map (·.node)
        = (nodesAmong nodes parent' before' above').map (·.node) := by
  refine Node.induction _ _ ?node ?nil ?cons
  case node =>
    intro node ih above above'
    rw [nodesAt_eq, nodesAt_eq, List.map_cons, List.map_cons, ih node node [] [] above above']
  case nil => exact fun _ _ _ _ _ _ => rfl
  case cons =>
    intro node nodes ih ih_nodes parent parent' before before' above above'
    rw [nodesAmong, nodesAmong, List.map_append, List.map_append,
      ih (⟨parent, before⟩ :: above) (⟨parent', before'⟩ :: above'),
      ih_nodes parent parent' (node :: before) (node :: before') above above']

namespace Node

/-- **A property of all nodes of a tree.** -/
def Each (p : Node → Prop) (tree : Node) : Prop :=
  ∀ c ∈ (Cursor.root tree).preorder, p c.node

variable {p : Node → Prop} {node : Node}

/-- Where a tree hangs makes no difference to what holds of its nodes. -/
theorem each_iff_of_above (above : List Frame) :
    Each p node ↔ ∀ c ∈ nodesAt node above, p c.node := by
  have h_nodes := map_node_all.1 node [] above
  have h_forall : ∀ places : List Cursor,
      (∀ c ∈ places, p c.node) ↔ ∀ m ∈ places.map (·.node), p m :=
    fun _ => List.forall_mem_map.symm
  unfold Each
  rw [h_forall, h_forall (nodesAt node above), ← h_nodes]
  rfl

instance decidableEach (p : Node → Prop) [DecidablePred p] (node : Node) :
    Decidable (Each p node) :=
  inferInstanceAs (Decidable (∀ c ∈ (Cursor.root node).preorder, p c.node))

/-- **A property holds of all nodes of a tree** if it holds of the root and of all nodes of its
children. -/
theorem each_iff : Each p node ↔ p node ∧ ∀ child ∈ node.children, Each p child := by
  have h_among : ∀ (nodes : List Node) (parent : Node) (before : List Node) (above : List Frame),
      (∀ c ∈ nodesAmong nodes parent before above, p c.node) ↔ ∀ child ∈ nodes, Each p child := by
    intro nodes parent before above
    -- on the children, each of which is seen from another place
    induction nodes generalizing before with
    | nil => simp [nodesAmong]
    | cons node nodes ih =>
      rw [nodesAmong, List.forall_mem_append, ← each_iff_of_above, ih, List.forall_mem_cons]
  rw [each_iff_of_above [], nodesAt_eq, List.forall_mem_cons, h_among]

/-- What holds of all nodes within the span of a node in order holds of all below it. -/
theorem Each.of_within (h : Each IsOrdered node)
    (h_all : ∀ m : Node, node.start ≤ m.start → m.stop ≤ node.stop → p m) : Each p node := by
  intro c hc
  obtain ⟨h_start, h_stop⟩ := within_of_mem_nodesAt h hc
  exact h_all c.node h_start h_stop

end Node

/-! ### Siblings -/

/-- Siblings in order end where a later one begins, at the latest. -/
theorem Node.StandBetween.apart {start stop : Nat} {before after : List Node} {node : Node}
    (h : StandBetween stop start (before ++ node :: after)) :
    (∀ m ∈ before, m.stop ≤ node.start) ∧ ∀ m ∈ after, node.stop ≤ m.start := by
  induction before generalizing start with
  | nil => exact ⟨by simp, fun m hm => h.2.2.start_le hm⟩
  | cons first before ih =>
    obtain ⟨h_before, h_after⟩ := ih h.2.2
    exact ⟨List.forall_mem_cons.2 ⟨h.2.2.start_le (by simp), h_before⟩, h_after⟩

/-- The two forms of `Cursor.exists_parent`. -/
private theorem exists_parent_all :
    (∀ (node : Node) (above : List Frame), ∀ c ∈ nodesAt node above, c = ⟨node, above⟩ ∨
      ∃ frame rest after, c.above = frame :: rest ∧ ⟨frame.parent, rest⟩ ∈ nodesAt node above ∧
        frame.parent.children = frame.before.reverse ++ c.node :: after) ∧
    ∀ (nodes : List Node) (parent : Node) (before : List Node) (above : List Frame),
      parent.children = before.reverse ++ nodes →
      ∀ c ∈ nodesAmong nodes parent before above, ∃ frame rest after, c.above = frame :: rest ∧
        (⟨frame.parent, rest⟩ : Cursor) ∈ ⟨parent, above⟩ :: nodesAmong nodes parent before above ∧
        frame.parent.children = frame.before.reverse ++ c.node :: after := by
  refine Node.induction _ _ ?node ?nil ?cons
  case node =>
    intro node ih above c hc
    rw [nodesAt_eq] at hc ⊢
    rcases List.mem_cons.1 hc with rfl | hc
    · exact .inl rfl
    · exact .inr (ih node [] above rfl c hc)
  case nil =>
    intro parent before above h c hc
    cases hc
  case cons =>
    intro node nodes ih ih_nodes parent before above h c hc
    rw [nodesAmong] at hc ⊢
    rcases List.mem_append.1 hc with hc | hc
    · -- the place is that of the first child, or it lies below it
      rcases ih (⟨parent, before⟩ :: above) c hc with
        rfl | ⟨frame, rest, after, h_above, h_mem, h_all⟩
      · exact ⟨⟨parent, before⟩, above, nodes, rfl, List.mem_cons_self .., h⟩
      · exact ⟨frame, rest, after, h_above,
          List.mem_cons_of_mem _ (List.mem_append_left _ h_mem), h_all⟩
    · have h_rest : parent.children = (node :: before).reverse ++ nodes := by
        rw [h, List.reverse_cons, List.append_assoc]
        rfl
      obtain ⟨frame, rest, after, h_above, h_mem, h_all⟩ :=
        ih_nodes parent (node :: before) above h_rest c hc
      refine ⟨frame, rest, after, h_above, ?_, h_all⟩
      rcases List.mem_cons.1 h_mem with h_mem | h_mem
      · exact List.mem_cons.2 (.inl h_mem)
      · exact List.mem_cons_of_mem _ (List.mem_append_right _ h_mem)

/-- **A place is the root, or its node stands among the children of the node above**, behind the
siblings that are before it. -/
theorem Cursor.exists_parent {tree : Node} {c : Cursor} (hc : c ∈ (root tree).preorder) :
    c.above = [] ∨ ∃ frame rest after, c.above = frame :: rest ∧
      ⟨frame.parent, rest⟩ ∈ (root tree).preorder ∧
      frame.parent.children = frame.before.reverse ++ c.node :: after := by
  rcases exists_parent_all.1 tree [] c hc with rfl | h
  · exact .inl rfl
  · exact .inr h

/-! ### Moving nodes -/

mutual

/-- A node further on in the source, and all below it. -/
def Node.shift (size : Nat) : Node → Node
  | ⟨kind, start, stop, isMissing, isSource, children⟩ =>
    ⟨kind, start + size, stop + size, isMissing, isSource, shiftAll size children⟩

/-- Some nodes further on in the source. -/
def shiftAll (size : Nat) : List Node → List Node
  | [] => []
  | node :: nodes => node.shift size :: shiftAll size nodes

end

/-- Nodes are moved one by one. -/
theorem shiftAll_eq_map (size : Nat) (nodes : List Node) :
    shiftAll size nodes = nodes.map (Node.shift size) := by
  induction nodes with
  | nil => rfl
  | cons node nodes ih => rw [shiftAll, ih, List.map_cons]

/-- **Two nodes of one kind**, as their spans and children may differ. -/
structure Node.IsLike (node node' : Node) : Prop where
  kind : node'.kind = node.kind
  isMissing : node'.isMissing = node.isMissing
  isSource : node'.isSource = node.isSource

namespace Node.IsLike

variable {node node' : Node} (h : node.IsLike node')

include h

/-- Nodes of one kind have the same name. -/
theorem isCalled_eq (name : String) : node'.isCalled name = node.isCalled name := by
  rw [Node.isCalled, Node.isCalled, h.kind]

/-- Of two nodes of one kind both are strings or neither is. -/
theorem isString_eq : node'.isString = node.isString :=
  h.isCalled_eq "string"

/-- Both of them count as tokens or neither does. -/
theorem countsAsToken_eq : countsAsToken node' = countsAsToken node := by
  rw [countsAsToken, countsAsToken, h.isMissing, Node.isComment, Node.isComment, h.isCalled_eq]

end Node.IsLike

/-- **A map on nodes that changes nothing but spans.** -/
structure Relabels (f : Node → Node) : Prop where
  isLike : ∀ node : Node, node.IsLike (f node)
  children : ∀ node : Node, (f node).children = node.children.map f

/-- To change nothing changes nothing but spans. -/
theorem relabels_id : Relabels id :=
  ⟨fun _ => ⟨rfl, rfl, rfl⟩, fun _ => (List.map_id _).symm⟩

/-- Nor does it to move a node. -/
theorem relabels_shift (size : Nat) : Relabels (Node.shift size) where
  isLike := fun ⟨_, _, _, _, _, _⟩ => ⟨rfl, rfl, rfl⟩
  children := fun ⟨_, _, _, _, _, children⟩ => shiftAll_eq_map size children

/-! ### A source with something put in -/

/-- A source with something put in at an offset. -/
def putIn (source : Bytes) (offset : Nat) (added : Bytes) : Bytes :=
  source.take offset ++ added ++ source.drop offset

section PutIn

variable {source : Bytes} {offset : Nat} (h_offset : offset ≤ source.length) (added : Bytes)
  {node : Node}

include h_offset

/-- What ends where something is put in, or before, is as it was. -/
theorem text_of_le (h : node.stop ≤ offset) :
    node.text (putIn source offset added) = node.text source := by
  unfold Node.text putIn
  by_cases h_empty : node.stop ≤ node.start
  · rw [Nat.sub_eq_zero_of_le h_empty, List.take_zero, List.take_zero]
  · -- the node lies in the part of the source before the offset
    have h_split : source.drop node.start
        = (source.take offset).drop node.start ++ source.drop offset := by
      conv_lhs => rw [← List.take_append_drop offset source]
      exact List.drop_append_of_le_length (by simp; omega)
    have h_length : node.stop - node.start ≤ ((source.take offset).drop node.start).length := by
      simp
      omega
    rw [List.append_assoc, List.drop_append_of_le_length (by simp; omega),
      List.take_append_of_le_length h_length, h_split, List.take_append_of_le_length h_length]

/-- What begins there or later has moved on. -/
theorem text_shift_of_le (h : offset ≤ node.start) :
    (node.shift added.length).text (putIn source offset added) = node.text source := by
  have h_front : (source.take offset ++ added).length = offset + added.length := by
    simp [Nat.min_eq_left h_offset]
  -- behind what was put in, the source goes on as before
  have h_drop : (putIn source offset added).drop (node.start + added.length)
      = source.drop node.start := by
    unfold putIn
    rw [show node.start + added.length
        = (source.take offset ++ added).length + (node.start - offset) by omega,
      List.drop_length_add_append, List.drop_drop]
    congr 1
    omega
  obtain ⟨kind, start, stop, isMissing, isSource, children⟩ := node
  show ((putIn source offset added).drop (start + added.length)).take
      (stop + added.length - (start + added.length)) = (source.drop start).take (stop - start)
  rw [h_drop, Nat.add_sub_add_right]

end PutIn

/-! ### One comment more -/

/-- A comment, as a leaf. -/
structure Node.IsRemark (node : Node) : Prop where
  isComment : node.isComment = true
  children : node.children = []
  isSource : node.isSource = false

/-- **A node with other children in the middle**, where something of the given size was put in at
`offset`: what stands before them is as it was, and what comes after them has moved on. -/
structure Replaces (offset size : Nat) (middle middle' : List Node) (node node' : Node) : Prop where
  isLike : node.IsLike node'
  isString : node.isString = false
  exists_children : ∃ before after, node.children = before ++ (middle ++ after) ∧
    node'.children = before ++ (middle' ++ after.map (Node.shift size)) ∧
    (∀ m ∈ before, m.stop ≤ offset) ∧ ∀ m ∈ after, offset ≤ m.start

/-- **A tree with one comment more**: a child more of a node that has some and is no string. -/
inductive Inserts (offset size : Nat) : Node → Node → Prop where
  /-- The comment stands among the children of the node itself. -/
  | among {node node' comment : Node} (h_some : node.children ≠ []) (h_comment : comment.IsRemark)
      (h : Replaces offset size [] [comment] node node') : Inserts offset size node node'
  /-- The comment stands further down. -/
  | under {node node' child child' : Node} (h_child : Inserts offset size child child')
      (h : Replaces offset size [child] [child'] node node') : Inserts offset size node node'

variable {offset size : Nat} {node node' : Node}

/-- What is replaced is among the children before, and what it is replaced by among those after. -/
theorem Replaces.subset {middle middle' : List Node}
    (h : Replaces offset size middle middle' node node') :
    middle ⊆ node.children ∧ middle' ⊆ node'.children := by
  obtain ⟨before, after, h_children, h_children', -, -⟩ := h.exists_children
  rw [h_children, h_children']
  exact ⟨fun m hm => by simp [hm], fun m hm => by simp [hm]⟩

namespace Inserts

variable (h : Inserts offset size node node')

include h

/-- The tree with the comment has a root of the same kind. -/
theorem isLike : node.IsLike node' := by
  cases h with
  | among _ _ h => exact h.isLike
  | under _ h => exact h.isLike

/-- The root is no string, for a comment is put between nodes and not into a literal. -/
theorem isString : node.isString = false := by
  cases h with
  | among _ _ h => exact h.isString
  | under _ h => exact h.isString

/-- Nor is it one with the comment. -/
theorem isString' : node'.isString = false :=
  h.isLike.isString_eq.trans h.isString

/-- The root has children, as the comment stands among them or below one. -/
theorem children_ne_nil : node.children ≠ [] := by
  cases h with
  | among h_some _ _ => exact h_some
  | under _ h => exact List.ne_nil_of_mem (h.subset.1 (List.mem_singleton_self _))

/-- It has children with the comment, too. -/
theorem children_ne_nil' : node'.children ≠ [] := by
  cases h with
  | among _ _ h => exact List.ne_nil_of_mem (h.subset.2 (List.mem_singleton_self _))
  | under _ h => exact List.ne_nil_of_mem (h.subset.2 (List.mem_singleton_self _))

end Inserts

/-- **A source with the tree it is read into.** The tree is in order, and where a statement names a
module, no literal among the children of the statement is empty: it has its quotes. -/
structure Reading where
  source : Bytes
  tree : Node
  ordered : tree.Each Node.IsOrdered
  literal : tree.Each fun node => node.source?.isSome = true →
    ∀ child ∈ node.children, child.isString = true → child.start < child.stop

namespace Reading

/-- **A comment was put into the source**, and nothing else has changed. -/
def Commented (r r' : Reading) : Prop :=
  ∃ offset added, offset ≤ r.source.length ∧ r'.source = putIn r.source offset added ∧
    Inserts offset added.length r.tree r'.tree

/-- The places of the string nodes, in document order. -/
def literals (r : Reading) : List Cursor :=
  (Cursor.root r.tree).preorder.filter (·.node.isString)

/-- The literals of a source are those below the root of its tree, unless the root is one. -/
theorem literals_eq {r : Reading} (h : r.tree.isString = false) :
    r.literals = (nodesAmong r.tree.children r.tree [] []).filter (·.node.isString) := by
  have h_root : (Cursor.root r.tree).node.isString = false := h
  rw [literals, Cursor.preorder_eq, List.filter_cons, h_root]
  rfl

end Reading

end DeclarationBundle.Syntax
