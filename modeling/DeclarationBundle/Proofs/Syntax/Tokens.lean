import DeclarationBundle.Proofs.Syntax.DocumentOrder

/-!
# The tokens before a place

To look back from a place is to climb to what stands before it, to go down to the last leaf there
and on from that leaf. What is passed on the way are the tokens of the tree before the place, last
one first: `Cursor.previousTokens_eq_take`.

* `tokensAt` are the tokens of a node, and `Behind.tokens` those behind a place.
* `Cursor.tokens_eq_previousToken?`: one step back leads to the first token behind a place, which
  has the others behind it.
* `Cursor.tokens_behind`: in a tree, these are the tokens that a walk in document order meets before
  it comes to the place.
* `Cursor.previousTokens_eq_take_leaves`: said without a walk, they are the leaves that come before
  the place.
-/

namespace DeclarationBundle.Syntax

mutual

/-- The tokens at or below a node that count when looking back, in document order. -/
def tokensAt : Node → List Node
  | node@⟨_, _, _, _, _, []⟩ => if countsAsToken node then [node] else []
  | ⟨_, _, _, _, _, child :: children⟩ => tokensAmong (child :: children)

/-- The tokens at or below some nodes that count, in document order. -/
def tokensAmong : List Node → List Node
  | [] => []
  | node :: nodes => tokensAt node ++ tokensAmong nodes

end

/-- The tokens of some nodes, nearest first, as the nodes are. -/
def tokensBack (before : List Node) : List Node :=
  before.flatMap fun node => (tokensAt node).reverse

/-- The tokens behind a place, nearest first. -/
def Behind.tokens (behind : Behind) : List Node :=
  behind.flatMap tokensBack

/-- The tokens at or below a place and those behind it, nearest first. -/
def Cursor.tokensUpTo (c : Cursor) : List Node :=
  (tokensAt c.node).reverse ++ c.behind.tokens

/-- A leaf is a token of itself, unless it does not count. -/
theorem tokensAt_of_nil {node : Node} (h : node.children = []) :
    tokensAt node = if countsAsToken node then [node] else [] := by
  obtain ⟨kind, start, stop, isMissing, isSource, children⟩ := node
  subst h
  rfl

/-- A node with children has their tokens, and none of its own. -/
theorem tokensAt_of_ne_nil {node : Node} (h : node.children ≠ []) :
    tokensAt node = tokensAmong node.children := by
  obtain ⟨kind, start, stop, isMissing, isSource, children⟩ := node
  obtain ⟨child, children, rfl⟩ := List.exists_cons_of_ne_nil h
  rfl

/-- The tokens of some nodes and then of more come in this order. -/
theorem tokensAmong_append (nodes more : List Node) :
    tokensAmong (nodes ++ more) = tokensAmong nodes ++ tokensAmong more := by
  induction nodes with
  | nil => rfl
  | cons node nodes ih => rw [List.cons_append, tokensAmong, tokensAmong, ih, List.append_assoc]

/-- The nearest node is looked at first, and its last token first of all. -/
theorem tokensBack_cons (node : Node) (before : List Node) :
    tokensBack (node :: before) = (tokensAt node).reverse ++ tokensBack before :=
  List.flatMap_cons

/-- Nodes once passed are met the other way round. -/
theorem tokensBack_reverse_append (nodes before : List Node) :
    tokensBack (nodes.reverse ++ before) = (tokensAmong nodes).reverse ++ tokensBack before := by
  induction nodes generalizing before with
  | nil => rfl
  | cons node nodes ih =>
    rw [List.reverse_cons, List.append_assoc, List.singleton_append, ih, tokensBack_cons,
      tokensAmong, List.reverse_append, List.append_assoc]

/-- The children of a node, seen from behind the last of them. -/
theorem tokensBack_reverse (nodes : List Node) :
    tokensBack nodes.reverse = (tokensAmong nodes).reverse := by
  have h_back := tokensBack_reverse_append nodes []
  rwa [List.append_nil, show tokensBack [] = [] from rfl, List.append_nil] at h_back

/-- Behind a place are its siblings first, and then what is behind its parent. -/
theorem Behind.tokens_cons (siblings : List Node) (behind : Behind) :
    Behind.tokens (siblings :: behind) = tokensBack siblings ++ Behind.tokens behind :=
  List.flatMap_cons

/-! ### Looking back -/

/-- **A place is looked back from by what stands before it**: the sibling before it, or before the
nearest node above that has one. -/
theorem tokens_eq_siblingBefore? (above : List Frame) :
    Behind.tokens (above.map (·.before)) = (siblingBefore? above).elim [] Cursor.tokensUpTo := by
  fun_induction siblingBefore? above with
  | case1 => rfl
  | case2 parent above ih =>
    rw [← ih]
    exact Behind.tokens_cons [] _
  | case3 parent sibling before above =>
    rw [List.map_cons, Behind.tokens_cons, tokensBack_cons, List.append_assoc,
      ← Behind.tokens_cons]
    rfl

namespace Cursor

/-- Only a leaf has no last child. -/
theorem lastChild?_eq_none_iff {c : Cursor} : c.lastChild? = none ↔ c.node.children = [] := by
  unfold lastChild?
  split <;> simp_all

/-- The tokens of a node are those up to its last child. -/
theorem tokensUpTo_of_lastChild? {c child : Cursor} (h : c.lastChild? = some child) :
    child.tokensUpTo = c.tokensUpTo := by
  have h_ne : c.node.children ≠ [] := by
    intro h_nil
    rw [lastChild?_eq_none_iff.2 h_nil] at h
    cases h
  -- the last child and those before it are all children of the node, seen from behind
  have h_back := tokensBack_reverse c.node.children
  unfold lastChild? at h
  split at h
  · cases h
  · next last before h_children =>
    cases h
    rw [h_children, tokensBack_cons] at h_back
    unfold tokensUpTo
    rw [tokensAt_of_ne_nil h_ne, ← h_back, List.append_assoc]
    exact congrArg _ (Behind.tokens_cons ..)

/-- To go down to the last leaf passes no token. -/
theorem tokensUpTo_lastLeaf (c : Cursor) : c.lastLeaf.tokensUpTo = c.tokensUpTo := by
  fun_induction lastLeaf c with
  | case1 c h => rfl
  | case2 c child h ih => rw [ih, tokensUpTo_of_lastChild? h]

/-- To go down ends at a leaf, which is what makes the search for a token come to an end. -/
theorem children_lastLeaf (c : Cursor) : c.lastLeaf.node.children = [] := by
  fun_induction lastLeaf c with
  | case1 c h => exact lastChild?_eq_none_iff.1 h
  | case2 c child h ih => exact ih

/-- At a leaf there is one token at most before those behind it. -/
theorem tokensUpTo_of_nil {c : Cursor} (h : c.node.children = []) :
    c.tokensUpTo = (if countsAsToken c.node then [c.node] else []) ++ c.behind.tokens := by
  rw [tokensUpTo, tokensAt_of_nil h]
  split <;> rfl

/-- **One step back** leads to the nearest token behind a place, if there is any, and has the others
behind it. -/
theorem tokens_eq_previousToken? (c : Cursor) : c.behind.tokens
    = c.previousToken?.elim [] fun token => token.node :: token.behind.tokens := by
  fun_induction previousToken? c with
  | case1 c h =>
    -- nothing stands before the place, nor before any node above it
    rw [behind, tokens_eq_siblingBefore?, h]
    rfl
  | case2 c sibling h h_counts =>
    -- the last leaf of what stands before the place is the token that is wanted
    rw [behind, tokens_eq_siblingBefore?, h, Option.elim_some, ← tokensUpTo_lastLeaf,
      tokensUpTo_of_nil (children_lastLeaf sibling), if_pos h_counts]
    rfl
  | case3 c sibling h h_counts ih =>
    -- a comment or a missing token is passed over: nothing is lost of what is behind the place
    rw [← ih, behind, tokens_eq_siblingBefore?, h, Option.elim_some, ← tokensUpTo_lastLeaf,
      tokensUpTo_of_nil (children_lastLeaf sibling), if_neg h_counts, List.nil_append]

/-- Some steps back pass the tokens behind a place in turn. -/
theorem previousTokens_eq_take_behind (source : Bytes) (c : Cursor) (count : Nat) :
    c.previousTokens source count = (c.behind.tokens.map (Node.text source)).take count := by
  induction count generalizing c with
  | zero => rfl
  | succ count ih =>
    -- each step takes the first of the tokens behind and goes on from there
    rw [previousTokens, tokens_eq_previousToken? c]
    cases c.previousToken? with
    | none => rfl
    | some token =>
      show token.node.text source :: token.previousTokens source count = _
      rw [ih, Option.elim_some, List.map_cons, List.take_succ_cons]

end Cursor

/-! ### Document order -/

namespace Cursor

/-- A leaf that counts when looking back. -/
def isToken (c : Cursor) : Bool :=
  c.node.children.isEmpty && countsAsToken c.node

/-- The tokens among some places. -/
def tokensOf (places : List Cursor) : List Node :=
  (places.filter isToken).map (·.node)

/-- Tokens are sought place by place, so the walk may be cut anywhere. -/
theorem tokensOf_append (places more : List Cursor) :
    tokensOf (places ++ more) = tokensOf places ++ tokensOf more := by
  unfold tokensOf
  rw [List.filter_append, List.map_append]

/-- A node with children is no token. -/
theorem tokensOf_cons_of_ne_nil {c : Cursor} (h : c.node.children ≠ []) (places : List Cursor) :
    tokensOf (c :: places) = tokensOf places := by
  have h_not : ¬ c.isToken = true := by simp [isToken, h]
  unfold tokensOf
  rw [List.filter_cons_of_neg h_not]

end Cursor

open Cursor in
/-- The tokens of a node are those at the places of a walk over it: the two forms. -/
private theorem tokensOf_nodes_all :
    (∀ (node : Node) (above : List Frame), tokensOf (nodesAt node above) = tokensAt node) ∧
    ∀ (nodes : List Node) (parent : Node) (before : List Node) (above : List Frame),
      tokensOf (nodesAmong nodes parent before above) = tokensAmong nodes := by
  refine Node.induction _ _ ?node ?nil ?cons
  case node =>
    intro node ih above
    rw [nodesAt_eq]
    by_cases h : node.children = []
    · -- a leaf is the one place of a walk over it
      rw [tokensAt_of_nil h, h, nodesAmong]
      unfold tokensOf
      rw [List.filter_singleton]
      have h_token : (⟨node, above⟩ : Cursor).isToken = countsAsToken node := by simp [isToken, h]
      rw [h_token]
      cases countsAsToken node <;> rfl
    · rw [tokensOf_cons_of_ne_nil h, ih, tokensAt_of_ne_nil h]
  case nil => exact fun _ _ _ => rfl
  case cons =>
    intro node nodes ih ih_nodes parent before above
    rw [nodesAmong, tokensOf_append, ih, ih_nodes, tokensAmong]

open Cursor in
/-- The two forms of `Cursor.tokens_behind`: before a place inside some nodes come the places among
them that a walk has met, and then what is behind the first of them. -/
private theorem tokens_behind_all :
    (∀ (node : Node) (above : List Frame) (before after : List Cursor) (c : Cursor),
      nodesAt node above = before ++ c :: after → c.behind.tokens
        = (tokensOf before).reverse ++ Behind.tokens (above.map (·.before))) ∧
    ∀ (nodes : List Node) (parent : Node) (passed : List Node) (above : List Frame)
        (before after : List Cursor) (c : Cursor),
      nodesAmong nodes parent passed above = before ++ c :: after → c.behind.tokens
        = (tokensOf before).reverse ++ Behind.tokens (passed :: above.map (·.before)) := by
  refine Node.induction _ _ ?node ?nil ?cons
  case node =>
    intro node ih above before after c h
    rw [nodesAt_eq] at h
    -- the place is the node itself, or it is below and the node, having children, is no token
    cases before with
    | nil =>
      obtain ⟨rfl, -⟩ := List.cons.inj h
      rfl
    | cons first before =>
      obtain ⟨rfl, h_below⟩ := List.cons.inj h
      have h_ne : node.children ≠ [] := by
        intro h_nil
        rw [h_nil, nodesAmong] at h_below
        simp at h_below
      rw [tokensOf_cons_of_ne_nil h_ne]
      exact ih node [] above before after c h_below
  case nil =>
    intro parent passed above before after c h
    simp [nodesAmong] at h
  case cons =>
    intro node nodes ih ih_nodes parent passed above before after c h
    rw [nodesAmong] at h
    rcases List.append_eq_append_iff.1 h with ⟨more, h_before, h_rest⟩ | ⟨more, h_node, h_rest⟩
    · -- the place is among the later siblings, and all of the first is before it
      rw [ih_nodes parent (node :: passed) above more after c h_rest, h_before, tokensOf_append,
        tokensOf_nodes_all.1, Behind.tokens_cons, tokensBack_cons, List.reverse_append,
        Behind.tokens_cons]
      simp only [List.append_assoc]
    · cases more with
      | nil =>
        -- the place is the first of the later siblings: all of the first child is before it
        rw [List.append_nil] at h_node
        rw [ih_nodes parent (node :: passed) above [] after c h_rest.symm, ← h_node,
          tokensOf_nodes_all.1, Behind.tokens_cons, tokensBack_cons, Behind.tokens_cons]
        simp only [List.append_assoc]
        rfl
      | cons first more =>
        -- the place is in the first child, so what is before it is as well
        obtain ⟨rfl, -⟩ := List.cons.inj h_rest
        exact ih (⟨parent, passed⟩ :: above) before more c h_node

variable {tree : Node} {before after : List Cursor} {c : Cursor}

/-- **The tokens behind a place** of a tree are those before it in document order. -/
theorem Cursor.tokens_behind (h : (root tree).preorder = before ++ c :: after) :
    c.behind.tokens = (tokensOf before).reverse := by
  rw [tokens_behind_all.1 tree [] before after c h]
  exact List.append_nil _

/-- **To look back is to read the tokens of a tree backwards.** -/
theorem Cursor.previousTokens_eq_take (h : (root tree).preorder = before ++ c :: after)
    (source : Bytes) (count : Nat) :
    c.previousTokens source count
      = ((tokensOf before).reverse.map (Node.text source)).take count := by
  rw [previousTokens_eq_take_behind, tokens_behind h]

/-- The tokens among some places are their leaves, comments and missing tokens left out. -/
theorem Cursor.tokensOf_eq (places : List Cursor) : tokensOf places
    = ((places.filter isLeaf).filter fun d => countsAsToken d.node).map (·.node) := by
  rw [List.filter_filter, tokensOf]
  congr 1
  exact List.filter_congr fun d _ => Bool.and_comm ..

/-- **To look back is to read the leaves before a place backwards**, as many of them as are wanted.
Comments and missing tokens are left out, and so is what lies above the place or below it. -/
theorem Cursor.previousTokens_eq_take_leaves (h : c ∈ (root tree).preorder) (source : Bytes)
    (count : Nat) : c.previousTokens source count
      = ((((leavesBefore tree c).reverse.filter fun d => countsAsToken d.node).map
          fun d => d.node.text source).take count) := by
  -- a place of the tree cuts the walk in two, and the leaves before it are in the first part
  obtain ⟨before, after, h_cut⟩ := List.append_of_mem h
  rw [previousTokens_eq_take h_cut, leavesBefore_eq h_cut, tokensOf_eq, ← List.map_reverse,
    ← List.filter_reverse, List.map_map]
  rfl

/-- Two phrases with a comment and a missing token before the second. -/
def twoPhrases : Node :=
  ⟨.phrase "program", 0, 9, false, false,
    [⟨.phrase "first", 0, 6, false, false,
        [.token (.token "a") 0 1, .token .comment 1 5, .token (.token "b") 5 6]⟩,
      ⟨.token ";", 6, 6, true, false, []⟩,
      ⟨.phrase "second", 7, 9, false, false, [.token (.token "c") 7 8, .token (.token "d") 8 9]⟩]⟩

/-- Of the five leaves before the last one, three are seen. -/
theorem Cursor.previousTokens_eq_take_leaves_nested :
    ∃ c ∈ (root twoPhrases).preorder, c.node.kind = .token "d" ∧
      c.previousTokens (Utf8.encode "a/**/b cd") 6 = ["c", "b", "a"].map Utf8.encode := by
  have h_last : (root twoPhrases).preorder[8]?.any
      (fun c => c.node.kind == .token "d" &&
        ((leavesBefore twoPhrases c).reverse.filter fun d => countsAsToken d.node).map
          (fun d => d.node.text (Utf8.encode "a/**/b cd")) == ["c", "b", "a"].map Utf8.encode)
      = true := by
    decide +kernel
  obtain ⟨c, h_c, h_seen⟩ := (Option.any_eq_true _ _).1 h_last
  obtain ⟨h_kind, h_leaves⟩ := Bool.and_eq_true_iff.1 h_seen
  have h_mem := List.mem_of_getElem? h_c
  refine ⟨c, h_mem, beq_iff_eq.1 h_kind, ?_⟩
  rw [previousTokens_eq_take_leaves h_mem, beq_iff_eq.1 h_leaves]
  rfl

end DeclarationBundle.Syntax
