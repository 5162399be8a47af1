import DeclarationBundle.Reference
import DeclarationBundle.Proofs.Syntax.Comment
import DeclarationBundle.Proofs.Syntax.Strings
import DeclarationBundle.Proofs.Syntax.Tokens

/-!
# Comments decide nothing

Whether a source is a module, and which of its literals name one, does not depend on the comments in
it. What is asked of the tree around a literal is what can be seen from there (`Outlook`): the
construct that holds it, the tokens behind it, and whether a node that names a module stands before
it among its siblings. A comment is no token and names nothing, so it is seen from nowhere.

* What is seen of a literal decides on it (`isRequireTarget_eq_isTarget`,
  `isModuleSpecifier_eq_isSpecifier`). The second compares spans, and takes that a literal is not
  empty: of two nodes without text at one offset, either could be the one that names the module.
* `Agree` relates nodes of two sources of which the same is seen. It is a congruence, a comment is
  as good as nothing for it (`Agree.remark`), and nodes that have but moved are as good as before
  (`Agree.of_relabels`).
* `agree_of_inserts`: one comment more, anywhere in a tree.
* `decisions_eq_of_commented`: the decisions on a source, however many comments are put in.
-/

namespace DeclarationBundle

open Syntax

namespace Reference

/-! ### What is seen from a place -/

/-- **What is seen from a place** of the tree around it. -/
structure Outlook where
  /-- The construct that holds the place. -/
  holder : Option String
  /-- The tokens behind it, nearest first. -/
  behind : List Bytes
  /-- A sibling before it names the module that the construct refers to. -/
  isPastSource : Bool

/-- What is seen from a place with the given way up. -/
def outlook (source : Bytes) (above : List Frame) : Outlook where
  holder := above.head?.map (·.parent.kind.name)
  behind := (Behind.tokens (above.map (·.before))).map (Node.text source)
  isPastSource := above.head?.any (·.before.any (·.isSource))

/-- What is seen of a literal, and around it. -/
structure Sight where
  text : Bytes
  isSource : Bool
  around : Outlook

/-- What is seen of a literal at a place. -/
def sight (source : Bytes) (c : Cursor) : Sight :=
  ⟨c.node.text source, c.node.isSource, outlook source c.above⟩

/-- The tokens behind lead up to the literal of `import x = require('m')`. -/
def Outlook.isTarget (o : Outlook) : Bool :=
  leadsToRequire ((o.behind.take 6).map tokenText)

/-- A literal seen so names a module. -/
def Sight.isSpecifier (s : Sight) : Bool :=
  match s.around.holder with
  | none => false
  | some holder =>
    holder == Kind.importRequire.name || s.around.isTarget ||
      ((holder == Kind.importStatement.name || holder == Kind.exportStatement.name) &&
        (s.isSource && !s.around.isPastSource))

/-- Whether a literal is the target of a `require` is decided by the tokens behind it. -/
theorem isRequireTarget_eq_isTarget (source : Bytes) (c : Cursor) :
    isRequireTarget source c = (outlook source c.above).isTarget := by
  rw [isRequireTarget, Cursor.previousTokens_eq_take_behind]
  rfl

/-- A node that is not empty has no span in common with one before it or after it. -/
theorem sameSpan_of_apart {node other : Node} (h_lt : node.start < node.stop)
    (h : other.stop ≤ node.start ∨ node.stop ≤ other.start) : sameSpan other node = false := by
  rw [Bool.eq_false_iff]
  intro h_same
  simp only [sameSpan, Bool.and_eq_true, beq_iff_eq] at h_same
  omega

/-- Among siblings in order, the span of the node that names the module tells it apart. -/
theorem sameSpan_source_eq {start stop : Nat} {before after : List Node} {node : Node}
    (h_order : Node.StandBetween stop start (before ++ node :: after))
    (h_literal : ((before ++ node :: after).find? (·.isSource)).isSome = true →
      node.start < node.stop) :
    (((before ++ node :: after).find? (·.isSource)).map (sameSpan · node)).getD false
      = (node.isSource && !before.any (·.isSource)) := by
  obtain ⟨h_before, h_after⟩ := h_order.apart
  rw [List.find?_append] at h_literal ⊢
  -- the node that names the module is before this one, or else it is this one or after it
  cases h_first : before.find? (·.isSource) with
  | some first =>
    have h_mem := List.mem_of_find?_eq_some h_first
    have h_any : before.any (·.isSource) = true :=
      List.any_eq_true.2 ⟨first, h_mem, List.find?_some h_first⟩
    have h_lt := h_literal (by rw [h_first]; rfl)
    simp [h_any, sameSpan_of_apart h_lt (.inl (h_before first h_mem))]
  | none =>
    have h_any : before.any (·.isSource) = false := by
      rw [List.any_eq_false]
      exact fun m hm => List.find?_eq_none.1 h_first m hm
    rw [h_any, Option.none_or, List.find?_cons]
    cases h_node : node.isSource with
    -- this is the node itself, which has its own span
    | true => simp [sameSpan]
    | false =>
      cases h_later : after.find? (·.isSource) with
      | none => rfl
      | some later =>
        have h_mem := List.mem_of_find?_eq_some h_later
        have h_lt := h_literal (by simp [h_first, h_node, h_later])
        simp [sameSpan_of_apart h_lt (.inr (h_after later h_mem))]

/-- **What is seen of a literal decides** whether it names a module. The node that names the module
is found by its span, which is why the siblings of the literal have to be in order. -/
theorem isModuleSpecifier_eq_isSpecifier (r : Reading) {c : Cursor} (hc : c ∈ r.literals) :
    isModuleSpecifier r.source c = (sight r.source c).isSpecifier := by
  obtain ⟨h_place, h_string⟩ := List.mem_filter.1 hc
  unfold isModuleSpecifier Sight.isSpecifier sight Cursor.parent?
  rw [isRequireTarget_eq_isTarget]
  -- the literal is the root, which nothing holds, or it is the child of a node
  rcases Cursor.exists_parent h_place with h_root | ⟨frame, rest, after, h_above, h_parent, h_all⟩
  · simp [outlook, h_root]
  · -- the siblings before the literal are those in the frame above it
    have h_order := r.ordered _ h_parent
    have h_literal := r.literal _ h_parent
    unfold Node.IsOrdered at h_order
    unfold Node.source? at h_literal
    rw [h_all] at h_order h_literal
    have h_source : (frame.parent.source?.map (sameSpan · c.node)).getD false
        = (c.node.isSource && !frame.before.any (·.isSource)) := by
      unfold Node.source?
      rw [h_all,
        sameSpan_source_eq h_order fun h_some => h_literal h_some c.node (by simp) h_string,
        List.any_reverse]
    rw [h_above]
    simp only [List.head?_cons, Option.map_some, h_source]
    rfl

/-! ### Nodes of which the same is seen -/

/-- A statement that makes the source a module. -/
def makesModule (source : Bytes) (statement : Cursor) : Bool :=
  statement.node.isCalled Kind.exportStatement.name ||
    (mayImport statement.node && importsModule source statement)

/-- **Nodes of which the same is seen in two sources**, wherever they stand as long as the same is
seen from there. -/
structure Agree (source source' : Bytes) (nodes nodes' : List Node) : Prop where
  tokens : (tokensAmong nodes').map (Node.text source') = (tokensAmong nodes).map (Node.text source)
  sources : nodes'.any (·.isSource) = nodes.any (·.isSource)
  clauses : nodes'.any (·.isCalled Kind.importRequire.name)
    = nodes.any (·.isCalled Kind.importRequire.name)
  literals {frame frame' : Frame} {above above' : List Frame}
    (h : outlook source' (frame' :: above') = outlook source (frame :: above)) :
    ((nodesAmong nodes' frame'.parent frame'.before above').filter (·.node.isString)).map
        (sight source')
      = ((nodesAmong nodes frame.parent frame.before above).filter (·.node.isString)).map
        (sight source)
  strings {frame frame' : Frame} {above above' : List Frame}
    (h : outlook source' (frame' :: above') = outlook source (frame :: above)) :
    (stringsAmong nodes' frame'.parent frame'.before above').map (sight source')
      = (stringsAmong nodes frame.parent frame.before above).map (sight source)
  statements {frame frame' : Frame} {above above' : List Frame}
    (h : outlook source' (frame' :: above') = outlook source (frame :: above)) :
    (childrenFrom frame'.parent above' frame'.before nodes').any (makesModule source')
      = (childrenFrom frame.parent above frame.before nodes).any (makesModule source)

/-- What is seen from the first child of a node. -/
theorem outlook_enter (source : Bytes) (node : Node) (above : List Frame) :
    outlook source (⟨node, []⟩ :: above)
      = ⟨some node.kind.name, (outlook source above).behind, false⟩ :=
  rfl

/-- What is seen once some nodes are passed. -/
theorem outlook_pass (source : Bytes) (nodes before : List Node) (parent : Node)
    (above : List Frame) :
    outlook source (⟨parent, nodes.reverse ++ before⟩ :: above)
      = { outlook source (⟨parent, before⟩ :: above) with
          behind := ((tokensAmong nodes).map (Node.text source)).reverse
            ++ (outlook source (⟨parent, before⟩ :: above)).behind
          isPastSource := nodes.any (·.isSource)
            || (outlook source (⟨parent, before⟩ :: above)).isPastSource } := by
  unfold outlook
  simp [Behind.tokens_cons, tokensBack_reverse_append]

namespace Agree

variable {source source' : Bytes} {nodes nodes' more more' : List Node}

/-- What is seen is the same behind nodes of which the same is seen. -/
theorem outlook_pass_eq (h : Agree source source' nodes nodes') {frame frame' : Frame}
    {above above' : List Frame}
    (h_outlook : outlook source' (frame' :: above') = outlook source (frame :: above)) :
    outlook source' (⟨frame'.parent, nodes'.reverse ++ frame'.before⟩ :: above')
      = outlook source (⟨frame.parent, nodes.reverse ++ frame.before⟩ :: above) := by
  rw [outlook_pass, outlook_pass, h_outlook, h.tokens, h.sources]

/-- No nodes, nothing to see. -/
theorem nil : Agree source source' [] [] :=
  ⟨rfl, rfl, rfl, fun _ => rfl, fun _ => rfl, fun _ => rfl⟩

/-- Nodes of which the same is seen can be put side by side. -/
theorem append (h : Agree source source' nodes nodes') (h_more : Agree source source' more more') :
    Agree source source' (nodes ++ more) (nodes' ++ more') where
  tokens := by
    rw [tokensAmong_append, tokensAmong_append, List.map_append, List.map_append, h.tokens,
      h_more.tokens]
  sources := by rw [List.any_append, List.any_append, h.sources, h_more.sources]
  clauses := by rw [List.any_append, List.any_append, h.clauses, h_more.clauses]
  -- the second nodes are seen behind the first, of which the same was seen
  literals h_outlook := by
    rw [nodesAmong_append, nodesAmong_append, List.filter_append, List.filter_append,
      List.map_append, List.map_append, h.literals h_outlook,
      h_more.literals (h.outlook_pass_eq h_outlook)]
  strings h_outlook := by
    rw [stringsAmong_append, stringsAmong_append, List.map_append, List.map_append,
      h.strings h_outlook, h_more.strings (h.outlook_pass_eq h_outlook)]
  statements h_outlook := by
    rw [childrenFrom_append, childrenFrom_append, List.any_append, List.any_append,
      h.statements h_outlook, h_more.statements (h.outlook_pass_eq h_outlook)]

/-- **A comment is as good as nothing.** -/
theorem remark {comment : Node} (h : comment.IsRemark) : Agree source source' [] [comment] := by
  have h_name : comment.kind.name = "comment" := beq_iff_eq.1 h.isComment
  have h_not : ∀ name, name ≠ "comment" → comment.isCalled name = false := by
    intro name h_ne
    rw [Node.isCalled, h_name, beq_eq_false_iff_ne]
    exact h_ne.symm
  have h_string : comment.isString = false := h_not _ (by decide)
  have h_token : countsAsToken comment = false := by simp [countsAsToken, h.isComment]
  constructor
  case tokens => simp [tokensAmong, tokensAt_of_nil h.children, h_token]
  case sources => simp [h.isSource]
  case clauses => simp [h_not Kind.importRequire.name (by decide)]
  case literals => simp [nodesAmong, nodesAt_eq, h.children, h_string]
  case strings => simp [stringsAmong, stringsAt_eq, h.children, h_string]
  case statements =>
    have h_export := h_not Kind.exportStatement.name (by decide)
    have h_import := h_not Kind.importStatement.name (by decide)
    have h_unfit := h_not Kind.unfit.name (by decide)
    have h_expression := h_not Kind.expressionStatement.name (by decide)
    simp [childrenFrom, makesModule, mayImport, h_export, h_import, h_unfit, h_expression]

section Node

variable {node node' : Node} (h_like : node.IsLike node') {above above' : List Frame}

include h_like

/-- What is seen from the first child of a node depends on its kind and on what is seen from the
node. -/
theorem outlook_enter_eq (h_above : outlook source' above' = outlook source above) :
    outlook source' (⟨node', []⟩ :: above') = outlook source (⟨node, []⟩ :: above) := by
  rw [outlook_enter, outlook_enter, h_above, h_like.kind]

/-- Of nodes of one kind, with the same text and the same around them, the same is seen. -/
theorem sight_eq (h_above : outlook source' above' = outlook source above)
    (h_text : node'.text source' = node.text source) :
    sight source' ⟨node', above'⟩ = sight source ⟨node, above⟩ := by
  rw [sight, sight, h_text, h_like.isSource, h_above]

variable (h : Agree source source' node.children node'.children)

include h

/-- A node of the same kind has the same tokens, if it is one itself or its children have them. -/
theorem map_tokensAt (h_leaf : node'.children = [] ↔ node.children = [])
    (h_text : node.children = [] → node'.text source' = node.text source) :
    (tokensAt node').map (Node.text source') = (tokensAt node).map (Node.text source) := by
  by_cases h_nil : node.children = []
  · rw [tokensAt_of_nil h_nil, tokensAt_of_nil (h_leaf.2 h_nil), h_like.countsAsToken_eq]
    cases countsAsToken node with
    | true => simp [h_text h_nil]
    | false => rfl
  · rw [tokensAt_of_ne_nil h_nil, tokensAt_of_ne_nil (mt h_leaf.1 h_nil)]
    exact h.tokens

variable (h_above : outlook source' above' = outlook source above)
  (h_text : node.isString = true → node'.text source' = node.text source)

include h_above h_text

/-- The same is seen of the literals at a node and below it. -/
theorem map_nodesAt :
    ((nodesAt node' above').filter (·.node.isString)).map (sight source')
      = ((nodesAt node above).filter (·.node.isString)).map (sight source) := by
  have h_below := h.literals (outlook_enter_eq h_like h_above)
  rw [nodesAt_eq, nodesAt_eq, List.filter_cons, List.filter_cons, h_like.isString_eq]
  by_cases h_string : node.isString = true
  · rw [if_pos h_string, if_pos h_string, List.map_cons, List.map_cons, h_below,
      sight_eq h_like h_above (h_text h_string)]
  · rw [if_neg h_string, if_neg h_string, h_below]

/-- The same is seen of the outermost literals. -/
theorem map_stringsAt :
    (stringsAt node' above').map (sight source') = (stringsAt node above).map (sight source) := by
  rw [stringsAt_eq, stringsAt_eq, h_like.isString_eq]
  by_cases h_string : node.isString = true
  · rw [if_pos h_string, if_pos h_string, List.map_singleton, List.map_singleton,
      sight_eq h_like h_above (h_text h_string)]
  · rw [if_neg h_string, if_neg h_string]
    exact h.strings (outlook_enter_eq h_like h_above)

/-- So a statement makes the source a module, or none does. -/
theorem makesModule_eq :
    makesModule source' ⟨node', above'⟩ = makesModule source ⟨node, above⟩ := by
  have h_source : node'.source?.isSome = node.source?.isSome := by
    rw [Node.source?, Node.source?, List.isSome_find?, List.isSome_find?, h.sources]
  -- a target is known by what is seen around it
  have h_targets : (stringsAt node' above').any (isRequireTarget source')
      = (stringsAt node above).any (isRequireTarget source) := by
    have h_any := congrArg (·.any (·.around.isTarget)) (map_stringsAt h_like h h_above h_text)
    simp only [List.any_map, Function.comp_def, sight, ← isRequireTarget_eq_isTarget] at h_any
    exact h_any
  -- a statement is an export, or an import with a literal, a clause or a target in it
  unfold makesModule mayImport importsModule
  rw [Cursor.strings_eq_stringsAt, Cursor.strings_eq_stringsAt]
  simp only [h_like.isCalled_eq, h_source, h.clauses, h_targets]

end Node

/-- **Nodes of one kind** with children of which the same is seen. The text of a node counts if it
is a token or a literal. -/
theorem node {node node' : Node} (h_like : node.IsLike node')
    (h_leaf : node'.children = [] ↔ node.children = [])
    (h_text : node.children = [] ∨ node.isString = true → node'.text source' = node.text source)
    (h : Agree source source' node.children node'.children) :
    Agree source source' [node] [node'] where
  tokens := by
    simp only [tokensAmong, List.append_nil]
    exact map_tokensAt h_like h h_leaf fun h_nil => h_text (.inl h_nil)
  sources := by rw [List.any_cons, List.any_cons, h_like.isSource]
  clauses := by rw [List.any_cons, List.any_cons, h_like.isCalled_eq]
  literals h_outlook := by
    simp only [nodesAmong, List.append_nil]
    exact map_nodesAt h_like h h_outlook fun h_string => h_text (.inr h_string)
  strings h_outlook := by
    simp only [stringsAmong, List.append_nil]
    exact map_stringsAt h_like h h_outlook fun h_string => h_text (.inr h_string)
  statements h_outlook := by
    simp only [childrenFrom, List.any_cons, List.any_nil, Bool.or_false]
    exact makesModule_eq h_like h h_outlook fun h_string => h_text (.inr h_string)

/-- **Nodes that have but moved**, with all below them that covers the same text as before. -/
theorem of_relabels {f : Node → Node} (h_f : Relabels f) (nodes : List Node)
    (h_text : ∀ node ∈ nodes, node.Each fun m => (f m).text source' = m.text source) :
    Agree source source' nodes (nodes.map f) := by
  have h_all := Node.induction
    (fun node => (node.Each fun m => (f m).text source' = m.text source) →
      Agree source source' [node] [f node])
    (fun nodes => (∀ node ∈ nodes, node.Each fun m => (f m).text source' = m.text source) →
      Agree source source' nodes (nodes.map f))
    ?node ?nil ?cons
  · exact h_all.2 nodes h_text
  -- the children come first: once the same is seen of them, it is seen of the node
  case node =>
    intro node ih h_node
    obtain ⟨h_self, h_children⟩ := Node.each_iff.1 h_node
    refine .node (h_f.isLike node) ?_ (fun _ => h_self) ?_
    · rw [h_f.children, List.map_eq_nil_iff]
    · rw [h_f.children]
      exact ih h_children
  case nil => exact fun _ => .nil
  case cons =>
    intro node nodes ih ih_nodes h
    obtain ⟨h_node, h_nodes⟩ := List.forall_mem_cons.1 h
    exact (ih h_node).append (ih_nodes h_nodes)

end Agree

/-! ### One comment more -/

section PutIn

variable {source : Bytes} {offset : Nat} (h_offset : offset ≤ source.length) (added : Bytes)

include h_offset

/-- Nodes that end where something is put in, or before. -/
theorem agree_of_le {nodes : List Node} (h_order : ∀ m ∈ nodes, m.Each Node.IsOrdered)
    (h : ∀ m ∈ nodes, m.stop ≤ offset) :
    Agree source (putIn source offset added) nodes nodes := by
  have h_agree : Agree source (putIn source offset added) nodes (nodes.map id) := by
    refine .of_relabels relabels_id nodes fun m hm => (h_order m hm).of_within ?_
    intro below _ h_stop
    exact text_of_le h_offset added (h_stop.trans (h m hm))
  rwa [List.map_id] at h_agree

/-- Nodes that begin there, or later. -/
theorem agree_shift_of_le {nodes : List Node} (h_order : ∀ m ∈ nodes, m.Each Node.IsOrdered)
    (h : ∀ m ∈ nodes, offset ≤ m.start) :
    Agree source (putIn source offset added) nodes (nodes.map (Node.shift added.length)) := by
  refine .of_relabels (relabels_shift added.length) nodes fun m hm => (h_order m hm).of_within ?_
  intro below h_start _
  exact text_shift_of_le h_offset added ((h m hm).trans h_start)

variable {node node' : Node} (h_order : node.Each Node.IsOrdered)

include h_order

/-- The same is seen of the children of a node if it is of those that are replaced. -/
theorem agree_of_replaces {middle middle' : List Node}
    (h : Replaces offset added.length middle middle' node node')
    (h_middle : Agree source (putIn source offset added) middle middle') :
    Agree source (putIn source offset added) node.children node'.children := by
  obtain ⟨before, after, h_children, h_children', h_before, h_after⟩ := h.exists_children
  have h_each := (Node.each_iff.1 h_order).2
  rw [h_children] at h_each ⊢
  rw [h_children']
  -- what stands before is as it was, and what comes after has moved on
  have h_front := agree_of_le h_offset added (fun m hm => h_each m (by simp [hm])) h_before
  have h_back := agree_shift_of_le h_offset added (fun m hm => h_each m (by simp [hm])) h_after
  exact h_front.append (h_middle.append h_back)

/-- **One comment more among the nodes below a node**: the same is seen of its children. -/
theorem agree_of_inserts (h : Inserts offset added.length node node') :
    Agree source (putIn source offset added) node.children node'.children := by
  induction h with
  -- among the children of this node, where nothing stood and now there is a comment
  | among _ h_comment h => exact agree_of_replaces h_offset added h_order h (.remark h_comment)
  | @under node node' child child' h_child h ih =>
    refine agree_of_replaces h_offset added h_order h ?_
    have h_mem : child ∈ node.children := h.subset.1 (List.mem_singleton_self child)
    have h_below := ih ((Node.each_iff.1 h_order).2 child h_mem)
    -- the child holds the comment, so it is neither a token nor a literal
    refine .node h_child.isLike ?_ ?_ h_below
    · simp [h_child.children_ne_nil, h_child.children_ne_nil']
    · simp [h_child.children_ne_nil, h_child.isString]

end PutIn

/-- A literal and what is decided on it: whether it is the target of a `require`, and whether it
names a module at all. -/
def decisions (source : Bytes) (c : Cursor) : Bytes × Bool × Bool :=
  (c.node.text source, isRequireTarget source c, isModuleSpecifier source c)

/-- The decisions on all literals can be read off what is seen of them. -/
theorem map_decisions_eq (r : Reading) : r.literals.map (decisions r.source)
    = (r.literals.map (sight r.source)).map
        fun s => (s.text, s.around.isTarget, s.isSpecifier) := by
  rw [List.map_map]
  refine List.map_congr_left fun c hc => ?_
  rw [decisions, isRequireTarget_eq_isTarget, isModuleSpecifier_eq_isSpecifier r hc]
  rfl

/-- One comment more leaves the decisions as they are. -/
theorem decisions_eq_of_commented_once {r r' : Reading} (h : r.Commented r') :
    isExternalModule r'.source r'.tree = isExternalModule r.source r.tree ∧
      r'.literals.map (decisions r'.source) = r.literals.map (decisions r.source) := by
  obtain ⟨offset, added, h_offset, h_source, h_inserts⟩ := h
  have h_agree := agree_of_inserts h_offset added r.ordered h_inserts
  rw [← h_source] at h_agree
  -- nothing is seen from the children of a root but its kind
  have h_outlook : outlook r'.source [⟨r'.tree, []⟩] = outlook r.source [⟨r.tree, []⟩] := by
    rw [outlook_enter, outlook_enter, h_inserts.isLike.kind]
    rfl
  refine ⟨h_agree.statements h_outlook, ?_⟩
  rw [map_decisions_eq, map_decisions_eq, Reading.literals_eq h_inserts.isString,
    Reading.literals_eq h_inserts.isString']
  exact congrArg _ (h_agree.literals h_outlook)

/-- **Comments decide nothing.** However many comments are put into a source, it is a module or a
script as before, and its literals are what they were. One comment is put in at a time, among the
children of any node, and moves all that comes behind it; so whatever a decision looks at is either
before the comment and the same, or behind it and moved as a whole
(`decisions_eq_of_commented_once`). -/
theorem decisions_eq_of_commented {r r' : Reading}
    (h : Relation.ReflTransGen Reading.Commented r r') :
    isExternalModule r'.source r'.tree = isExternalModule r.source r.tree ∧
      r'.literals.map (decisions r'.source) = r.literals.map (decisions r.source) := by
  induction h with
  | refl => exact ⟨rfl, rfl⟩
  -- the last comment is put into a source that has the others
  | tail _ h_step ih =>
    obtain ⟨h_module, h_literals⟩ := decisions_eq_of_commented_once h_step
    exact ⟨h_module.trans ih.1, h_literals.trans ih.2⟩

/-! ### An import, before and after -/

section Import

/-- A construct around some nodes. -/
def construct (name : String) (start stop : Nat) (children : List Node) : Node :=
  ⟨.phrase name, start, stop, false, false, children⟩

/-- A token of the given spelling. -/
def mark (spelling : String) (start : Nat) : Node :=
  .token (.token spelling) start (start + spelling.length)

/-- A comment, which is a construct without children. -/
def remark (start stop : Nat) : Node :=
  construct "comment" start stop []

/-- The name that is imported. -/
def nameClause (start : Nat) : Node :=
  construct "import clause" start (start + 1) [construct "identifier" start (start + 1) []]

/-- The literal, which names the module. -/
def sourceLiteral (start : Nat) : Node :=
  { construct "string" start (start + 3)
      [mark "'" start, construct "string fragment" (start + 1) (start + 2) [], mark "'" (start + 2)]
    with isSource := true }

/-- The tree of a source that is one import. -/
def importTree (stop : Nat) (nodes : List Node) : Node :=
  construct "program" 0 stop [construct Kind.importStatement.name 0 stop nodes]

/-- An import without a comment. -/
def bareImport : Reading where
  source := Utf8.encode "import a from'm'"
  tree := importTree 16 [mark "import" 0, nameClause 7, mark "from" 9, sourceLiteral 13]
  ordered := by decide
  literal := by decide

/-- The same with a comment in it. -/
def remarkedImport : Reading where
  source := Utf8.encode "import /**/a from'm'"
  tree := importTree 20
    [mark "import" 0, remark 7 11, nameClause 11, mark "from" 13, sourceLiteral 17]
  ordered := by decide
  literal := by decide

/-- The second comment ends with its line. -/
def twiceRemarkedImport : Reading where
  source := Utf8.encode "import /**/a from//\n'm'"
  tree := importTree 23
    [mark "import" 0, remark 7 11, nameClause 11, mark "from" 13, remark 17 19, sourceLiteral 20]
  ordered := by decide
  literal := by decide

/-- A comment in the statement. -/
theorem inserts_importTree {offset size last stop stop' : Nat} {before after : List Node}
    (h_some : before ≠ []) (h_before : ∀ m ∈ before, m.stop ≤ offset)
    (h_after : ∀ m ∈ after, offset ≤ m.start) :
    Inserts offset size (importTree stop (before ++ after))
      (importTree stop' (before ++ remark offset last :: after.map (Node.shift size))) := by
  have h_statement : Replaces offset size [] [remark offset last]
      (construct Kind.importStatement.name 0 stop (before ++ after))
      (construct Kind.importStatement.name 0 stop'
        (before ++ remark offset last :: after.map (Node.shift size))) :=
    ⟨⟨rfl, rfl, rfl⟩, rfl, before, after, rfl, rfl, h_before, h_after⟩
  have h_child := Inserts.among (by simp [construct, h_some]) ⟨rfl, rfl, rfl⟩ h_statement
  exact .under h_child ⟨⟨rfl, rfl, rfl⟩, rfl, [], [], rfl, rfl, by simp, by simp⟩

/-- The comment stands before the name. -/
theorem commented_bareImport : bareImport.Commented remarkedImport :=
  ⟨7, Utf8.encode "/**/", by decide +kernel, by decide +kernel,
    @inserts_importTree 7 4 11 16 20 [mark "import" 0]
      [nameClause 7, mark "from" 9, sourceLiteral 13] (by simp) (by decide) (by decide)⟩

/-- The second one stands before the literal. -/
theorem commented_remarkedImport : remarkedImport.Commented twiceRemarkedImport :=
  ⟨17, Utf8.encode "//\n", by decide +kernel, by decide +kernel,
    @inserts_importTree 17 3 19 20 23 [mark "import" 0, remark 7 11, nameClause 11, mark "from" 13]
      [sourceLiteral 17] (by simp) (by decide) (by decide)⟩

/-- With both comments the source is a module, and its literal names the module it did. -/
theorem decisions_eq_of_commented_import :
    Relation.ReflTransGen Reading.Commented bareImport twiceRemarkedImport ∧
    isExternalModule twiceRemarkedImport.source twiceRemarkedImport.tree = true ∧
    twiceRemarkedImport.literals.map (decisions twiceRemarkedImport.source)
      = [(Utf8.encode "'m'", false, true)] := by
  have h_steps : Relation.ReflTransGen Reading.Commented bareImport twiceRemarkedImport :=
    .tail (.single commented_bareImport) commented_remarkedImport
  obtain ⟨h_module, h_literals⟩ := decisions_eq_of_commented h_steps
  refine ⟨h_steps, h_module.trans ?_, h_literals.trans ?_⟩
  · decide +kernel
  · decide +kernel

end Import

end Reference

end DeclarationBundle
