import DeclarationBundle.Proofs.Syntax.Preorder
import DeclarationBundle.Proofs.Text.Encoding
import DeclarationBundle.Rewrite.Edit

/-!
# A rewrite is a splice

`Rewrite.splice` is a source with some spans replaced, said without a tree. A walk over a tree keeps
the source apart from the decisions: `Rewrite.edits` are the spans that it replaces.

* `Rewrite.walk_induction` is how everything about a walk is proved: at a node it goes one of three
  ways, and over some children it goes on from where it has got to.
* `Rewrite.bytes_transcribe`: what a rewrite writes is the source spliced with its edits.
* `Rewrite.edits_reach`: in a tree in order the walk gets no further than the nodes that it went
  over, unless an edit does.
* `Rewrite.edits_eq_filterMap`: in a tree in order, a replacer whose edits stay clear of each other
  has every node that it wants replaced, and nothing else.
* `Rewrite.exists_rewrite_eq_ok`: a rewrite that cuts no character gives text.

The walk that writes follows that over positions. What it keeps is `Transcript.finish`, what a
transcript will amount to once some spans ahead of it are replaced: no step changes it, since a copy
only moves octets from what is ahead to what is behind.
-/

namespace DeclarationBundle

open Syntax

/-- A stretch of a source, and what stands in its place. -/
structure Span where
  start : Nat
  stop : Nat
  text : String
  deriving DecidableEq, Repr

/-- All of some spans begin at an offset or after it. -/
def Span.AllFrom (offset : Nat) (spans : List Span) : Prop :=
  ∀ span ∈ spans, offset ≤ span.start

namespace Rewrite

/-- **The octets of a source from `offset` on**, with some spans replaced. -/
def splice (source : Bytes) : Nat → List Span → Bytes
  | offset, [] => source.drop offset
  | offset, span :: spans =>
    (source.drop offset).take (span.start - offset) ++ Utf8.encode span.text ++
      splice source span.stop spans

/-- The span of an edit. -/
def spanOf (node : Node) (edit : Edit) : Span :=
  ⟨node.start, max node.start (max node.stop edit.reach), edit.text⟩

mutual

/-- The spans that a walk over a node replaces, the source being dealt with up to `position`, and
how far it is dealt with then. -/
def edits (replacer : Replacer) : Node → List Frame → Nat → List Span × Nat
  | node@⟨_, start, _, _, _, children⟩, above, position =>
    if start < position then ([], position)
    else
      match replacer ⟨node, above⟩ with
      | some edit => ([spanOf node edit], (spanOf node edit).stop)
      | none => editsAmong replacer children node [] above start

/-- The same for some children of `parent`, those before them being `before`, nearest first. -/
def editsAmong (replacer : Replacer) :
    List Node → Node → List Node → List Frame → Nat → List Span × Nat
  | [], _, _, _, position => ([], position)
  | node :: nodes, parent, before, above, position =>
    let first := edits replacer node (⟨parent, before⟩ :: above) position
    let rest := editsAmong replacer nodes parent (node :: before) above first.2
    (first.1 ++ rest.1, rest.2)

end

end Rewrite

namespace Transcript

variable {source : Bytes} {t : Transcript}

/-- What a transcript amounts to in the end, if the spans ahead of it are replaced. -/
def finish (source : Bytes) (t : Transcript) (ahead : List Span) : Bytes :=
  t.bytes source ++ Rewrite.splice source t.position ahead

/-- A copy moves a transcript on, or leaves it where it is. -/
@[simp] theorem position_copyTo (t : Transcript) (offset : Nat) :
    (t.copyTo offset).position = max t.position offset := by
  unfold copyTo
  split
  · next h => exact (Nat.max_eq_right h.le).symm
  · next h => exact (Nat.max_eq_left (Nat.le_of_not_lt h)).symm

/-- Copying moves octets from ahead of a transcript into it. -/
theorem finish_copyTo {offset : Nat} {ahead : List Span}
    (h : Span.AllFrom (max t.position offset) ahead) :
    (t.copyTo offset).finish source ahead = t.finish source ahead := by
  unfold copyTo
  split
  · -- what is copied is cut off the text before the first span, or off the end of the source
    next h_ahead =>
    have h_max : max t.position offset = offset := Nat.max_eq_right (by omega)
    rw [h_max] at h
    have h_bytes : (⟨offset, t.pieces ++ [.copied t.position offset]⟩ : Transcript).bytes source
        = t.bytes source ++ (source.drop t.position).take (offset - t.position) := by
      simp [bytes, Piece.bytes]
    have h_drop : source.drop offset = (source.drop t.position).drop (offset - t.position) := by
      rw [List.drop_drop]
      congr 1
      omega
    unfold finish
    rw [h_bytes, List.append_assoc]
    congr 1
    cases ahead with
    | nil =>
      unfold Rewrite.splice
      rw [h_drop, List.take_append_drop]
    | cons span spans =>
      have h_span := h span (List.mem_cons_self ..)
      have h_take : (source.drop t.position).take (span.start - t.position)
          = (source.drop t.position).take (offset - t.position)
            ++ (source.drop offset).take (span.start - offset) := by
        rw [h_drop, ← List.take_add]
        congr 1
        omega
      simp only [Rewrite.splice]
      rw [h_take]
      simp only [List.append_assoc]
  · rfl

/-- Replacing takes the first of the spans ahead. -/
theorem finish_replace {text : String} {stop : Nat} {ahead : List Span} :
    (t.replace text stop).finish source ahead
      = t.finish source (⟨t.position, max t.position stop, text⟩ :: ahead) := by
  simp [finish, replace, bytes, Piece.bytes, Rewrite.splice]

end Transcript

namespace Rewrite

variable {replacer : Replacer} {node : Node} {above : List Frame} {position : Nat}

/-! ### One node at a time -/

/-- A node behind the position is passed over. -/
theorem edits_of_lt (h : node.start < position) :
    edits replacer node above position = ([], position) := by
  cases node
  rw [edits, if_pos h]

/-- A replaced node is one span, which the walk goes to the end of. -/
theorem edits_of_some {edit : Edit} (h : position ≤ node.start)
    (h_edit : replacer ⟨node, above⟩ = some edit) :
    edits replacer node above position = ([spanOf node edit], (spanOf node edit).stop) := by
  cases node
  rw [edits, if_neg (Nat.not_lt.2 h), h_edit]

/-- Below a node that is left as it is, the walk goes on from its beginning. -/
theorem edits_of_none (h : position ≤ node.start) (h_none : replacer ⟨node, above⟩ = none) :
    edits replacer node above position
      = editsAmong replacer node.children node [] above node.start := by
  cases node
  rw [edits, if_neg (Nat.not_lt.2 h), h_none]

/-- **Induction over a walk.** A node lies behind the position, or it is replaced, or it is left as
it is and the walk goes on with its children. Of some children, each is walked over from where the
walk over those before it has got to. -/
theorem walk_induction (replacer : Replacer) (motive : Node → List Frame → Nat → Prop)
    (among : List Node → Node → List Node → List Frame → Nat → Prop)
    (behind : ∀ node above position, node.start < position → motive node above position)
    (replaced : ∀ node above position edit, position ≤ node.start →
      replacer ⟨node, above⟩ = some edit → motive node above position)
    (kept : ∀ node above position, position ≤ node.start → replacer ⟨node, above⟩ = none →
      among node.children node [] above node.start → motive node above position)
    (nil : ∀ parent before above position, among [] parent before above position)
    (cons : ∀ node nodes parent before above position,
      motive node (⟨parent, before⟩ :: above) position →
      among nodes parent (node :: before) above
        (edits replacer node (⟨parent, before⟩ :: above) position).2 →
      among (node :: nodes) parent before above position) :
    (∀ node above position, motive node above position) ∧
      ∀ nodes parent before above position, among nodes parent before above position := by
  refine Node.induction _ _ ?node ?nil ?cons
  case node =>
    intro node ih above position
    rcases Nat.lt_or_ge node.start position with h_start | h_start
    · exact behind node above position h_start
    cases h_edit : replacer ⟨node, above⟩ with
    | some edit => exact replaced node above position edit h_start h_edit
    | none => exact kept node above position h_start h_edit (ih node [] above node.start)
  case nil => exact nil
  case cons =>
    intro node nodes ih ih_nodes parent before above position
    exact cons node nodes parent before above position (ih _ _) (ih_nodes _ _ _ _)

section Visit

variable {t : Transcript}

/-- The walk that writes has the same three cases. A node behind the transcript changes nothing. -/
theorem visit_of_lt (h : node.start < t.position) : visit replacer node above t = t := by
  cases node
  rw [visit, if_pos h]

/-- A replaced node is written after a copy up to it. -/
theorem visit_of_some {edit : Edit} (h : t.position ≤ node.start)
    (h_edit : replacer ⟨node, above⟩ = some edit) :
    visit replacer node above t
      = (t.copyTo node.start).replace edit.text (max node.stop edit.reach) := by
  cases node
  rw [visit, if_neg (Nat.not_lt.2 h)]
  simp only [h_edit]

/-- Any other leads to its children after such a copy. -/
theorem visit_of_none (h : t.position ≤ node.start) (h_none : replacer ⟨node, above⟩ = none) :
    visit replacer node above t
      = visitAll replacer node.children node [] above (t.copyTo node.start) := by
  cases node
  rw [visit, if_neg (Nat.not_lt.2 h)]
  simp only [h_none]

end Visit

/-! ### What the walk replaces -/

/-- The walk never goes back, and replaces nothing that it has passed: the two forms, for a node and
for a list of children. -/
private theorem edits_from_all :
    (∀ (node : Node) (above : List Frame) (position : Nat),
      position ≤ (edits replacer node above position).2 ∧
        Span.AllFrom position (edits replacer node above position).1) ∧
    ∀ (nodes : List Node) (parent : Node) (before : List Node) (above : List Frame)
        (position : Nat),
      position ≤ (editsAmong replacer nodes parent before above position).2 ∧
        Span.AllFrom position (editsAmong replacer nodes parent before above position).1 := by
  refine walk_induction replacer _ _ ?behind ?replaced ?kept ?nil ?cons
  case behind =>
    intro node above position h_start
    rw [edits_of_lt h_start]
    exact ⟨le_refl _, fun span h => by cases h⟩
  case replaced =>
    intro node above position edit h_start h_edit
    rw [edits_of_some h_start h_edit]
    refine ⟨h_start.trans (le_max_left ..), fun span h => ?_⟩
    rw [List.mem_singleton.1 h]
    exact h_start
  case kept =>
    intro node above position h_start h_none h_children
    rw [edits_of_none h_start h_none]
    exact ⟨h_start.trans h_children.1, fun span h => h_start.trans (h_children.2 span h)⟩
  case nil => exact fun _ _ _ position => ⟨le_refl _, fun span h => by cases h⟩
  case cons =>
    intro node nodes parent before above position h_first h_rest
    rw [editsAmong]
    refine ⟨h_first.1.trans h_rest.1, fun span h => ?_⟩
    rcases List.mem_append.1 h with h | h
    · exact h_first.2 span h
    · exact h_first.1.trans (h_rest.2 span h)

/-- A walk over a node never goes back, and replaces nothing behind where it began. -/
theorem edits_from (node : Node) (above : List Frame) (position : Nat) :
    position ≤ (edits replacer node above position).2 ∧
      Span.AllFrom position (edits replacer node above position).1 :=
  edits_from_all.1 node above position

/-- Nor does a walk over some children. -/
theorem editsAmong_from (nodes : List Node) (parent : Node) (before : List Node)
    (above : List Frame) (position : Nat) :
    position ≤ (editsAmong replacer nodes parent before above position).2 ∧
      Span.AllFrom position (editsAmong replacer nodes parent before above position).1 :=
  edits_from_all.2 nodes parent before above position

/-- The walk over the source follows the walk over positions, and takes its edits from what is
ahead. -/
private theorem finish_visit_all (source : Bytes) :
    (∀ (node : Node) (above : List Frame) (t : Transcript),
      (visit replacer node above t).position = (edits replacer node above t.position).2 ∧
        ∀ ahead, Span.AllFrom (edits replacer node above t.position).2 ahead →
          (visit replacer node above t).finish source ahead
            = t.finish source ((edits replacer node above t.position).1 ++ ahead)) ∧
    ∀ (nodes : List Node) (parent : Node) (before : List Node) (above : List Frame)
        (t : Transcript),
      (visitAll replacer nodes parent before above t).position
          = (editsAmong replacer nodes parent before above t.position).2 ∧
        ∀ ahead, Span.AllFrom (editsAmong replacer nodes parent before above t.position).2 ahead →
          (visitAll replacer nodes parent before above t).finish source ahead
            = t.finish source ((editsAmong replacer nodes parent before above t.position).1
                ++ ahead) := by
  refine Node.induction _ _ ?node ?nil ?cons
  case node =>
    intro node ih above t
    by_cases h_start : node.start < t.position
    · -- a node behind the transcript is passed over by both walks
      rw [visit_of_lt h_start, edits_of_lt h_start]
      exact ⟨rfl, fun _ _ => rfl⟩
    rw [Nat.not_lt] at h_start
    have h_copy : (t.copyTo node.start).position = node.start := by
      rw [Transcript.position_copyTo, Nat.max_eq_right h_start]
    cases h_edit : replacer ⟨node, above⟩ with
    | some edit =>
      rw [visit_of_some h_start h_edit, edits_of_some h_start h_edit]
      refine ⟨by rw [Transcript.replace, h_copy]; rfl, fun ahead h_ahead => ?_⟩
      -- the replacement is the first span ahead, and the copy up to it changes nothing
      rw [Transcript.finish_replace, h_copy]
      refine Transcript.finish_copyTo fun span h => ?_
      rw [Nat.max_eq_right h_start]
      rcases List.mem_cons.1 h with rfl | h
      · exact le_refl _
      · exact (le_max_left ..).trans (h_ahead span h)
    | none =>
      rw [visit_of_none h_start h_edit, edits_of_none h_start h_edit]
      have h_children := ih node [] above (t.copyTo node.start)
      rw [h_copy] at h_children
      refine ⟨h_children.1, fun ahead h_ahead => (h_children.2 ahead h_ahead).trans ?_⟩
      -- undo the copy: no edit of the children lies before the node
      refine Transcript.finish_copyTo fun span h => ?_
      rw [Nat.max_eq_right h_start]
      have h_from := @editsAmong_from replacer node.children node [] above node.start
      rcases List.mem_append.1 h with h | h
      · exact h_from.2 span h
      · exact h_from.1.trans (h_ahead span h)
  case nil => exact fun _ _ _ t => ⟨rfl, fun _ _ => rfl⟩
  case cons =>
    intro node nodes ih ih_nodes parent before above t
    have h_first := ih (⟨parent, before⟩ :: above) t
    have h_rest :=
      ih_nodes parent (node :: before) above (visit replacer node (⟨parent, before⟩ :: above) t)
    rw [h_first.1] at h_rest
    rw [visitAll, editsAmong]
    refine ⟨h_rest.1, fun ahead h_ahead => ?_⟩
    rw [h_rest.2 ahead h_ahead, h_first.2, List.append_assoc]
    -- for the first child, the edits of the others are ahead as well
    intro span h
    have h_from := @editsAmong_from replacer nodes parent (node :: before) above
      (edits replacer node (⟨parent, before⟩ :: above) t.position).2
    rcases List.mem_append.1 h with h | h
    · exact h_from.2 span h
    · exact h_from.1.trans (h_ahead span h)

/-- The transcript gets as far as the edits do. -/
theorem position_visit (node : Node) (above : List Frame) (t : Transcript) :
    (visit replacer node above t).position = (edits replacer node above t.position).2 :=
  ((finish_visit_all []).1 node above t).1

/-- **A rewrite is a splice.** What it writes is the source with its edits in the place of their
spans. -/
theorem bytes_transcribe (tree : Node) (source : Bytes) (replacer : Replacer) :
    (transcribe tree source replacer).bytes source =
      splice source 0 (edits replacer tree [] 0).1 := by
  -- at first nothing is written and all edits are ahead; at last all is written
  have h_visit := (@finish_visit_all replacer source).1 tree [] .empty
  have h_none : ∀ offset, Span.AllFrom offset [] := fun _ span h => by cases h
  have h_finish := h_visit.2 [] (h_none _)
  rw [← @Transcript.finish_copyTo source _ source.length [] (h_none _), List.append_nil] at h_finish
  -- nothing of the source is left ahead
  have h_left : source.drop (max (visit replacer tree [] .empty).position source.length) = [] :=
    List.drop_eq_nil_of_le (le_max_right ..)
  unfold Transcript.finish at h_finish
  rw [splice, Transcript.position_copyTo, h_left, List.append_nil] at h_finish
  exact h_finish

/-- Every edit is one that the replacer asked for. -/
private theorem exists_of_mem_edits_all :
    (∀ (node : Node) (above : List Frame) (position : Nat),
        ∀ span ∈ (edits replacer node above position).1,
      ∃ c ∈ nodesAt node above, ∃ edit, replacer c = some edit ∧ span = spanOf c.node edit) ∧
    ∀ (nodes : List Node) (parent : Node) (before : List Node) (above : List Frame)
        (position : Nat),
      ∀ span ∈ (editsAmong replacer nodes parent before above position).1,
        ∃ c ∈ nodesAmong nodes parent before above, ∃ edit, replacer c = some edit ∧
          span = spanOf c.node edit := by
  refine walk_induction replacer _ _ ?behind ?replaced ?kept ?nil ?cons
  case behind =>
    intro node above position h_start span h
    rw [edits_of_lt h_start] at h
    cases h
  case replaced =>
    intro node above position edit h_start h_edit span h
    -- the only span is that of the node itself
    rw [edits_of_some h_start h_edit] at h
    rw [nodesAt_eq]
    exact ⟨⟨node, above⟩, List.mem_cons_self .., edit, h_edit, List.mem_singleton.1 h⟩
  case kept =>
    intro node above position h_start h_none ih span h
    -- a span from below comes of a place below
    rw [edits_of_none h_start h_none] at h
    rw [nodesAt_eq]
    obtain ⟨c, hc, h_found⟩ := ih span h
    exact ⟨c, List.mem_cons_of_mem _ hc, h_found⟩
  case nil => exact fun _ _ _ _ span h => by cases h
  case cons =>
    intro node nodes parent before above position ih ih_nodes span h
    rw [editsAmong] at h
    rw [nodesAmong]
    rcases List.mem_append.1 h with h | h
    · obtain ⟨c, hc, h_found⟩ := ih span h
      exact ⟨c, List.mem_append_left _ hc, h_found⟩
    · obtain ⟨c, hc, h_found⟩ := ih_nodes span h
      exact ⟨c, List.mem_append_right _ hc, h_found⟩

/-- Whatever span is replaced, some place of the tree and an edit for it account for the span. -/
theorem exists_of_mem_edits {span : Span} (h : span ∈ (edits replacer node above position).1) :
    ∃ c ∈ nodesAt node above, ∃ edit, replacer c = some edit ∧ span = spanOf c.node edit :=
  exists_of_mem_edits_all.1 node above position span h

/-! ### Trees in order -/

/-- The two forms of `edits_reach`. Some children that stand between two offsets end before the
second, so that the bound of each is one for all of them. -/
private theorem edits_reach_all :
    (∀ (node : Node) (above : List Frame) (position : Nat),
        (∀ c ∈ nodesAt node above, c.node.IsOrdered) →
      (edits replacer node above position).2 ≤ max position node.stop ∨
        ∃ span ∈ (edits replacer node above position).1,
          (edits replacer node above position).2 ≤ span.stop) ∧
    ∀ (nodes : List Node) (parent : Node) (before : List Node) (above : List Frame)
        (position : Nat), ∀ start stop : Nat,
        (∀ c ∈ nodesAmong nodes parent before above, c.node.IsOrdered) →
        Node.StandBetween stop start nodes →
      (editsAmong replacer nodes parent before above position).2 ≤ max position stop ∨
        ∃ span ∈ (editsAmong replacer nodes parent before above position).1,
          (editsAmong replacer nodes parent before above position).2 ≤ span.stop := by
  refine walk_induction replacer _ _ ?behind ?replaced ?kept ?nil ?cons
  case behind =>
    intro node above position h_start _
    rw [edits_of_lt h_start]
    exact .inl (le_max_left ..)
  case replaced =>
    intro node above position edit h_start h_edit _
    rw [edits_of_some h_start h_edit]
    exact .inr ⟨_, List.mem_singleton_self _, le_refl _⟩
  case kept =>
    intro node above position h_start h_none ih h_ordered
    rw [nodesAt_eq] at h_ordered
    have h_node := h_ordered _ (List.mem_cons_self ..)
    rw [edits_of_none h_start h_none]
    -- the children stand between the beginning and the end of the node
    refine (ih node.start node.stop (fun c hc => h_ordered c (List.mem_cons_of_mem _ hc))
      h_node).imp_left fun h => ?_
    rw [Nat.max_eq_right h_node.start_le_stop] at h
    exact h.trans (le_max_right ..)
  case nil => exact fun _ _ _ _ _ _ _ _ => .inl (le_max_left ..)
  case cons =>
    intro node nodes parent before above position ih ih_nodes start stop h_ordered h_between
    rw [nodesAmong] at h_ordered
    have h_first := ih fun c hc => h_ordered c (List.mem_append_left _ hc)
    have h_rest := ih_nodes node.stop stop (fun c hc => h_ordered c (List.mem_append_right _ hc))
      h_between.2.2
    rw [editsAmong]
    -- how far the walk got: with the other children, or with an edit in the first
    rcases h_rest with h | ⟨span, h_span, h⟩
    · rcases h_first with h' | ⟨span, h_span, h'⟩
      · have h_stop := Node.StandBetween.le h_between.2.2
        exact .inl (by omega)
      · rcases Nat.le_total (edits replacer node (⟨parent, before⟩ :: above) position).2 stop with
          h_le | h_le
        · exact .inl (by omega)
        · rw [Nat.max_eq_left h_le] at h
          exact .inr ⟨span, List.mem_append_left _ h_span, h.trans h'⟩
    · exact .inr ⟨span, List.mem_append_right _ h_span, h⟩

/-- **How far a walk gets.** In a tree in order the walk over a node has dealt with the source up to
the end of the node at most, unless an edit reaches further. -/
theorem edits_reach (h : ∀ c ∈ nodesAt node above, c.node.IsOrdered) :
    (edits replacer node above position).2 ≤ max position node.stop ∨
      ∃ span ∈ (edits replacer node above position).1,
        (edits replacer node above position).2 ≤ span.stop :=
  edits_reach_all.1 node above position h

/-- The span that a replacer wants replaced at a place. -/
def wanted (replacer : Replacer) (c : Cursor) : Option Span :=
  (replacer c).map (spanOf c.node)

/-- Something is to be replaced at or below a place. -/
def Concerns (replacer : Replacer) (c : Cursor) : Prop :=
  ∃ d ∈ c.preorder, replacer d ≠ none

/-- **Edits that stay clear of each other**: none lies below another, and none reaches into a later
node that something is to be replaced in. -/
structure KeepsApart (replacer : Replacer) (places : List Cursor) : Prop where
  ordered : ∀ c ∈ places, c.node.IsOrdered
  apart : ∀ c ∈ places, replacer c ≠ none → ∀ d ∈ c.below, replacer d = none
  clear : places.Pairwise fun c d =>
    ∀ edit, replacer c = some edit → Concerns replacer d → (spanOf c.node edit).stop ≤ d.node.start

/-- To keep apart is asked of each place and of each two in order, so it holds of a part. -/
theorem KeepsApart.of_sublist {places part : List Cursor} (h : KeepsApart replacer places)
    (h_part : part.Sublist places) : KeepsApart replacer part where
  ordered c hc := h.ordered c (h_part.subset hc)
  apart c hc := h.apart c (h_part.subset hc)
  clear := h.clear.sublist h_part

/-- Where nothing is to be replaced, nothing is wanted. -/
theorem filterMap_wanted_eq_nil {places : List Cursor} (h : ∀ c ∈ places, replacer c = none) :
    places.filterMap (wanted replacer) = [] := by
  rw [List.filterMap_eq_nil_iff]
  intro c hc
  rw [wanted, h c hc]
  rfl

/-- The two forms of `edits_eq_filterMap`. What the next child must not be passed over for is how
far the walk has got with those before it (`edits_reach`). -/
private theorem edits_eq_filterMap_all :
    (∀ (node : Node) (above : List Frame) (position : Nat),
        KeepsApart replacer (nodesAt node above) →
      (Concerns replacer ⟨node, above⟩ → position ≤ node.start) →
      (edits replacer node above position).1
        = (nodesAt node above).filterMap (wanted replacer)) ∧
    ∀ (nodes : List Node) (parent : Node) (before : List Node) (above : List Frame)
        (position : Nat), ∀ start stop : Nat,
      KeepsApart replacer (nodesAmong nodes parent before above) →
      Node.StandBetween stop start nodes →
      (∀ c ∈ childrenFrom parent above before nodes, Concerns replacer c →
          position ≤ c.node.start) →
      (editsAmong replacer nodes parent before above position).1
        = (nodesAmong nodes parent before above).filterMap (wanted replacer) := by
  refine walk_induction replacer _ _ ?behind ?replaced ?kept ?nil ?cons
  case behind =>
    intro node above position h_start h_apart h_position
    -- a node that is passed over holds nothing to replace
    have h_none : ∀ c ∈ nodesAt node above, replacer c = none := by
      intro c hc
      by_contra h_some
      exact absurd (h_position ⟨c, hc, h_some⟩) (Nat.not_le.2 h_start)
    rw [edits_of_lt h_start, filterMap_wanted_eq_nil h_none]
  case replaced =>
    intro node above position edit h_start h_edit h_apart h_position
    rw [nodesAt_eq] at h_apart ⊢
    -- the walk does not go below a node that is replaced, and nothing below is wanted
    have h_below := h_apart.apart _ (List.mem_cons_self ..) (by simp [h_edit])
    rw [edits_of_some h_start h_edit, List.filterMap_cons_some (b := spanOf node edit)
      (by simp [wanted, h_edit])]
    rw [show nodesAmong node.children node [] above = Cursor.below ⟨node, above⟩ from rfl,
      filterMap_wanted_eq_nil h_below]
  case kept =>
    intro node above position h_start h_none ih h_apart h_position
    rw [nodesAt_eq] at h_apart ⊢
    have h_ordered : node.IsOrdered := h_apart.ordered _ (List.mem_cons_self ..)
    rw [edits_of_none h_start h_none, List.filterMap_cons_none (by simp [wanted, h_none])]
    -- no child begins before the node, which is where the walk is
    exact ih node.start node.stop (h_apart.of_sublist (List.sublist_cons_self ..)) h_ordered
      fun c hc _ => Node.StandBetween.start_le h_ordered (mem_childrenFrom_node hc)
  case nil => exact fun _ _ _ _ _ _ _ _ _ => rfl
  case cons =>
    intro node nodes parent before above position ih ih_nodes start stop h_apart h_between
      h_position
    rw [nodesAmong] at h_apart
    have h_first := h_apart.of_sublist (List.sublist_append_left ..)
    -- what was replaced in the node stays clear of the nodes after it
    have h_next : ∀ c ∈ childrenFrom parent above (node :: before) nodes, Concerns replacer c →
        (edits replacer node (⟨parent, before⟩ :: above) position).2 ≤ c.node.start := by
      intro c hc h_concerns
      rcases @edits_reach replacer node _ position h_first.ordered with h | ⟨span, h_span, h⟩
      · -- the walk got no further than the node, and the next ones begin after that
        have h_stop := Node.StandBetween.start_le h_between.2.2 (mem_childrenFrom_node hc)
        have h_before := h_position c (List.mem_cons_of_mem _ hc) h_concerns
        omega
      · -- an edit reached further, but it stays clear of whatever concerns the replacer
        obtain ⟨d, hd, edit, h_edit, rfl⟩ := exists_of_mem_edits h_span
        have h_clear := (List.pairwise_append.1 h_apart.clear).2.2 d hd c
          (mem_nodesAmong_of_mem_childrenFrom hc) edit h_edit h_concerns
        exact h.trans h_clear
    rw [editsAmong, nodesAmong, List.filterMap_append,
      ih h_first (h_position _ (List.mem_cons_self ..)),
      ih_nodes node.stop stop (h_apart.of_sublist (List.sublist_append_right ..)) h_between.2.2
        h_next]

/-- **Every node that is wanted is replaced, and nothing else**, if the edits stay clear of each
other. -/
theorem edits_eq_filterMap {tree : Node} (h : KeepsApart replacer (Cursor.root tree).preorder) :
    (edits replacer tree [] 0).1 = (Cursor.root tree).preorder.filterMap (wanted replacer) :=
  edits_eq_filterMap_all.1 tree [] 0 h fun _ => Nat.zero_le _

/-! ### Rewrites that give text -/

/-- A splice at boundaries is text. -/
theorem exists_encode_splice {s : String} {spans : List Span} {offset : Nat}
    (h_offset : Utf8.IsBoundary s offset)
    (h : ∀ span ∈ spans, Utf8.IsBoundary s span.start ∧ Utf8.IsBoundary s span.stop) :
    ∃ out, splice (Utf8.encode s) offset spans = Utf8.encode out := by
  induction spans generalizing offset with
  | nil =>
    obtain ⟨before, after, -, -, h_drop⟩ := Utf8.exists_encode_drop h_offset
    exact ⟨after, h_drop⟩
  | cons span spans ih =>
    -- the rest is spliced from the end of the span, which is a boundary as well
    obtain ⟨h_start, h_stop⟩ := h span (List.mem_cons_self ..)
    obtain ⟨rest, h_rest⟩ := ih h_stop fun span' h' => h span' (List.mem_cons_of_mem _ h')
    have h_copied : ∃ mid, ((Utf8.encode s).drop offset).take (span.start - offset)
        = Utf8.encode mid := by
      -- spans that overlap copy nothing between them
      rcases Nat.le_total offset span.start with h_le | h_le
      · exact Utf8.exists_encode_slice h_offset h_start h_le
      · exact ⟨"", by rw [Nat.sub_eq_zero_of_le h_le]; simp⟩
    obtain ⟨mid, h_mid⟩ := h_copied
    refine ⟨mid ++ span.text ++ rest, ?_⟩
    rw [splice, h_mid, h_rest, Utf8.encode_append, Utf8.encode_append]

/-- **A rewrite that cuts no character gives text.** -/
theorem exists_rewrite_eq_ok {s : String} {tree : Node}
    (h : ∀ c ∈ (Cursor.root tree).preorder, ∀ edit, replacer c = some edit →
      Utf8.IsBoundary s (spanOf c.node edit).start ∧ Utf8.IsBoundary s (spanOf c.node edit).stop) :
    ∃ out, rewrite tree (Utf8.encode s) replacer = .ok out ∧
      Utf8.encode out = splice (Utf8.encode s) 0 (edits replacer tree [] 0).1 := by
  -- no span is made up: each lies where the replacer asked for it
  have h_spans : ∀ span ∈ (edits replacer tree [] 0).1,
      Utf8.IsBoundary s span.start ∧ Utf8.IsBoundary s span.stop := by
    intro span h_span
    obtain ⟨c, hc, edit, h_edit, rfl⟩ := exists_of_mem_edits h_span
    exact h c hc edit h_edit
  obtain ⟨out, h_out⟩ := exists_encode_splice (Utf8.isBoundary_zero s) h_spans
  refine ⟨out, ?_, h_out.symm⟩
  unfold rewrite Transcript.text
  rw [bytes_transcribe, h_out, Utf8.decode_encode]

end Rewrite

end DeclarationBundle
