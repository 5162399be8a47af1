import DeclarationBundle.Proofs.Rewrite.Splice

/-!
# What a rewrite offers, and what it keeps

`Rewrite.offers` lists the places that a walk asks a replacer about. A replacer with a memory tells
that it is this list and this order: `Rewrite.visitWith` does the same walk for it as for any other,
and what it remembers in the end are these places, one after the other. So a replacer that fails on
some nodes fails on the first of them that is offered, or not at all (`Rewrite.attempt_eq`).

* `Rewrite.IsPassedOver` are the places that a walk must leave out: those below a node that was
  replaced, and those that an earlier edit has reached into or past.
* `Rewrite.exists_splice_offers`: a rewrite is the source with one span replaced for each place that
  is offered and wanted, whatever the tree looks like. In a tree in order all is offered but what is
  passed over.
* `Rewrite.uncovered` are the octets that no span covers, found by looking at each octet by itself;
  a splice keeps these and no others (`Rewrite.splice_blank`).

Each statement about the walk has a form for a node and one for some children, proved together. That
no place is listed twice is what lets a place be found in one part of the walk only.
-/

namespace DeclarationBundle

open Syntax

/-- The span that leaves nothing in its place. -/
def Span.blank (span : Span) : Span :=
  { span with text := "" }

/-- An offset lies in a span. -/
def Span.covers (span : Span) (offset : Nat) : Bool :=
  decide (span.start ≤ offset) && decide (offset < span.stop)

namespace Rewrite

variable {replacer : Replacer} {node : Node} {above : List Frame} {position : Nat}

mutual

/-- The places that a walk offers to a replacer, in order, the source being dealt with up to
`position`. -/
def offers (replacer : Replacer) : Node → List Frame → Nat → List Cursor
  | node@⟨_, start, _, _, _, children⟩, above, position =>
    if start < position then []
    else
      ⟨node, above⟩ ::
        match replacer ⟨node, above⟩ with
        | some _ => []
        | none => offersAmong replacer children node [] above start

/-- The same for some children of `parent`, those before them being `before`, nearest first. -/
def offersAmong (replacer : Replacer) :
    List Node → Node → List Node → List Frame → Nat → List Cursor
  | [], _, _, _, _ => []
  | node :: nodes, parent, before, above, position =>
    offers replacer node (⟨parent, before⟩ :: above) position ++
      offersAmong replacer nodes parent (node :: before) above
        (edits replacer node (⟨parent, before⟩ :: above) position).2

end

/-! ### Replacers that remember -/

section Memory

variable {σ : Type}

/-- A node behind the position is passed over, with all below it, and the replacer is not asked
about any of them. -/
theorem offers_of_lt (h : node.start < position) : offers replacer node above position = [] := by
  cases node
  rw [offers, if_pos h]

/-- A node that is replaced is the last place offered in its branch. -/
theorem offers_of_some {edit : Edit} (h : position ≤ node.start)
    (h_edit : replacer ⟨node, above⟩ = some edit) :
    offers replacer node above position = [⟨node, above⟩] := by
  cases node
  rw [offers, if_neg (Nat.not_lt.2 h), h_edit]

/-- A node that is left as it is has been offered, and its children are walked over from its
beginning. -/
theorem offers_of_none (h : position ≤ node.start) (h_none : replacer ⟨node, above⟩ = none) :
    offers replacer node above position
      = ⟨node, above⟩ :: offersAmong replacer node.children node [] above node.start := by
  cases node
  rw [offers, if_neg (Nat.not_lt.2 h), h_none]

/-- The two forms of `visitWith_remembering`. -/
private theorem visitWith_remembering_all (remember : σ → Cursor → σ) :
    (∀ (node : Node) (above : List Frame) (t : Transcript) (memory : σ),
      visitWith (remembering replacer remember) node above (t, memory)
        = (visit replacer node above t,
            (offers replacer node above t.position).foldl remember memory)) ∧
    ∀ (nodes : List Node) (parent : Node) (before : List Node) (above : List Frame)
        (t : Transcript) (memory : σ),
      visitAllWith (remembering replacer remember) nodes parent before above (t, memory)
        = (visitAll replacer nodes parent before above t,
            (offersAmong replacer nodes parent before above t.position).foldl remember memory) := by
  refine Node.induction _ _ ?node ?nil ?cons
  case node =>
    intro node ih above t memory
    by_cases h_start : node.start < t.position
    · -- behind the position nothing is offered, and the memory stays as it is
      rw [visit_of_lt h_start, offers_of_lt h_start]
      cases node
      rw [visitWith, if_pos h_start]
      rfl
    rw [Nat.not_lt] at h_start
    -- up to the node the source is copied, so the children are walked over from its beginning
    have h_copy : (t.copyTo node.start).position = node.start := by
      rw [Transcript.position_copyTo, Nat.max_eq_right h_start]
    cases h_edit : replacer ⟨node, above⟩ with
    | some edit =>
      rw [visit_of_some h_start h_edit, offers_of_some h_start h_edit]
      cases node
      rw [visitWith, if_neg (Nat.not_lt.2 h_start), remembering, h_edit]
      rfl
    | none =>
      rw [visit_of_none h_start h_edit, offers_of_none h_start h_edit]
      -- the node is remembered first, and its children after it
      have h_children := ih node [] above (t.copyTo node.start) (remember memory ⟨node, above⟩)
      rw [h_copy] at h_children
      rw [List.foldl_cons, ← h_children]
      cases node
      rw [visitWith, if_neg (Nat.not_lt.2 h_start), remembering, h_edit]
  case nil => exact fun _ _ _ _ _ => rfl
  case cons =>
    intro node nodes ih ih_nodes parent before above t memory
    -- how far the first child gets is the same in both walks (`position_visit`)
    rw [visitAllWith, ih, ih_nodes, visitAll, offersAmong, List.foldl_append, position_visit]

end Memory

/-! ### What is offered -/

/-- Each place that is offered and wanted gives one edit. -/
private theorem edits_eq_offers_all :
    (∀ (node : Node) (above : List Frame) (position : Nat),
      (edits replacer node above position).1
        = (offers replacer node above position).filterMap (wanted replacer)) ∧
    ∀ (nodes : List Node) (parent : Node) (before : List Node) (above : List Frame)
        (position : Nat),
      (editsAmong replacer nodes parent before above position).1
        = (offersAmong replacer nodes parent before above position).filterMap
            (wanted replacer) := by
  refine walk_induction replacer _ _ ?behind ?replaced ?kept ?nil ?cons
  case behind =>
    intro node above position h_start
    rw [edits_of_lt h_start, offers_of_lt h_start]
    rfl
  case replaced =>
    intro node above position edit h_start h_edit
    rw [edits_of_some h_start h_edit, offers_of_some h_start h_edit,
      List.filterMap_cons_some (b := spanOf node edit) (by simp [wanted, h_edit])]
    rfl
  case kept =>
    intro node above position h_start h_none ih
    -- a node that is offered but not wanted gives no edit of its own
    rw [edits_of_none h_start h_none, offers_of_none h_start h_none,
      List.filterMap_cons_none (by simp [wanted, h_none])]
    exact ih
  case nil => exact fun _ _ _ _ => rfl
  case cons =>
    intro node nodes parent before above position ih ih_nodes
    rw [editsAmong, offersAmong, List.filterMap_append, ih, ih_nodes]

/-- The places offered are places of the tree, in document order. -/
private theorem offers_sublist_all :
    (∀ (node : Node) (above : List Frame) (position : Nat),
      (offers replacer node above position).Sublist (nodesAt node above)) ∧
    ∀ (nodes : List Node) (parent : Node) (before : List Node) (above : List Frame)
        (position : Nat),
      (offersAmong replacer nodes parent before above position).Sublist
        (nodesAmong nodes parent before above) := by
  refine walk_induction replacer _ _ ?behind ?replaced ?kept ?nil ?cons
  case behind =>
    intro node above position h_start
    rw [offers_of_lt h_start]
    exact List.nil_sublist _
  case replaced =>
    intro node above position edit h_start h_edit
    -- a replaced node stands first in the walk, and what is below it is left out
    rw [nodesAt_eq, offers_of_some h_start h_edit]
    exact (List.nil_sublist _).cons_cons _
  case kept =>
    intro node above position h_start h_none ih
    rw [nodesAt_eq, offers_of_none h_start h_none]
    exact ih.cons_cons _
  case nil => exact fun _ _ _ _ => List.Sublist.refl _
  case cons =>
    intro node nodes parent before above position ih ih_nodes
    rw [offersAmong, nodesAmong]
    exact ih.append ih_nodes

/-- What a replacer is asked about are places of the tree. So whatever is known of all places, such
as that none cuts a character, is known of those. -/
theorem offers_subset_preorder (replacer : Replacer) (tree : Node) :
    ∀ c ∈ offers replacer tree [] 0, c ∈ (Cursor.root tree).preorder :=
  fun _ hc => (offers_sublist_all.1 tree [] 0).subset hc

/-- A memory that keeps the first of some things ends up with the first of all. -/
theorem foldl_or_eq {α β : Type} (f : α → Option β) (xs : List α) (first : Option β) :
    xs.foldl (fun first x => first.or (f x)) first = first.or (xs.findSome? f) := by
  induction xs generalizing first with
  | nil => exact (Option.or_none ..).symm
  | cons x xs ih =>
    rw [List.foldl_cons, ih, List.findSome?_cons, Option.or_assoc]
    cases f x <;> rfl

/-- **A rewrite by a replacer that may fail**: the first place that is offered and that the replacer
fails on is to blame. If there is none, the rewrite is that of a replacer that cannot fail. -/
theorem attempt_eq (tree : Node) (source : Bytes) (replacer : Replacer)
    (failure? : Cursor → Option Utf8.DecodeError) :
    attempt tree source replacer failure? =
      match (offers replacer tree [] 0).findSome? failure? with
      | some error => .error error
      | none => rewrite tree source replacer := by
  -- the walk that remembers the first failure writes what the other does
  have h_walk : visitWith (remembering replacer fun first c => first.or (failure? c)) tree []
      (.empty, none)
        = (visit replacer tree [] .empty, (offers replacer tree [] 0).findSome? failure?) := by
    refine (visitWith_remembering_all _ |>.1 tree [] .empty none).trans ?_
    rw [foldl_or_eq, Option.none_or]
    rfl
  unfold attempt
  simp only [h_walk]
  cases (offers replacer tree [] 0).findSome? failure? <;> rfl

/-- Nothing is offered that begins before the end of an earlier edit. -/
private theorem offers_clear_all :
    (∀ (node : Node) (above : List Frame) (position : Nat),
      (∀ c ∈ offers replacer node above position, position ≤ c.node.start ∧
        ∀ edit, replacer c = some edit →
          (spanOf c.node edit).stop ≤ (edits replacer node above position).2) ∧
      (offers replacer node above position).Pairwise fun c d =>
        ∀ edit, replacer c = some edit → (spanOf c.node edit).stop ≤ d.node.start) ∧
    ∀ (nodes : List Node) (parent : Node) (before : List Node) (above : List Frame)
        (position : Nat),
      (∀ c ∈ offersAmong replacer nodes parent before above position, position ≤ c.node.start ∧
        ∀ edit, replacer c = some edit →
          (spanOf c.node edit).stop ≤ (editsAmong replacer nodes parent before above position).2) ∧
      (offersAmong replacer nodes parent before above position).Pairwise fun c d =>
        ∀ edit, replacer c = some edit → (spanOf c.node edit).stop ≤ d.node.start := by
  refine walk_induction replacer _ _ ?behind ?replaced ?kept ?nil ?cons
  case behind =>
    intro node above position h_start
    rw [offers_of_lt h_start]
    exact ⟨fun c hc => absurd hc List.not_mem_nil, .nil⟩
  case replaced =>
    intro node above position edit h_start h_edit
    rw [offers_of_some h_start h_edit, edits_of_some h_start h_edit]
    refine ⟨fun c hc => ?_, List.pairwise_singleton ..⟩
    rw [List.mem_singleton.1 hc]
    -- its own edit is the only one, and the walk stands at the end of it
    refine ⟨h_start, fun edit' h_edit' => ?_⟩
    rw [Option.some.inj (h_edit'.symm.trans h_edit)]
  case kept =>
    intro node above position h_start h_none ih
    -- the node itself is not replaced, so that no condition comes from it
    obtain ⟨h_children, h_clear⟩ := ih
    rw [offers_of_none h_start h_none, edits_of_none h_start h_none]
    refine ⟨fun c hc => ?_, List.pairwise_cons.2 ⟨fun d _ edit h_some => ?_, h_clear⟩⟩
    · rcases List.mem_cons.1 hc with rfl | hc
      · exact ⟨h_start, fun edit h_some => absurd (h_none.symm.trans h_some) (by simp)⟩
      · exact ⟨h_start.trans (h_children c hc).1, (h_children c hc).2⟩
    · exact absurd (h_none.symm.trans h_some) (by simp)
  case nil => exact fun _ _ _ _ => ⟨fun c hc => absurd hc List.not_mem_nil, .nil⟩
  case cons =>
    intro node nodes parent before above position ih ih_nodes
    obtain ⟨h_first, h_first_clear⟩ := ih
    obtain ⟨h_rest, h_rest_clear⟩ := ih_nodes
    have h_position := (@edits_from replacer node (⟨parent, before⟩ :: above) position).1
    have h_stop := (@editsAmong_from replacer nodes parent (node :: before) above
      (edits replacer node (⟨parent, before⟩ :: above) position).2).1
    rw [offersAmong, editsAmong]
    refine ⟨fun c hc => ?_, List.pairwise_append.2 ⟨h_first_clear, h_rest_clear, ?_⟩⟩
    · rcases List.mem_append.1 hc with hc | hc
      · exact ⟨(h_first c hc).1, fun edit h_edit => ((h_first c hc).2 edit h_edit).trans h_stop⟩
      · exact ⟨h_position.trans (h_rest c hc).1, (h_rest c hc).2⟩
    · -- the walk has come to the end of every edit before it goes on with the other children
      exact fun c hc d hd edit h_edit => ((h_first c hc).2 edit h_edit).trans (h_rest d hd).1

/-- What is offered lies below nodes that were offered and not replaced. -/
private theorem offers_upward_all :
    (∀ (node : Node) (above : List Frame) (position : Nat),
      ∀ d ∈ nodesAt node above, ∀ c ∈ d.preorder, c ∈ offers replacer node above position →
        d ∈ offers replacer node above position ∧ (c ∈ d.below → replacer d = none)) ∧
    ∀ (nodes : List Node) (parent : Node) (before : List Node) (above : List Frame)
        (position : Nat),
      ∀ d ∈ nodesAmong nodes parent before above, ∀ c ∈ d.preorder,
        c ∈ offersAmong replacer nodes parent before above position →
        d ∈ offersAmong replacer nodes parent before above position ∧
          (c ∈ d.below → replacer d = none) := by
  refine walk_induction replacer _ _ ?behind ?replaced ?kept ?nil ?cons
  case behind =>
    intro node above position h_start d hd c hc h_offered
    rw [offers_of_lt h_start] at h_offered
    cases h_offered
  case replaced =>
    intro node above position edit h_start h_edit d hd c hc h_offered
    rw [offers_of_some h_start h_edit, List.mem_singleton] at h_offered
    subst h_offered
    rw [nodesAt_eq] at hd
    rcases List.mem_cons.1 hd with rfl | hd
    · rw [offers_of_some h_start h_edit]
      exact ⟨List.mem_singleton_self _, fun h_below =>
        absurd h_below (Cursor.notMem_below (Cursor.mem_preorder_self _))⟩
    · exact absurd hd (Cursor.notMem_below hc)
  case kept =>
    intro node above position h_start h_none ih d hd c hc h_offered
    rw [offers_of_none h_start h_none] at h_offered ⊢
    rw [nodesAt_eq] at hd
    rcases List.mem_cons.1 hd with rfl | hd
    · exact ⟨List.mem_cons_self .., fun _ => h_none⟩
    · -- the node itself is at or below no place below it
      have h_child := (List.mem_cons.1 h_offered).resolve_left fun h_self =>
        Cursor.notMem_below (h_self ▸ hc) hd
      obtain ⟨h_mem, h_replaced⟩ := ih d hd c hc h_child
      exact ⟨List.mem_cons_of_mem _ h_mem, h_replaced⟩
  case nil => exact fun _ _ _ _ d hd => absurd hd List.not_mem_nil
  case cons =>
    intro node nodes parent before above position ih ih_nodes d hd c hc h_offered
    have h_nodup := nodup_nodesAmong (node :: nodes) parent before above
    rw [nodesAmong] at hd h_nodup
    rw [offersAmong, List.mem_append] at h_offered ⊢
    have h_apart := List.disjoint_of_nodup_append h_nodup
    rcases List.mem_append.1 hd with hd | hd
    · -- a place below the first child is offered with the first child or not at all
      have h_first := h_offered.resolve_right fun h => h_apart
        (Cursor.preorder_subset (c := ⟨node, ⟨parent, before⟩ :: above⟩) hd hc)
        (offers_sublist_all.2 nodes parent (node :: before) above _ |>.subset h)
      obtain ⟨h_mem, h_none⟩ := ih d hd c hc h_first
      exact ⟨.inl h_mem, h_none⟩
    · have h_rest := h_offered.resolve_left fun h => h_apart
        (offers_sublist_all.1 node (⟨parent, before⟩ :: above) _ |>.subset h)
        (preorder_subset_nodesAmong hd hc)
      obtain ⟨h_mem, h_none⟩ := ih_nodes d hd c hc h_rest
      exact ⟨.inr h_mem, h_none⟩

/-- **A place that is passed over**, `offered` being what is offered among some places: it lies
below a node that is replaced, or at or below a node that begins before the end of an earlier
edit. -/
inductive IsPassedOver (replacer : Replacer) (places offered : List Cursor) (c : Cursor) :
    Prop where
  | below {m : Cursor} (h_offered : m ∈ offered) (h_replaced : replacer m ≠ none)
      (h_below : c ∈ m.below)
  | reached {m d : Cursor} {edit : Edit} (h_offered : m ∈ offered)
      (h_edit : replacer m = some edit) (h_earlier : [m, d].Sublist places)
      (h_start : d.node.start < (spanOf m.node edit).stop) (h_at : c ∈ d.preorder)

/-- A place that is passed over among some places is so among more of them. -/
theorem IsPassedOver.mono {places places' offered offered' : List Cursor} {c : Cursor}
    (h : IsPassedOver replacer places offered c) (h_places : places.Sublist places')
    (h_offered : offered ⊆ offered') : IsPassedOver replacer places' offered' c := by
  cases h with
  | below h_mem h_replaced h_below => exact .below (h_offered h_mem) h_replaced h_below
  | reached h_mem h_edit h_earlier h_start h_at =>
    exact .reached (h_offered h_mem) h_edit (h_earlier.trans h_places) h_start h_at

/-- Every edit is one that the replacer asked for at a place that it was offered. -/
theorem exists_offered_of_mem_edits {span : Span}
    (h : span ∈ (edits replacer node above position).1) :
    ∃ m ∈ offers replacer node above position, ∃ edit, replacer m = some edit ∧
      span = spanOf m.node edit := by
  rw [edits_eq_offers_all.1, List.mem_filterMap] at h
  obtain ⟨m, hm, h_wanted⟩ := h
  obtain ⟨edit, h_edit, rfl⟩ := Option.map_eq_some_iff.1 h_wanted
  exact ⟨m, hm, edit, h_edit, rfl⟩

/-- In a tree in order, what is not offered is passed over. The walk over some children can also
come to a child that begins before the offset it has dealt with the source up to; how far that is
decides whether an edit is to blame. -/
private theorem offers_complete_all :
    (∀ (node : Node) (above : List Frame) (position : Nat),
        (∀ c ∈ nodesAt node above, c.node.IsOrdered) → position ≤ node.start →
      ∀ c ∈ nodesAt node above, c ∈ offers replacer node above position ∨
        IsPassedOver replacer (nodesAt node above) (offers replacer node above position) c) ∧
    ∀ (nodes : List Node) (parent : Node) (before : List Node) (above : List Frame)
        (position : Nat), ∀ start stop : Nat,
        (∀ c ∈ nodesAmong nodes parent before above, c.node.IsOrdered) →
        Node.StandBetween stop start nodes →
      ∀ c ∈ nodesAmong nodes parent before above,
        c ∈ offersAmong replacer nodes parent before above position ∨
          IsPassedOver replacer (nodesAmong nodes parent before above)
            (offersAmong replacer nodes parent before above position) c ∨
          ∃ d ∈ childrenFrom parent above before nodes, d.node.start < position ∧
            c ∈ d.preorder := by
  refine walk_induction replacer _ _ ?behind ?replaced ?kept ?nil ?cons
  case behind => exact fun _ _ _ h_start _ h => absurd h_start (Nat.not_lt.2 h)
  case replaced =>
    intro node above position edit h_start h_edit _ _ c hc
    rw [nodesAt_eq] at hc ⊢
    rw [offers_of_some h_start h_edit]
    -- what lies below a replaced node is passed over on its account
    rcases List.mem_cons.1 hc with rfl | hc
    · exact .inl (List.mem_singleton_self _)
    · exact .inr (.below (List.mem_singleton_self _) (by simp [h_edit]) hc)
  case kept =>
    intro node above position h_start h_none ih h_ordered _ c hc
    rw [nodesAt_eq] at h_ordered hc ⊢
    rw [offers_of_none h_start h_none]
    have h_node := h_ordered _ (List.mem_cons_self ..)
    rcases List.mem_cons.1 hc with rfl | hc
    · exact .inl (List.mem_cons_self ..)
    rcases ih node.start node.stop (fun c hc => h_ordered c (List.mem_cons_of_mem _ hc)) h_node
      c hc with h | h | ⟨d, hd, h_behind, -⟩
    · exact .inl (List.mem_cons_of_mem _ h)
    · exact .inr (h.mono (List.sublist_cons_self ..) (List.subset_cons_self ..))
    · -- no child begins before its parent
      exact absurd h_behind
        (Nat.not_lt.2 (Node.StandBetween.start_le h_node (mem_childrenFrom_node hd)))
  case nil => exact fun _ _ _ _ _ _ _ _ c hc => absurd hc List.not_mem_nil
  case cons =>
    intro node nodes parent before above position ih ih_nodes start stop h_ordered h_between c hc
    rw [nodesAmong] at h_ordered hc ⊢
    have h_first : ∀ c ∈ nodesAt node (⟨parent, before⟩ :: above), c.node.IsOrdered :=
      fun c hc => h_ordered c (List.mem_append_left _ hc)
    rw [offersAmong, childrenFrom]
    rcases List.mem_append.1 hc with hc | hc
    · by_cases h_start : position ≤ node.start
      · exact (ih h_first h_start c hc).imp (List.mem_append_left _) fun h =>
          .inl (h.mono (List.sublist_append_left ..) (List.subset_append_left ..))
      · exact .inr (.inr ⟨_, List.mem_cons_self .., Nat.not_le.1 h_start, hc⟩)
    rcases ih_nodes node.stop stop (fun c hc => h_ordered c (List.mem_append_right _ hc))
      h_between.2.2 c hc with h | h | ⟨d, hd, h_behind, h_at⟩
    · exact .inl (List.mem_append_right _ h)
    · exact .inr (.inl (h.mono (List.sublist_append_right ..) (List.subset_append_right ..)))
    -- a later child is passed over because of an edit in the first, or as it was before
    have h_after := Node.StandBetween.start_le h_between.2.2 (mem_childrenFrom_node hd)
    rcases @edits_reach replacer node _ position h_first with h | ⟨span, h_span, h⟩
    · exact .inr (.inr ⟨d, List.mem_cons_of_mem _ hd, by omega, h_at⟩)
    · obtain ⟨m, hm, edit, h_edit, rfl⟩ := exists_offered_of_mem_edits h_span
      have h_earlier : [m, d].Sublist (nodesAt node (⟨parent, before⟩ :: above) ++
          nodesAmong nodes parent (node :: before) above) :=
        (List.singleton_sublist.2 (offers_sublist_all.1 _ _ _ |>.subset hm)).append
          (List.singleton_sublist.2 (mem_nodesAmong_of_mem_childrenFrom hd))
      exact .inr (.inl (.reached (List.mem_append_left _ hm) h_edit h_earlier (by omega) h_at))

/-- Two members of a part of a list without repetitions stand there in the order of the list. -/
theorem pair_sublist_of_mem {α : Type} {part all : List α} (h : part.Sublist all)
    (h_nodup : all.Nodup) {a b : α} (ha : a ∈ part) (hb : b ∈ part) (h_pair : [a, b].Sublist all) :
    [a, b].Sublist part := by
  induction h with
  | slnil => cases ha
  | cons x h ih =>
    obtain ⟨h_x, h_nodup⟩ := List.nodup_cons.1 h_nodup
    cases h_pair with
    -- the first of the list is not among the members, so neither are the two found there
    | cons _ h_pair => exact ih h_nodup ha hb h_pair
    | cons_cons _ _ => exact absurd (h.subset ha) h_x
  | cons_cons x h ih =>
    obtain ⟨h_x, h_nodup⟩ := List.nodup_cons.1 h_nodup
    cases h_pair with
    | cons _ h_pair =>
      -- both come after the first, which is none of them for want of repetitions
      have h_ne : ∀ y ∈ [a, b], y ≠ x := by
        rintro y hy rfl
        exact h_x (h_pair.subset hy)
      exact (ih h_nodup ((List.mem_cons.1 ha).resolve_left (h_ne a (by simp)))
        ((List.mem_cons.1 hb).resolve_left (h_ne b (by simp))) h_pair).cons _
    | cons_cons _ h_b =>
      -- the first of the pair is the first of the list, and the second comes later in both
      have h_ne : b ≠ a := by
        rintro rfl
        exact h_x (h_b.subset (by simp))
      exact (List.singleton_sublist.2 ((List.mem_cons.1 hb).resolve_left h_ne)).cons_cons a

variable {tree : Node} {c : Cursor}

/-- **What is passed over is not offered.** -/
theorem IsPassedOver.notMem_offers
    (h : IsPassedOver replacer (Cursor.root tree).preorder (offers replacer tree [] 0) c) :
    c ∉ offers replacer tree [] 0 := by
  intro hc
  have h_sublist := (@offers_sublist_all replacer).1 tree [] 0
  cases h with
  | @below m h_offered h_replaced h_below =>
    -- were the place offered, nothing above it could be replaced
    have h_upward := offers_upward_all.1 tree [] 0 m (h_sublist.subset h_offered) c
      (Cursor.mem_preorder_of_mem_below h_below) hc
    exact h_replaced (h_upward.2 h_below)
  | @reached m d edit h_offered h_edit h_earlier h_start h_at =>
    -- were it offered, so would be the node that the edit reaches into, against `offers_clear_all`
    have h_d : d ∈ (Cursor.root tree).preorder := h_earlier.subset (by simp)
    have h_d_offered := (offers_upward_all.1 tree [] 0 d h_d c h_at hc).1
    have h_pair := pair_sublist_of_mem h_sublist (nodup_nodesAt tree []) h_offered h_d_offered
      h_earlier
    have h_clear := List.pairwise_iff_forall_sublist.1 (offers_clear_all.1 tree [] 0).2 h_pair
    exact absurd h_start (Nat.not_lt.2 (h_clear edit h_edit))

/-! ### Octets that no span covers -/

/-- **The octets of a source that no span covers**, in order. -/
def uncovered (source : Bytes) (spans : List Span) : Bytes :=
  (source.zipIdx.filter fun octet => !spans.any (·.covers octet.2)).map Prod.fst

/-- Octets numbered from the start of a source keep their numbers in what is left of it. -/
theorem le_of_mem_drop_zipIdx {source : Bytes} {offset : Nat} {octet : UInt8 × Nat}
    (h : octet ∈ source.zipIdx.drop offset) : offset ≤ octet.2 := by
  obtain ⟨i, h_i, rfl⟩ := List.getElem_of_mem h
  rw [List.getElem_drop, List.getElem_zipIdx]
  simp

/-- The numbers of the octets of a stretch stay below its end. -/
theorem lt_of_mem_take_drop_zipIdx {source : Bytes} {offset count : Nat} {octet : UInt8 × Nat}
    (h : octet ∈ (source.zipIdx.drop offset).take count) : octet.2 < offset + count := by
  obtain ⟨i, h_i, rfl⟩ := List.getElem_of_mem h
  rw [List.length_take] at h_i
  rw [List.getElem_take, List.getElem_drop, List.getElem_zipIdx]
  simp only
  omega

section Stretches

variable {source : Bytes} {spans : List Span} {offset stop : Nat}

/-- A stretch of the source that ends before any span begins is left as it is. -/
theorem filter_covers_of_le (h : ∀ span ∈ spans, stop ≤ span.start) :
    ((source.zipIdx.drop offset).take (stop - offset)).filter
        (fun octet => !spans.any (·.covers octet.2))
      = (source.zipIdx.drop offset).take (stop - offset) := by
  rw [List.filter_eq_self]
  intro octet h_octet
  have h_lt := lt_of_mem_take_drop_zipIdx h_octet
  have h_le := le_of_mem_drop_zipIdx (List.mem_of_mem_take h_octet)
  rw [Bool.not_eq_true', List.any_eq_false]
  intro span h_span
  have h_start := h span h_span
  simp only [Span.covers, Bool.and_eq_true, decide_eq_true_eq]
  omega

/-- Nothing is left of the stretch that a span covers. -/
theorem filter_covers_eq_nil {span : Span} (h : span ∈ spans) :
    ((source.zipIdx.drop span.start).take (span.stop - span.start)).filter
        (fun octet => !spans.any (·.covers octet.2)) = [] := by
  rw [List.filter_eq_nil_iff]
  intro octet h_octet
  have h_le := le_of_mem_drop_zipIdx (List.mem_of_mem_take h_octet)
  have h_lt := lt_of_mem_take_drop_zipIdx h_octet
  have h_covers : span.covers octet.2 = true := by
    simp only [Span.covers, Bool.and_eq_true, decide_eq_true_eq]
    omega
  rw [Bool.not_eq_true, Bool.not_eq_false', List.any_eq_true]
  exact ⟨span, h, h_covers⟩

/-- From the end of a span on, it makes no difference. -/
theorem filter_covers_cons (span : Span) :
    (source.zipIdx.drop span.stop).filter (fun octet => !(span :: spans).any (·.covers octet.2))
      = (source.zipIdx.drop span.stop).filter fun octet => !spans.any (·.covers octet.2) := by
  refine List.filter_congr fun octet h_octet => ?_
  have h_le := le_of_mem_drop_zipIdx h_octet
  have h_not : span.covers octet.2 = false := by
    simp only [Span.covers, Bool.and_eq_false_iff, decide_eq_false_iff_not]
    omega
  rw [List.any_cons, h_not, Bool.false_or]

end Stretches

/-- Without the texts of its spans a splice is what they do not cover. -/
theorem splice_blank {source : Bytes} {spans : List Span} {offset : Nat}
    (h_from : Span.AllFrom offset spans) (h_ordered : ∀ span ∈ spans, span.start ≤ span.stop)
    (h_apart : spans.Pairwise fun a b => a.stop ≤ b.start) :
    splice source offset (spans.map Span.blank)
      = ((source.zipIdx.drop offset).filter fun octet => !spans.any (·.covers octet.2)).map
          Prod.fst := by
  induction spans generalizing offset with
  | nil => simp [splice, List.map_drop]
  | cons span spans ih =>
    obtain ⟨h_later, h_apart⟩ := List.pairwise_cons.1 h_apart
    have h_start : offset ≤ span.start := h_from span (List.mem_cons_self ..)
    have h_stop : span.start ≤ span.stop := h_ordered span (List.mem_cons_self ..)
    -- the octets are numbered before they are cut, so that each keeps its own offset
    have h_drop : ∀ a b, a ≤ b → source.zipIdx.drop a
        = (source.zipIdx.drop a).take (b - a) ++ source.zipIdx.drop b := by
      intro a b h_le
      conv_lhs => rw [← List.take_append_drop (b - a) (source.zipIdx.drop a), List.drop_drop,
        Nat.add_sub_cancel' h_le]
    have h_before : ∀ other ∈ span :: spans, span.start ≤ other.start :=
      List.forall_mem_cons.2 ⟨le_refl _, fun other h => h_stop.trans (h_later other h)⟩
    have h_rest := ih h_later (fun other h => h_ordered other (List.mem_cons_of_mem _ h)) h_apart
    -- the octets before the span, those in it and those after it
    rw [h_drop _ _ h_start, h_drop _ _ h_stop, List.filter_append, List.filter_append,
      filter_covers_of_le h_before, filter_covers_eq_nil (List.mem_cons_self ..),
      filter_covers_cons, List.nil_append, List.map_append, ← h_rest, List.map_cons, splice]
    simp [Span.blank, List.map_take, List.map_drop]

/-! ### The whole rewrite -/

/-- **A rewrite is a splice, and says which.** In a tree whose nodes do not end before they begin,
what is written is the source with one span replaced for each place that is offered and wanted. A
span begins where its node does and ends with it, or where the edit asks if that is later; the spans
come one after the other, and each octet outside of them is kept once and in order. A replacer,
whatever it remembers, is asked about places in document order, and about none that is passed over;
in a tree in order it is asked about every other. So a source that nothing is wanted of stays as it
is. -/
theorem exists_splice_offers (tree : Node) (source : Bytes) (replacer : Replacer)
    (h : ∀ c ∈ (Cursor.root tree).preorder, c.node.start ≤ c.node.stop) :
    (∀ (σ : Type) (remember : σ → Cursor → σ) (memory : σ),
      visitWith (remembering replacer remember) tree [] (.empty, memory)
        = (visit replacer tree [] .empty, (offers replacer tree [] 0).foldl remember memory)) ∧
    (offers replacer tree [] 0).Sublist (Cursor.root tree).preorder ∧
    (∀ c, IsPassedOver replacer (Cursor.root tree).preorder (offers replacer tree [] 0) c →
      c ∉ offers replacer tree [] 0) ∧
    ((∀ c ∈ (Cursor.root tree).preorder, c.node.IsOrdered) →
      ∀ c ∈ (Cursor.root tree).preorder, c ∈ offers replacer tree [] 0 ∨
        IsPassedOver replacer (Cursor.root tree).preorder (offers replacer tree [] 0) c) ∧
    (∃ spans, spans = (offers replacer tree [] 0).filterMap (fun c =>
        (replacer c).map fun edit => ⟨c.node.start, max c.node.stop edit.reach, edit.text⟩) ∧
      (transcribe tree source replacer).bytes source = splice source 0 spans ∧
      rewrite tree source replacer = Utf8.decode (splice source 0 spans) ∧
      (∀ span ∈ spans, span.start ≤ span.stop) ∧
      spans.Pairwise (fun a b => a.stop ≤ b.start) ∧
      splice source 0 (spans.map Span.blank) = uncovered source spans) ∧
    ((∀ c, replacer c = none) → (transcribe tree source replacer).bytes source = source) := by
  have h_sublist := (@offers_sublist_all replacer).1 tree [] 0
  -- in a tree whose nodes end after they begin, a span has the plain form that is claimed of it
  have h_wanted : ∀ c ∈ offers replacer tree [] 0, wanted replacer c
      = (replacer c).map fun edit => ⟨c.node.start, max c.node.stop edit.reach, edit.text⟩ := by
    intro c hc
    unfold wanted spanOf
    congr 1
    funext edit
    rw [Nat.max_eq_right ((h c (h_sublist.subset hc)).trans (le_max_left ..))]
  have h_spans : (edits replacer tree [] 0).1 = (offers replacer tree [] 0).filterMap fun c =>
      (replacer c).map fun edit => ⟨c.node.start, max c.node.stop edit.reach, edit.text⟩ := by
    rw [edits_eq_offers_all.1, List.filterMap_congr h_wanted]
  have h_bytes := bytes_transcribe tree source replacer
  have h_ordered : ∀ span ∈ (edits replacer tree [] 0).1, span.start ≤ span.stop := by
    intro span h_span
    obtain ⟨c, -, edit, -, rfl⟩ := exists_of_mem_edits h_span
    exact le_max_left ..
  -- the spans come in the order of the places, and each ends before the next begins
  have h_apart : (edits replacer tree [] 0).1.Pairwise fun a b => a.stop ≤ b.start := by
    rw [edits_eq_offers_all.1, List.pairwise_filterMap]
    refine (offers_clear_all.1 tree [] 0).2.imp fun {c d} h_clear a ha b hb => ?_
    obtain ⟨edit, h_edit, rfl⟩ := Option.map_eq_some_iff.1 ha
    obtain ⟨other, -, rfl⟩ := Option.map_eq_some_iff.1 hb
    exact h_clear edit h_edit
  have h_from : Span.AllFrom 0 (edits replacer tree [] 0).1 := fun _ _ => Nat.zero_le _
  refine ⟨fun σ remember memory => visitWith_remembering_all remember |>.1 tree [] .empty memory,
    h_sublist, fun c h_over => h_over.notMem_offers, fun h_tree c hc => ?_,
    ⟨_, rfl, ?_, ?_, ?_, ?_, ?_⟩, fun h_none => ?_⟩
  · exact offers_complete_all.1 tree [] 0 h_tree (Nat.zero_le _) c hc
  · rw [h_bytes, h_spans]
  · rw [rewrite, Transcript.text, h_bytes, h_spans]
  · rwa [← h_spans]
  · rwa [← h_spans]
  · rw [← h_spans, splice_blank h_from h_ordered h_apart, List.drop_zero]
    rfl
  · rw [h_bytes, h_spans, List.filterMap_eq_nil_iff.2 fun c _ => by rw [h_none]; rfl]
    rfl

/-- A tree over six octets, of which three nodes cover two each and the second has one below it. -/
def threeNames : Node :=
  ⟨.phrase "program", 0, 6, false, false,
    [.token (.token "a") 0 2,
      ⟨.phrase "b", 2, 4, false, false, [.token (.token "d") 3 4]⟩,
      .token (.token "c") 4 6]⟩

/-- Replaces the first node and the octet after it, and the last. -/
def reaching : Replacer := fun c =>
  if c.node.isCalled "a" then some ⟨"X", 3⟩
  else if c.node.isCalled "c" then some (.ofText "Y")
  else none

/-- The second node is passed over, with the one below it. -/
theorem exists_splice_offers_reaching :
    (∀ c ∈ (Cursor.root threeNames).preorder, c.node.start ≤ c.node.stop) ∧
      (transcribe threeNames (Utf8.encode "uvwxyz") reaching).bytes (Utf8.encode "uvwxyz")
        = splice (Utf8.encode "uvwxyz") 0 [⟨0, 3, "X"⟩, ⟨4, 6, "Y"⟩] ∧
      rewrite threeNames (Utf8.encode "uvwxyz") reaching = .ok "XxY" ∧
      ∀ c ∈ (Cursor.root threeNames).preorder, c ∈ offers reaching threeNames [] 0 ∨
        IsPassedOver reaching (Cursor.root threeNames).preorder (offers reaching threeNames [] 0)
          c := by
  have h_nodes : ∀ c ∈ (Cursor.root threeNames).preorder, c.node.start ≤ c.node.stop := by decide
  have h_ordered : ∀ c ∈ (Cursor.root threeNames).preorder, c.node.IsOrdered := by decide
  obtain ⟨-, -, -, h_all, ⟨spans, h_spans, h_bytes, h_text, -⟩, -⟩ :=
    exists_splice_offers threeNames (Utf8.encode "uvwxyz") reaching h_nodes
  have h_two : spans = [⟨0, 3, "X"⟩, ⟨4, 6, "Y"⟩] := h_spans.trans (by decide +kernel)
  rw [h_two] at h_bytes h_text
  exact ⟨h_nodes, h_bytes, h_text.trans (by decide +kernel), h_all h_ordered⟩

end Rewrite

end DeclarationBundle
