import DeclarationBundle.Declaration
import DeclarationBundle.Proofs.Rewrite.Offers
import DeclarationBundle.Proofs.Syntax.Aligned

/-!
# Moving a declaration text makes the edits it should

What `Reference.rehome` is for, said without a walk: `Reference.Moves` are the spans to replace at a
place, one for a `declare` keyword and one for a relative reference.

* `Reference.exists_rewrite_rehome`: the text moved is the text with just these spans replaced.
* `Declaration.exists_rehomed_eq_ok`: a declaration can be moved, whatever its text is, if its tree
  cuts no character. Nothing else is asked of the parser that has read it.

`Reference.IsTreeOver` is what it takes of the tree. Nothing in it speaks of the edits themselves,
so most of the work is to show that they stay clear of each other: an edit ends where its node does,
and the edit of a keyword where the spaces after it do, where nothing that matters can begin.
-/

namespace DeclarationBundle

open Syntax Rewrite

namespace Reference

/-- A keyword or literal that a move may change. -/
def IsMark (node : Node) : Prop :=
  node.kind = .declare ∨ node.isString = true

instance (node : Node) : Decidable (IsMark node) :=
  inferInstanceAs (Decidable (_ ∨ _))

/-- **A tree over a text.** It is in order and cuts no character. Marks do not lie below each other,
and nothing with a mark in it begins at one of the spaces that follow a `declare` keyword. -/
structure IsTreeOver (text : String) (tree : Node) : Prop where
  ordered : ∀ c ∈ (Cursor.root tree).preorder, c.node.IsOrdered
  bounded : ∀ c ∈ (Cursor.root tree).preorder,
    Utf8.IsBoundary text c.node.start ∧ Utf8.IsBoundary text c.node.stop
  apart : ∀ c ∈ (Cursor.root tree).preorder, IsMark c.node → ∀ d ∈ c.below, ¬ IsMark d.node
  clear : (Cursor.root tree).preorder.Pairwise fun c d =>
    c.node.kind = .declare → (∃ e ∈ d.preorder, IsMark e.node) →
      ¬ (c.node.stop ≤ d.node.start ∧ d.node.start < endOfSpaces (Utf8.encode text) c.node.stop)

/-- **What a move to the module `id` is to replace** at a place. -/
inductive Moves (id : String) (source : Bytes) (c : Cursor) : Span → Prop where
  /-- A `declare` keyword goes, and the spaces and tabs after it. -/
  | declare (h_kind : c.node.kind = .declare) :
      Moves id source c ⟨c.node.start, endOfSpaces source c.node.stop, ""⟩
  /-- A relative reference is joined to `id`, between quotes like its first. -/
  | reference {quote close : Char} {path : String} (h_string : c.node.isString = true)
      (h_specifier : isModuleSpecifier source c = true)
      (h_text : c.node.text source
        = Utf8.encode (String.singleton quote ++ path ++ String.singleton close))
      (h_relative : ModuleId.isRelative path = true) :
      Moves id source c ⟨c.node.start, c.node.stop,
        String.singleton quote ++ ModuleId.join id path ++ String.singleton quote⟩

variable {id text literal joined : String} {source : Bytes} {c : Cursor}

/-! ### One place -/

/-- A keyword is no literal. -/
theorem isString_eq_false_of_declare (h : c.node.kind = .declare) : c.node.isString = false := by
  unfold Node.isString Node.isCalled
  rw [h]
  decide

/-- A literal is rewritten if what stands between its first and its last character is relative. -/
theorem joinLiteral_eq_some_iff :
    joinLiteral id literal = some joined ↔ ∃ quote path close,
      literal = String.singleton quote ++ path ++ String.singleton close ∧
        ModuleId.isRelative path = true ∧
          joined = String.singleton quote ++ ModuleId.join id path ++ String.singleton quote := by
  constructor
  · intro h
    unfold joinLiteral at h
    split at h
    · next quote first rest h_chars =>
      obtain ⟨h_relative, h_joined⟩ := Option.ite_none_right_eq_some.1 h
      refine ⟨quote, String.ofList (first :: rest).dropLast, (first :: rest).getLast (by simp), ?_,
        h_relative, (Option.some.inj h_joined).symm⟩
      -- the first character, those up to the last, and the last
      apply String.toList_inj.1
      rw [h_chars, String.toList_append, String.toList_append, String.toList_singleton,
        String.toList_ofList, String.toList_singleton, List.append_assoc,
        List.dropLast_append_getLast]
      rfl
    · cases h
  · rintro ⟨quote, path, close, rfl, h_relative, rfl⟩
    -- read back: the two quotes are taken off again, and what is left is the path
    have h_chars : (String.singleton quote ++ path ++ String.singleton close).toList
        = quote :: (path.toList ++ [close]) := by simp
    obtain ⟨first, rest, h_rest⟩ := List.exists_cons_of_ne_nil
      (show path.toList ++ [close] ≠ [] by simp)
    have h_path : String.ofList (first :: rest).dropLast = path := by
      rw [← h_rest, List.dropLast_concat, String.ofList_toList]
    unfold joinLiteral
    rw [h_chars, h_rest]
    simp only
    rw [h_path, if_pos h_relative]

/-- The replacer looks at marks only. -/
theorem isMark_of_rehome_ne_none (h : rehome id source c ≠ none) : IsMark c.node := by
  unfold rehome at h
  split at h
  · next h_kind => exact .inl h_kind
  split at h
  · next h_string => exact .inr (Bool.and_eq_true_iff.1 h_string).1
  · exact absurd rfl h

/-- The spaces after an offset end no sooner than there. -/
theorem le_endOfSpaces (source : Bytes) (offset : Nat) : offset ≤ endOfSpaces source offset :=
  Nat.le_add_right ..

/-- They end at a boundary, if they begin at one. -/
theorem isBoundary_endOfSpaces {offset : Nat} (h : Utf8.IsBoundary text offset) :
    Utf8.IsBoundary text (endOfSpaces (Utf8.encode text) offset) := by
  -- a space and a tab are octets below 0x80
  refine Utf8.isBoundary_add_takeWhile (fun b hb => ?_) h
  rcases Bool.or_eq_true_iff.1 hb with hb | hb
  all_goals
    rw [beq_iff_eq] at hb
    rw [hb]
    decide

/-- An edit reaches to a boundary, if it reaches past its node at all. -/
theorem isBoundary_reach_rehome {edit : Edit} (h_stop : Utf8.IsBoundary text c.node.stop)
    (h_edit : rehome id (Utf8.encode text) c = some edit) : Utf8.IsBoundary text edit.reach := by
  unfold rehome at h_edit
  split at h_edit
  · cases h_edit
    exact isBoundary_endOfSpaces h_stop
  split at h_edit
  · split at h_edit
    · -- the edit of a literal reaches no further than its node, which is said by the offset 0
      obtain ⟨joined, -, rfl⟩ := Option.map_eq_some_iff.1 h_edit
      exact Utf8.isBoundary_zero text
    · cases h_edit
  · cases h_edit

/-- **At a place that holds text, the replacer asks for what a move is to replace.** -/
theorem wanted_rehome_iff {span : Span} (h_ordered : c.node.start ≤ c.node.stop)
    (h_literal : c.node.text source = Utf8.encode literal) :
    wanted (rehome id source) c = some span ↔ Moves id source c span := by
  unfold wanted rehome
  by_cases h_kind : c.node.kind = .declare
  · -- a keyword: the edit runs on to the end of the spaces after the node
    have h_stop := h_ordered.trans (le_endOfSpaces source c.node.stop)
    have h_span : spanOf c.node ⟨"", endOfSpaces source c.node.stop⟩
        = ⟨c.node.start, endOfSpaces source c.node.stop, ""⟩ := by
      unfold spanOf
      rw [Nat.max_eq_right (le_endOfSpaces ..), Nat.max_eq_right h_stop]
    rw [if_pos h_kind, Option.map_some, Option.some_inj, h_span]
    constructor
    · rintro rfl
      exact .declare h_kind
    · intro h
      cases h with
      | declare => rfl
      | reference h_string => rw [isString_eq_false_of_declare h_kind] at h_string; cases h_string
  rw [if_neg h_kind]
  by_cases h_string : (c.node.isString && isModuleSpecifier source c) = true
  · -- a literal: the edit covers the node and no more
    have h_span : ∀ joined,
        spanOf c.node (.ofText joined) = ⟨c.node.start, c.node.stop, joined⟩ := by
      intro joined
      unfold spanOf Edit.ofText
      rw [Nat.max_eq_left (Nat.zero_le _), Nat.max_eq_right h_ordered]
    rw [if_pos h_string, h_literal, Utf8.decode_encode]
    simp only [Option.map_map, Option.map_eq_some_iff, Function.comp, h_span]
    rw [Bool.and_eq_true] at h_string
    constructor
    · rintro ⟨joined, h_joined, rfl⟩
      obtain ⟨quote, path, close, rfl, h_relative, rfl⟩ := joinLiteral_eq_some_iff.1 h_joined
      exact .reference h_string.1 h_string.2 h_literal h_relative
    · intro h
      cases h with
      | declare h => exact absurd h h_kind
      | reference _ _ h_text h_relative =>
        exact ⟨_, joinLiteral_eq_some_iff.2
          ⟨_, _, _, Utf8.encode_injective (h_literal.symm.trans h_text), h_relative, rfl⟩, rfl⟩
  · -- anything else is left as it is
    rw [if_neg h_string]
    constructor
    · intro h
      cases h
    · intro h
      cases h with
      | declare h => exact absurd h h_kind
      | reference h_is h_specifier => simp [h_is, h_specifier] at h_string

/-! ### A whole tree -/

section Tree

variable {tree : Node}

/-- A node of a tree over a text covers text. -/
theorem IsTreeOver.exists_text (h : IsTreeOver text tree) (hc : c ∈ (Cursor.root tree).preorder) :
    ∃ literal, c.node.text (Utf8.encode text) = Utf8.encode literal :=
  Utf8.exists_encode_slice (h.bounded c hc).1 (h.bounded c hc).2 (h.ordered c hc).start_le_stop

/-- So it is at every place of a tree over a text. -/
theorem IsTreeOver.wanted_iff (h : IsTreeOver text tree) (hc : c ∈ (Cursor.root tree).preorder)
    {span : Span} :
    wanted (rehome id (Utf8.encode text)) c = some span ↔ Moves id (Utf8.encode text) c span := by
  obtain ⟨literal, h_literal⟩ := h.exists_text hc
  exact wanted_rehome_iff (h.ordered c hc).start_le_stop h_literal

/-- No span that a move replaces runs backwards. -/
theorem Moves.start_le_stop {span : Span} (h : Moves id source c span)
    (h_ordered : c.node.start ≤ c.node.stop) : span.start ≤ span.stop := by
  cases h with
  | declare => exact h_ordered.trans (le_endOfSpaces ..)
  | reference => exact h_ordered

/-- None of them cuts a character. -/
theorem Moves.isBoundary {span : Span} (h : Moves id (Utf8.encode text) c span)
    (h_bounded : Utf8.IsBoundary text c.node.start ∧ Utf8.IsBoundary text c.node.stop) :
    Utf8.IsBoundary text span.start ∧ Utf8.IsBoundary text span.stop := by
  cases h with
  | declare => exact ⟨h_bounded.1, isBoundary_endOfSpaces h_bounded.2⟩
  | reference => exact h_bounded

/-- **The edits of a move stay clear of each other.** -/
theorem IsTreeOver.keepsApart (h : IsTreeOver text tree) (id : String) :
    KeepsApart (rehome id (Utf8.encode text)) (Cursor.root tree).preorder where
  ordered := h.ordered
  apart c hc h_some d hd := by
    -- a place below this one that is changed as well would be a mark below a mark
    by_contra h_other
    exact h.apart c hc (isMark_of_rehome_ne_none h_some) d hd (isMark_of_rehome_ne_none h_other)
  clear := by
    have h_places := (Cursor.pairwise_follows h.ordered).and h.clear
    refine h_places.imp_of_mem fun {c d} hc hd ⟨h_follows, h_clear⟩ edit h_edit
      ⟨e, he, h_some⟩ => ?_
    have h_mark : IsMark c.node :=
      isMark_of_rehome_ne_none (by rw [h_edit]; exact Option.some_ne_none _)
    have h_later := isMark_of_rehome_ne_none h_some
    -- what follows inside of a mark holds no mark, so the later place is after this one
    rcases h_follows with h_below | h_after
    · exact absurd h_later (h.apart c hc h_mark e (Cursor.preorder_subset_below h_below he))
    have h_moves : Moves id (Utf8.encode text) c (spanOf c.node edit) :=
      (h.wanted_iff hc).1 (by rw [wanted, h_edit]; rfl)
    generalize spanOf c.node edit = span at h_moves ⊢
    -- only the edit of a keyword ends after its node, and then at the end of the spaces
    cases h_moves with
    | declare h_kind =>
      by_contra h_inside
      exact h_clear h_kind ⟨e, he, h_later⟩ ⟨h_after, Nat.not_le.1 h_inside⟩
    | reference => exact h_after

end Tree

/-- The tree over `declare`, blanks and an import with an accented letter in its reference. -/
def ambientImport : Node :=
  ⟨.phrase "program", 0, 22, false, false,
    [.token .declare 0 7,
      ⟨.importStatement, 9, 22, false, false,
        [.token (.token "import") 9 15, ⟨.string, 16, 22, false, true, []⟩]⟩]⟩

end Reference

/-! ### Declarations -/

open Reference in
/-- A literal whose node cuts no character can be read. -/
theorem Reference.misread?_eq_none {text : String} {c : Cursor} (h : c.node.IsAligned text) :
    misread? (Utf8.encode text) c = none := by
  obtain ⟨_, part, _, -, -, h_part⟩ := h.exists_text_eq
  unfold misread?
  rw [h_part, Utf8.decode_encode]
  split <;> rfl

open Reference in
/-- **A declaration can be moved if its tree cuts no character.** Then every literal that is offered
can be read, and each edit begins and ends between two characters. -/
theorem Declaration.exists_rehomed_eq_ok {d : Declaration} (h_aligned : d.tree.IsAligned d.text)
    (id : String) : ∃ content, d.rehomed id = .ok content := by
  have h_read : (offers (rehome id d.source) d.tree [] 0).findSome? (misread? d.source) = none :=
    List.findSome?_eq_none_iff.2 fun c hc =>
      misread?_eq_none (h_aligned.of_mem_preorder (offers_subset_preorder _ _ c hc))
  have h_bounded : ∀ c ∈ (Cursor.root d.tree).preorder, ∀ edit, rehome id d.source c = some edit →
      Utf8.IsBoundary d.text (spanOf c.node edit).start ∧
        Utf8.IsBoundary d.text (spanOf c.node edit).stop := by
    intro c hc edit h_edit
    -- no order is asked of the tree here: its nodes and the reaches of the edits are aligned
    obtain ⟨h_start, h_stop, -⟩ := h_aligned.of_mem_preorder hc
    have h_reach : Utf8.IsBoundary d.text edit.reach := isBoundary_reach_rehome h_stop h_edit
    exact ⟨h_start, h_start.max (h_stop.max h_reach)⟩
  obtain ⟨content, h_content, -⟩ := exists_rewrite_eq_ok h_bounded
  refine ⟨content, ?_⟩
  unfold rehomed
  rw [attempt_eq, h_read]
  exact h_content

end DeclarationBundle
