import DeclarationBundle.Proofs.Rewrite.Offers

/-!
# The account of a transcript

A transcript may be asked to copy and to replace in any order, up to offsets that are behind it,
ahead of it or past the end of the source. Each call moves it on from where the one before has left
it, or leaves it there. So its moves lie end to end (`Transcript.pairwise_moves`), and every offset
that it has dealt with was moved over by exactly one of them (`Transcript.exists_move`): by a copy,
and then it is in a piece, or by a replacement, and then it is in none.

* `Transcript.moves` are the moves that some calls make, wherever the transcript stands at first.
* `Transcript.finish_performAll`: whatever the calls, they make a splice of the source.
* `Transcript.IsAccount` says what is known of a transcript after some calls, and
  `Transcript.isAccount_after` that it holds after any.
-/

namespace DeclarationBundle

/-- Where a piece is copied from. -/
def Piece.stretch? : Piece → Option (Nat × Nat)
  | .copied start stop => some (start, stop)
  | .inserted _ => none

/-- The text that a piece puts in. -/
def Piece.text? : Piece → Option String
  | .copied _ _ => none
  | .inserted text => some text

namespace Transcript

/-- What a transcript can be asked for. -/
inductive Call where
  | copyTo (offset : Nat)
  | replace (text : String) (offset : Nat)
  deriving DecidableEq, Repr

namespace Call

/-- How far the call wants the source to be dealt with. -/
def offset : Call → Nat
  | .copyTo offset => offset
  | .replace _ offset => offset

/-- The text that the call puts in. -/
def text? : Call → Option String
  | .copyTo _ => none
  | .replace text _ => some text

/-- The call without its text. It goes as far as the call itself, so that a transcript of such calls
shows what is kept of the source. -/
def blank : Call → Call
  | .copyTo offset => .copyTo offset
  | .replace _ offset => .replace "" offset

end Call

/-- Does what a call asks for. -/
def perform (t : Transcript) : Call → Transcript
  | .copyTo offset => t.copyTo offset
  | .replace text offset => t.replace text offset

/-- Does what some calls ask for, one after the other. -/
def performAll (t : Transcript) (calls : List Call) : Transcript :=
  calls.foldl perform t

/-- The transcript after some calls. -/
def after (calls : List Call) : Transcript :=
  empty.performAll calls

/-- The stretches of the source that a transcript has copied, in order. -/
def stretches (t : Transcript) : List (Nat × Nat) :=
  t.pieces.filterMap Piece.stretch?

/-- The texts that were put in, in order. -/
def texts (t : Transcript) : List String :=
  t.pieces.filterMap Piece.text?

/-- The furthest offset that some calls give. -/
def furthest (calls : List Call) : Nat :=
  (calls.map Call.offset).foldr max 0

/-- A call, and where it finds the transcript. -/
structure Move where
  start : Nat
  call : Call

namespace Move

/-- Where the call leaves the transcript. -/
def stop (m : Move) : Nat :=
  max m.start m.call.offset

/-- The offset is moved over. -/
def Covers (m : Move) (offset : Nat) : Prop :=
  m.start ≤ offset ∧ offset < m.stop

/-- The stretch that a copy adds. -/
def stretch? (m : Move) : Option (Nat × Nat) :=
  match m.call with
  | .copyTo offset => if m.start < offset then some (m.start, offset) else none
  | .replace _ _ => none

/-- The pieces that are added: what there is to copy, or the text that is put in. -/
def pieces (m : Move) : List Piece :=
  match m.call with
  | .copyTo offset => if m.start < offset then [.copied m.start offset] else []
  | .replace text _ => [.inserted text]

/-- The span that a replacement passes over, and what stands in its place. -/
def span? (m : Move) : Option Span :=
  m.call.text?.map fun text => ⟨m.start, m.stop, text⟩

end Move

/-- **The moves of some calls**, the first of which finds the transcript at `position`. -/
def moves : Nat → List Call → List Move
  | _, [] => []
  | position, call :: calls => ⟨position, call⟩ :: moves (max position call.offset) calls

/-- The spans of a source that some calls replace. -/
def skips (calls : List Call) : List Span :=
  (moves 0 calls).filterMap Move.span?

/-- **A transcript accounts for the source.** `calls` were made on an empty transcript, and `t` is
what came of them. -/
structure IsAccount (calls : List Call) (t : Transcript) : Prop where
  /-- The transcript never goes back. -/
  position_eq : t.position = furthest calls
  /-- Each call in turn adds what it copies from where it finds the transcript, or its text. -/
  pieces_eq : t.pieces = (moves 0 calls).flatMap Move.pieces
  texts_eq : t.texts = calls.filterMap Call.text?
  stretches_apart : t.stretches.Pairwise fun a b => a.2 ≤ b.1
  stretches_within : ∀ s ∈ t.stretches, s.1 < s.2 ∧ s.2 ≤ t.position
  /-- What is missing was moved over by a replacement. -/
  absent_iff : ∀ offset < t.position, (∀ s ∈ t.stretches, ¬ (s.1 ≤ offset ∧ offset < s.2)) ↔
    ∃ before text stop rest, calls = before ++ .replace text stop :: rest ∧
      (after before).position ≤ offset ∧ offset < (after (before ++ [.replace text stop])).position
  /-- The octets of the stretches, and those not yet dealt with, are all that no replacement has
  passed over, each once and in order. -/
  octets_eq : ∀ source : Bytes,
    (t.stretches.flatMap fun s => (source.drop s.1).take (s.2 - s.1)) ++ source.drop t.position
      = Rewrite.uncovered source (skips calls)

/-! ### One call -/

/-- A call moves a transcript on to its offset, or leaves it where it stands if that is further. A
copy that is asked to go back does nothing, and a replacement puts its text in without going
back. -/
@[simp] theorem position_perform (t : Transcript) (call : Call) :
    (t.perform call).position = max t.position call.offset := by
  cases call with
  | copyTo offset => exact position_copyTo t offset
  | replace text offset => rfl

/-- A call adds the pieces of the move that it makes from where it finds the transcript, and touches
no piece that is there already. -/
theorem pieces_perform (t : Transcript) (call : Call) :
    (t.perform call).pieces = t.pieces ++ (⟨t.position, call⟩ : Move).pieces := by
  cases call with
  | copyTo offset =>
    unfold perform copyTo Move.pieces
    dsimp only
    split
    · rfl
    · exact (List.append_nil _).symm
  | replace text offset => rfl

/-- A call moves what is still to be replaced into the transcript: it makes no difference whether a
replacement has been made already or is counted among those ahead. -/
theorem finish_perform {source : Bytes} (t : Transcript) (call : Call) {ahead : List Span}
    (h : Span.AllFrom (max t.position call.offset) ahead) :
    (t.perform call).finish source ahead
      = t.finish source ((⟨t.position, call⟩ : Move).span?.toList ++ ahead) := by
  cases call with
  | copyTo offset => exact finish_copyTo h
  | replace text offset => exact finish_replace

/-! ### The moves of some calls -/

/-- What is furthest among all calls is so among the first of them or among the others. -/
theorem furthest_append (calls more : List Call) :
    furthest (calls ++ more) = max (furthest calls) (furthest more) := by
  induction calls with
  | nil => simp [furthest]
  | cons call calls ih => exact (congrArg (max call.offset) ih).trans (Nat.max_assoc ..).symm

/-- Calls move a transcript on to the furthest of their offsets, or leave it where it stands. -/
theorem position_performAll (t : Transcript) (calls : List Call) :
    (t.performAll calls).position = max t.position (furthest calls) := by
  induction calls generalizing t with
  | nil => exact (Nat.max_zero _).symm
  | cons call calls ih =>
    refine (ih (t.perform call)).trans ?_
    rw [position_perform, Nat.max_assoc]
    rfl

/-- A transcript stands at the furthest offset that it was asked to go to. -/
theorem position_after (calls : List Call) : (after calls).position = furthest calls :=
  (position_performAll empty calls).trans (Nat.zero_max _)

/-- One call more. -/
theorem position_after_append (calls : List Call) (call : Call) :
    (after (calls ++ [call])).position = max (after calls).position call.offset := by
  rw [position_after, position_after, furthest_append]
  exact congrArg _ (Nat.max_zero _)

/-- The pieces of a transcript are those of the moves that were made, in order. The moves of the
calls that are left start from where the first call has led, which is what `moves` hands on. -/
theorem pieces_performAll (t : Transcript) (calls : List Call) :
    (t.performAll calls).pieces = t.pieces ++ (moves t.position calls).flatMap Move.pieces := by
  induction calls generalizing t with
  | nil => exact (List.append_nil _).symm
  | cons call calls ih =>
    refine (ih (t.perform call)).trans ?_
    rw [pieces_perform, position_perform, moves, List.flatMap_cons, List.append_assoc]

/-- The pieces of a transcript that was empty are those of the moves, and nothing else. -/
theorem pieces_after (calls : List Call) :
    (after calls).pieces = (moves 0 calls).flatMap Move.pieces :=
  pieces_performAll empty calls

/-- A move is a call among the others, made where the furthest of those before it has led. -/
theorem mem_moves_iff {position : Nat} {calls : List Call} {m : Move} :
    m ∈ moves position calls ↔ ∃ before rest, calls = before ++ m.call :: rest ∧
      m.start = max position (furthest before) := by
  -- on the calls, for every position, since the first call changes where the others find the
  -- transcript
  induction calls generalizing position with
  | nil => simp [moves]
  | cons call calls ih =>
    rw [moves, List.mem_cons, ih]
    constructor
    · rintro (rfl | ⟨before, rest, rfl, h_start⟩)
      · exact ⟨[], calls, rfl, (Nat.max_zero _).symm⟩
      · exact ⟨call :: before, rest, rfl, h_start.trans (Nat.max_assoc ..)⟩
    · rintro ⟨_ | ⟨first, before⟩, rest, h_calls, h_start⟩
      · obtain ⟨rfl, -⟩ := List.cons.inj h_calls
        exact .inl (by rw [← h_start.trans (Nat.max_zero _)])
      · obtain ⟨rfl, rfl⟩ := List.cons.inj h_calls
        exact .inr ⟨before, rest, rfl, h_start.trans (Nat.max_assoc ..).symm⟩

/-- No call finds the transcript before the place where the first did. -/
theorem le_start_of_mem_moves {position : Nat} {calls : List Call} {m : Move}
    (h : m ∈ moves position calls) : position ≤ m.start := by
  obtain ⟨before, rest, -, h_start⟩ := mem_moves_iff.1 h
  rw [h_start]
  exact le_max_left ..

/-- No call leaves the transcript beyond the furthest offset. -/
theorem stop_le_of_mem_moves {calls : List Call} {m : Move} (h : m ∈ moves 0 calls) :
    m.stop ≤ furthest calls := by
  obtain ⟨before, rest, h_calls, h_start⟩ := mem_moves_iff.1 h
  rw [h_calls, furthest_append, Move.stop, h_start, Nat.zero_max]
  exact max_le_max_left _ (le_max_left ..)

/-- **The moves lie end to end**: no call finds the transcript before the place where an earlier one
has left it, so that of two moves the earlier stops before the later starts. -/
theorem pairwise_moves (position : Nat) (calls : List Call) :
    (moves position calls).Pairwise fun m m' => m.stop ≤ m'.start := by
  induction calls generalizing position with
  | nil => exact .nil
  | cons call calls ih => exact List.pairwise_cons.2 ⟨fun m hm => le_start_of_mem_moves hm, ih _⟩

/-- **Every offset that is dealt with was moved over.** -/
theorem exists_move {position offset : Nat} {calls : List Call} (h_start : position ≤ offset)
    (h_stop : offset < max position (furthest calls)) :
    ∃ m ∈ moves position calls, m.Covers offset := by
  -- on the calls: the first one that leads past the offset has moved over it
  induction calls generalizing position with
  | nil => exact absurd (h_stop.trans_eq (Nat.max_zero _)) (Nat.not_lt.2 h_start)
  | cons call calls ih =>
    by_cases h_first : offset < max position call.offset
    · exact ⟨_, List.mem_cons_self .., h_start, h_first⟩
    · obtain ⟨m, hm, h_covers⟩ :=
        ih (Nat.le_of_not_lt h_first) (h_stop.trans_eq (Nat.max_assoc ..).symm)
      exact ⟨m, List.mem_cons_of_mem _ hm, h_covers⟩

/-- No offset is moved over twice. -/
theorem Move.Covers.unique {position offset : Nat} {calls : List Call} {m m' : Move}
    (h : m.Covers offset) (h' : m'.Covers offset) (hm : m ∈ moves position calls)
    (hm' : m' ∈ moves position calls) : m = m' := by
  have h_apart : (moves position calls).Pairwise fun a b => a.stop ≤ b.start ∨ b.stop ≤ a.start :=
    (pairwise_moves position calls).imp .inl
  have : Std.Symm fun a b : Move => a.stop ≤ b.start ∨ b.stop ≤ a.start := ⟨fun _ _ => Or.symm⟩
  -- two different moves lie apart, one of them before the other, and then no offset is in both
  by_contra h_ne
  rcases h_apart.forall hm hm' h_ne with h_le | h_le
  · exact absurd (h.2.trans_le (h_le.trans h'.1)) (Nat.lt_irrefl _)
  · exact absurd (h'.2.trans_le (h_le.trans h.1)) (Nat.lt_irrefl _)

/-! ### Copies -/

/-- A move adds a stretch if its call is a copy that moves the transcript on at all, and then the
stretch is all that the call moved over. Said so, with `stop` and not with the offset, copies and
replacements can be compared. -/
theorem Move.stretch?_eq_some_iff {m : Move} {s : Nat × Nat} :
    m.stretch? = some s ↔ m.call.text? = none ∧ m.start < m.stop ∧ s = (m.start, m.stop) := by
  obtain ⟨start, call⟩ := m
  cases call with
  | copyTo offset =>
    simp only [stretch?, stop, Call.text?, Call.offset, lt_max_iff, lt_self_iff_false, false_or,
      true_and, Option.ite_none_right_eq_some, Option.some.injEq]
    refine and_congr_right fun h => ?_
    -- a copy that moves the transcript on ends where it was asked to
    rw [Nat.max_eq_right h.le]
    exact eq_comm
  | replace text offset => simp [stretch?, Call.text?]

/-- The stretches of a transcript are those that its moves add. -/
theorem stretches_after (calls : List Call) :
    (after calls).stretches = (moves 0 calls).filterMap Move.stretch? := by
  rw [stretches, pieces_after, List.filterMap_flatMap, List.filterMap_eq_flatMap_toList]
  congr 1
  funext m
  obtain ⟨start, call⟩ := m
  cases call with
  | copyTo offset =>
    simp only [Move.pieces, Move.stretch?]
    split <;> rfl
  | replace text offset => rfl

/-- The texts of a transcript are those of its calls: a replacement puts its text in wherever it
finds the transcript. -/
theorem texts_after (calls : List Call) : (after calls).texts = calls.filterMap Call.text? := by
  have h_calls : ∀ position, (moves position calls).map Move.call = calls := by
    induction calls with
    | nil => exact fun _ => rfl
    | cons call calls ih => exact fun position => by rw [moves, List.map_cons, ih]
  rw [texts, pieces_after, List.filterMap_flatMap]
  -- compare the two sides move by move, a call being the call of its move
  conv_rhs => rw [← h_calls 0, List.filterMap_map, List.filterMap_eq_flatMap_toList]
  congr 1
  funext m
  obtain ⟨start, call⟩ := m
  cases call with
  | copyTo offset =>
    simp only [Move.pieces]
    split <;> rfl
  | replace text offset => rfl

/-- Stretches do not overlap and stand in the order of the source, since moves do. -/
theorem pairwise_stretches (calls : List Call) :
    (after calls).stretches.Pairwise fun a b => a.2 ≤ b.1 := by
  rw [stretches_after]
  refine List.pairwise_filterMap.2 ((pairwise_moves 0 calls).imp fun h_le a ha b hb => ?_)
  obtain ⟨-, -, rfl⟩ := Move.stretch?_eq_some_iff.1 ha
  obtain ⟨-, -, rfl⟩ := Move.stretch?_eq_some_iff.1 hb
  exact h_le

/-- A stretch is not empty, and it lies before the place where the transcript stands. -/
theorem bounds_of_mem_stretches {calls : List Call} {s : Nat × Nat}
    (h : s ∈ (after calls).stretches) : s.1 < s.2 ∧ s.2 ≤ (after calls).position := by
  rw [stretches_after] at h
  obtain ⟨m, hm, h_stretch⟩ := List.mem_filterMap.1 h
  obtain ⟨-, h_lt, rfl⟩ := Move.stretch?_eq_some_iff.1 h_stretch
  exact ⟨h_lt, (stop_le_of_mem_moves hm).trans_eq (position_after calls).symm⟩

/-- **An offset is in no stretch exactly if a replacement moved over it.** -/
theorem absent_iff_exists_move {calls : List Call} {offset : Nat} (h : offset < furthest calls) :
    (∀ s ∈ (after calls).stretches, ¬ (s.1 ≤ offset ∧ offset < s.2)) ↔
      ∃ m ∈ moves 0 calls, m.Covers offset ∧ m.call.text? ≠ none := by
  simp only [stretches_after, List.mem_filterMap, Move.stretch?_eq_some_iff]
  constructor
  · -- the move over the offset is no copy, whose stretch would have the offset in it
    intro h_absent
    obtain ⟨m, hm, h_covers⟩ := exists_move (Nat.zero_le _) (h.trans_eq (Nat.zero_max _).symm)
    refine ⟨m, hm, h_covers, fun h_copy => ?_⟩
    exact h_absent _ ⟨m, hm, h_copy, h_covers.1.trans_lt h_covers.2, rfl⟩ h_covers
  · rintro ⟨m, hm, h_covers, h_text⟩ _ ⟨m', hm', h_copy, -, rfl⟩ h_covers'
    -- a stretch with the offset in it would come of a second move over it, and there is only one
    obtain rfl := h_covers.unique h_covers' hm hm'
    exact h_text h_copy

/-! ### Replacements -/

/-- The span of a replacement is all that its call moved over. -/
theorem Move.start_span {m : Move} {span : Span} (h : m.span? = some span) :
    span.start = m.start ∧ span.stop = m.stop := by
  obtain ⟨text, -, rfl⟩ := Option.map_eq_some_iff.1 h
  exact ⟨rfl, rfl⟩

/-- A replacement that moved over an offset, among the calls. -/
theorem exists_move_iff {calls : List Call} {offset : Nat} :
    (∃ m ∈ moves 0 calls, m.Covers offset ∧ m.call.text? ≠ none) ↔
      ∃ before text stop rest, calls = before ++ .replace text stop :: rest ∧
        (after before).position ≤ offset ∧
        offset < (after (before ++ [.replace text stop])).position := by
  constructor
  · rintro ⟨⟨start, call⟩, hm, h_covers, h_text⟩
    obtain ⟨before, rest, h_calls, h_start⟩ := mem_moves_iff.1 hm
    cases call with
    | copyTo stop => exact absurd rfl h_text
    | replace text stop =>
      refine ⟨before, text, stop, rest, h_calls, ?_⟩
      rw [Nat.zero_max] at h_start
      subst h_start
      rw [position_after_append, position_after]
      exact h_covers
  · rintro ⟨before, text, stop, rest, h_calls, h_covers⟩
    -- the calls before the replacement are those that say where it finds the transcript
    rw [position_after_append, position_after] at h_covers
    refine ⟨⟨furthest before, .replace text stop⟩, ?_, h_covers, Option.some_ne_none _⟩
    exact mem_moves_iff.2 ⟨before, rest, h_calls, (Nat.zero_max _).symm⟩

/-- No span of a replacement runs backwards, even if its call asked to go back: such a call passes
over nothing. -/
theorem start_le_stop_of_mem_skips {calls : List Call} {span : Span} (h : span ∈ skips calls) :
    span.start ≤ span.stop := by
  obtain ⟨m, -, h_span⟩ := List.mem_filterMap.1 h
  obtain ⟨h_start, h_stop⟩ := Move.start_span h_span
  rw [h_start, h_stop]
  exact le_max_left ..

/-- The spans of the replacements do not overlap and stand in the order of the source, since moves
do. -/
theorem pairwise_skips (calls : List Call) :
    (skips calls).Pairwise fun a b => a.stop ≤ b.start := by
  refine List.pairwise_filterMap.2 ((pairwise_moves 0 calls).imp fun h_le a ha b hb => ?_)
  rw [(Move.start_span ha).2, (Move.start_span hb).1]
  exact h_le

/-- The spans of the replacements lie ahead of where the calls start. -/
theorem allFrom_filterMap_moves (position : Nat) (calls : List Call) :
    Span.AllFrom position ((moves position calls).filterMap Move.span?) := by
  intro span h
  obtain ⟨m, hm, h_span⟩ := List.mem_filterMap.1 h
  rw [(Move.start_span h_span).1]
  exact le_start_of_mem_moves hm

/-- **Whatever the calls, they make a splice of the source**: what they replace was ahead. -/
theorem finish_performAll (source : Bytes) (t : Transcript) (calls : List Call) :
    (t.performAll calls).finish source []
      = t.finish source ((moves t.position calls).filterMap Move.span?) := by
  induction calls generalizing t with
  | nil => rfl
  | cons call calls ih =>
    refine (ih (t.perform call)).trans ?_
    -- the first call has done its own span, and those of the others lie ahead of it
    rw [position_perform, finish_perform t call (allFrom_filterMap_moves _ calls), moves,
      List.filterMap_cons]
    cases (⟨t.position, call⟩ : Move).span? <;> rfl

/-- What a transcript holds, followed by what is left of the source, is the source with its
replacements. -/
theorem bytes_after (source : Bytes) (calls : List Call) :
    (after calls).bytes source ++ source.drop (after calls).position
      = Rewrite.splice source 0 (skips calls) :=
  finish_performAll source empty calls

/-! ### Calls without texts -/

/-- A call without its text goes as far as with it. -/
theorem Call.offset_blank (call : Call) : call.blank.offset = call.offset := by
  cases call <;> rfl

/-- The texts make no difference to where a transcript stands. -/
theorem position_blank (calls : List Call) :
    (after (calls.map Call.blank)).position = (after calls).position := by
  simp [position_after, furthest, Function.comp_def, Call.offset_blank]

/-- They make none to where a call finds it. -/
theorem moves_blank (position : Nat) (calls : List Call) : moves position (calls.map Call.blank)
    = (moves position calls).map fun m => ⟨m.start, m.call.blank⟩ := by
  induction calls generalizing position with
  | nil => rfl
  | cons call calls ih =>
    rw [List.map_cons, moves, moves, List.map_cons, Call.offset_blank, ih]

/-- Nor do they to which spans are replaced. -/
theorem skips_blank (calls : List Call) :
    skips (calls.map Call.blank) = (skips calls).map Span.blank := by
  rw [skips, skips, moves_blank, List.filterMap_map, List.map_filterMap]
  congr 1
  funext m
  obtain ⟨start, call⟩ := m
  cases call <;> rfl

/-- Without the texts, the octets of the stretches are left. This is how what is kept is told from
what is put in, though both are octets of the result. -/
theorem bytes_blank (source : Bytes) (calls : List Call) :
    (after (calls.map Call.blank)).bytes source
      = (after calls).stretches.flatMap fun s => (source.drop s.1).take (s.2 - s.1) := by
  rw [bytes, pieces_after, moves_blank, stretches_after, List.filterMap_eq_flatMap_toList,
    List.flatMap_map, List.flatMap_assoc, List.flatMap_assoc]
  congr 1
  -- move by move: a copy adds the octets of its stretch, a replacement without its text adds none
  funext m
  obtain ⟨start, call⟩ := m
  cases call with
  | copyTo offset =>
    simp only [Move.pieces, Move.stretch?, Call.blank]
    split <;> rfl
  | replace text offset => rfl

/-- **What the stretches hold**, and what is not yet dealt with, is what no replacement has passed
over. -/
theorem octets_after (source : Bytes) (calls : List Call) :
    ((after calls).stretches.flatMap fun s => (source.drop s.1).take (s.2 - s.1))
        ++ source.drop (after calls).position = Rewrite.uncovered source (skips calls) := by
  -- a splice whose spans get nothing in their place leaves what they do not cover
  have h_kept := @Rewrite.splice_blank source _ _ (allFrom_filterMap_moves 0 calls)
    (fun _ => start_le_stop_of_mem_skips) (pairwise_skips calls)
  rw [← bytes_blank, ← position_blank, bytes_after, skips_blank, skips, h_kept, List.drop_zero]
  rfl

/-- **Every transcript accounts for the source**, whatever calls are made on it and in whatever
order. Offsets may lie behind the transcript or past the end of the source: a call that is asked to
go back stays where it is, and the source gives no octets where it has none. What there is and what
is missing are both read off the moves that the calls have made (`moves`), which follow one another
without a gap. -/
theorem isAccount_after (calls : List Call) : IsAccount calls (after calls) where
  position_eq := position_after calls
  pieces_eq := pieces_after calls
  texts_eq := texts_after calls
  stretches_apart := pairwise_stretches calls
  stretches_within _ h := bounds_of_mem_stretches h
  absent_iff offset h := by
    rw [absent_iff_exists_move (h.trans_eq (position_after calls)), exists_move_iff]
  octets_eq source := octets_after source calls

/-- Behind the position, and past the end of a short source. -/
example : (after [.copyTo 2, .replace "X" 1, .copyTo 1, .replace "Y" 4, .copyTo 9]).pieces
    = [.copied 0 2, .inserted "X", .inserted "Y", .copied 4 9] := by
  decide

end Transcript

end DeclarationBundle
