import DeclarationBundle.Proofs.Text.Lines

/-!
# Indentation, undone and followed

What becomes of a text that is indented, seen from both ends.

* `Text.unindentLines?` takes the indentation away again, and finds the text as it was if the
  indentation shares no character with the line end (`Text.unindentLines?_indentLines`). The lines
  of the indented text are then the lines of the text (`Text.cut_indentLines`): no line end arises
  or goes away.
* `Text.lineStarts` lists the offsets at which indentation is put in. They lie right after line ends
  (`Text.opensAt_of_mem_lineStarts`), and a part of the text keeps its characters exactly if none
  lies inside it (`Text.standing_eq_self_iff`). This holds for every line end and every indentation.
-/

namespace DeclarationBundle.Text

/-! ### Taking the indentation away -/

/-- `s` without the text `start` that it begins with. -/
def dropStart? (start s : String) : Option String :=
  if startsWith s start then some (drop s start.length) else none

/-- `s` without the text `tail` that it ends in. -/
def dropTail? (tail s : String) : Option String :=
  if endsWith s tail then some (dropEnd s tail.length) else none

/-- A line without its indentation, of which an empty line has none. -/
def unindentLine? (indent line : String) : Option String :=
  if line = "" then some "" else dropStart? indent line

/-- The lines of a text, all but the first without their indentation. -/
def unindentOthers? (indent : String) : List String → Option (List String)
  | [] => some []
  | first :: others => (others.mapM (unindentLine? indent)).map (first :: ·)

/-- **A text with the indentation taken from every line but the first**, unless it is empty. There
is no such text if a line lacks the indentation. -/
def unindentLines? (eol indent text : String) : Option String :=
  (unindentOthers? indent (cut eol text)).map eol.intercalate

/-- What is put before a text can be taken away again. -/
theorem dropStart?_append (start rest : String) : dropStart? start (start ++ rest) = some rest := by
  unfold dropStart?
  rw [if_pos (startsWith_iff.2 ⟨rest, rfl⟩)]
  exact congrArg some (String.toList_inj.1 (by simp [← String.length_toList]))

/-- So can what is put after it. -/
theorem dropTail?_append (front tail : String) : dropTail? tail (front ++ tail) = some front := by
  unfold dropTail?
  rw [if_pos (endsWith_iff.2 ⟨front, rfl⟩)]
  exact congrArg some (String.toList_inj.1 (by simp [← String.length_toList]))

/-- A line loses the indentation it got. An empty line got none, and no other becomes empty by
it. -/
theorem unindentLine?_indentLine (indent line : String) :
    unindentLine? indent (indentLine indent line) = some line := by
  unfold unindentLine? indentLine
  by_cases h_line : line = ""
  · simp [h_line]
  · have h_some : indent ++ line ≠ "" := by simp [h_line]
    rw [if_neg h_line, if_neg h_some, dropStart?_append]

/-- Line by line, indentation is taken back. -/
theorem unindentOthers?_indentOthers (indent : String) (lines : List String) :
    unindentOthers? indent (indentOthers indent lines) = some lines := by
  cases lines with
  | nil => rfl
  | cons first others =>
    -- the first line was not indented, and each of the others loses what it got
    have h_others : (others.map (indentLine indent)).mapM (unindentLine? indent) = some others := by
      induction others with
      | nil => rfl
      | cons line others ih =>
        rw [List.map_cons, List.mapM_cons, unindentLine?_indentLine, ih]
        rfl
    rw [indentOthers, unindentOthers?, h_others]
    rfl

section Clear

variable {eol : String} {piece rest : List Char}

/-- No line end begins in a piece without any, even if one follows the piece. -/
theorem not_isPrefix_append_eol (h : IsUnbordered eol) (h_clear : ¬ eol.toList <:+: piece)
    (h_ne : piece ≠ []) (rest : List Char) :
    ¬ eol.toList <+: piece ++ (eol.toList ++ rest) := by
  intro h_start
  -- the line end would lie within the piece, or reach beyond it
  rcases List.prefix_or_prefix_of_prefix h_start (List.prefix_append piece _) with h_in | h_over
  · exact h_clear h_in.isInfix
  · -- what of it lies beyond the piece would be the end and the beginning of a line end
    obtain ⟨tail, h_eol⟩ := h_over
    have h_length : piece.length + tail.length = eol.toList.length := by
      rw [← h_eol, List.length_append]
    have h_some : tail ≠ [] := by
      rintro rfl
      rw [List.append_nil] at h_eol
      exact h_clear (h_eol ▸ List.infix_rfl)
    have h_piece := List.length_pos_iff.2 h_ne
    rw [← h_eol, List.prefix_append_right_inj, h_eol] at h_start
    have h_begins : tail <+: eol.toList :=
      List.prefix_of_prefix_length_le h_start (List.prefix_append ..) (by omega)
    refine h tail.length (by omega) (List.length_pos_iff.2 h_some) ?_
    rw [← List.prefix_iff_eq_take.1 h_begins]
    exact ⟨piece, h_eol⟩

/-- A piece without a line end is cut off at the line end that follows it, and not before. -/
theorem cutFrom_append_eol (h_eol : eol.toList ≠ []) (h : IsUnbordered eol)
    (h_clear : ¬ eol.toList <:+: piece) (rest : List Char) :
    cutFrom eol.toList 0 (piece ++ (eol.toList ++ rest)) = piece :: cutFrom eol.toList 0 rest := by
  induction piece with
  | nil => exact cutFrom_eol_append h_eol rest
  | cons c piece ih =>
    -- the induction is on the piece: at none of its characters does a line end begin
    have h_start := not_isPrefix_append_eol h h_clear (List.cons_ne_nil c piece) rest
    rw [List.cons_append] at h_start ⊢
    have h_later : ¬ eol.toList <:+: piece := fun h_in =>
      h_clear (h_in.trans (List.suffix_cons c piece).isInfix)
    rw [cutFrom_cons h_start, ih h_later, List.modifyHead_cons]

/-- A text without a line end is one piece. -/
theorem cutFrom_of_clear {eol piece : List Char} (h_clear : ¬ eol <:+: piece) :
    cutFrom eol 0 piece = [piece] := by
  induction piece with
  | nil => rfl
  | cons c piece ih =>
    rw [List.infix_cons_iff, not_or] at h_clear
    rw [cutFrom_cons h_clear.1, ih h_clear.2, List.modifyHead_cons]

/-- **Pieces without a line end are what the text is cut into that they make up.** -/
theorem cutFrom_intercalate (h_eol : eol.toList ≠ []) (h : IsUnbordered eol)
    {pieces : List (List Char)} (h_ne : pieces ≠ [])
    (h_clear : ∀ piece ∈ pieces, ¬ eol.toList <:+: piece) :
    cutFrom eol.toList 0 (eol.toList.intercalate pieces) = pieces := by
  induction pieces with
  | nil => exact absurd rfl h_ne
  | cons piece pieces ih =>
    obtain ⟨h_piece, h_pieces⟩ := List.forall_mem_cons.1 h_clear
    -- after the last piece there is no line end
    by_cases h_last : pieces = []
    · rw [h_last, List.intercalate_singleton, cutFrom_of_clear h_piece]
    · have h_split : eol.toList.intercalate (piece :: pieces)
          = piece ++ (eol.toList ++ eol.toList.intercalate pieces) := by
        rw [← List.append_nil piece, intercalate_append_cons, intercalate_nil_cons h_last,
          List.append_nil]
      rw [h_split, cutFrom_append_eol h_eol h h_piece, ih h_last h_pieces]

/-- No line end arises where text is put before a piece that shares no character with one. -/
theorem not_isInfix_append {eol front piece : List Char} (h_eol : eol ≠ [])
    (h_apart : ∀ c ∈ front, c ∉ eol) (h_clear : ¬ eol <:+: piece) :
    ¬ eol <:+: front ++ piece := by
  induction front with
  | nil => exact h_clear
  | cons c front ih =>
    obtain ⟨h_c, h_front⟩ := List.forall_mem_cons.1 h_apart
    rw [List.cons_append, List.infix_cons_iff, not_or]
    -- a line end that began there would have the character for its first
    refine ⟨fun h_start => h_c ?_, ih h_front⟩
    obtain ⟨d, tail, rfl⟩ := List.exists_cons_of_ne_nil h_eol
    rw [List.cons_prefix_cons] at h_start
    rw [h_start.1]
    exact List.mem_cons_self ..

end Clear

section Unindent

variable {eol indent : String}

/-- **The lines of an indented text are the lines of the text, indented.** -/
theorem cut_indentLines (h_ne : eol ≠ "") (h : IsUnbordered eol)
    (h_apart : ∀ c ∈ indent.toList, c ∉ eol.toList) (text : String) :
    cut eol (indentLines eol indent text) = indentOthers indent (cut eol text) := by
  have h_eol : eol.toList ≠ [] := mt String.toList_eq_nil_iff.1 h_ne
  obtain ⟨first, others, h_cut, -⟩ := exists_cutFrom_eq h_eol text.toList
  have h_clear := fun piece (h_mem : piece ∈ first :: others) =>
    not_isInfix_of_mem_cutFrom h_eol text.toList (h_cut ▸ h_mem)
  obtain ⟨h_first, h_others⟩ := List.forall_mem_cons.1 h_clear
  -- no line end arises by the indentation, so that the pieces stay pieces
  have h_lines : ∀ line ∈ others.map fun line => (indentLine indent (String.ofList line)).toList,
      ¬ eol.toList <:+: line := by
    intro line h_mem
    obtain ⟨line, h_line, rfl⟩ := List.mem_map.1 h_mem
    unfold indentLine
    split
    · simpa using h_ne
    · rw [String.toList_append, String.toList_ofList]
      exact not_isInfix_append h_eol h_apart (h_others line h_line)
  unfold cut indentLines
  rw [String.toList_ofList, indentFrom_eq_intercalate h_eol h indent h_cut,
    cutFrom_intercalate h_eol h (List.cons_ne_nil _ _) (List.forall_mem_cons.2 ⟨h_first, h_lines⟩),
    h_cut, List.map_cons, List.map_cons, indentOthers, List.map_map, List.map_map]
  simp [Function.comp_def]

/-- **Indentation can be taken back.** -/
theorem unindentLines?_indentLines (h_ne : eol ≠ "") (h : IsUnbordered eol)
    (h_apart : ∀ c ∈ indent.toList, c ∉ eol.toList) (text : String) :
    unindentLines? eol indent (indentLines eol indent text) = some text := by
  unfold unindentLines?
  rw [cut_indentLines h_ne h h_apart, unindentOthers?_indentOthers, Option.map_some,
    (isCut_cut h_ne text).joined]

end Unindent

/-! ### Following a part of a text -/

/-- The offsets of the lines that indentation indents, in a text that itself begins at `offset` and
of which the next `pending` characters finish a line end. -/
def lineStartsFrom (eol : List Char) : Nat → Nat → List Char → List Nat
  | _, _, [] => []
  | offset, pending, c :: rest =>
    match if pending = 0 && opensLine eol (c :: rest) then eol.length else pending with
    | 0 => lineStartsFrom eol (offset + 1) 0 rest
    | 1 => (offset + 1) :: lineStartsFrom eol (offset + 1) 0 rest
    | more + 2 => lineStartsFrom eol (offset + 1) (more + 1) rest

/-- **The offsets of the lines that indentation indents.** -/
def lineStarts (eol text : String) : List Nat :=
  lineStartsFrom eol.toList 0 0 text.toList

/-- **A line that holds something begins** at an offset, right after a line end. -/
def OpensAt (eol text : String) (offset : Nat) : Prop :=
  ∃ before line, text = before ++ eol ++ line ∧ offset = (before ++ eol).length ∧ line ≠ "" ∧
    ¬ startsWith line eol = true

/-- A text that begins at `offset`, with the indentation put in at some places. -/
def insertAt (indent : List Char) (places : List Nat) : Nat → List Char → List Char
  | _, [] => []
  | offset, c :: rest =>
    if offset ∈ places then indent ++ c :: insertAt indent places (offset + 1) rest
    else c :: insertAt indent places (offset + 1) rest

/-- Where the character at `offset` stands once the text is indented. -/
def shifted (eol indent text : String) (offset : Nat) : Nat :=
  offset + indent.length * (List.range (offset + 1)).countP (· ∈ lineStarts eol text)

/-- **How a part of a text stands in the indented text**: with the indentation before each line that
begins in it. A line that begins with the part is indented before it. -/
def standing (eol indent text : String) (offset : Nat) (part : String) : String :=
  String.ofList <|
    insertAt indent.toList ((lineStarts eol text).filter (offset < ·)) offset part.toList

section Insert

variable {eol indent : List Char} {places : List Nat}

/-- What is put in is put in on both sides of a cut, the second part beginning where the first
ends. -/
theorem insertAt_append (first second : List Char) (offset : Nat) :
    insertAt indent places offset (first ++ second)
      = insertAt indent places offset first
        ++ insertAt indent places (offset + first.length) second := by
  induction first generalizing offset with
  | nil => rfl
  | cons c first ih =>
    rw [List.cons_append, insertAt, insertAt, ih, List.length_cons,
      Nat.add_assoc offset 1, Nat.add_comm 1]
    split <;> simp

/-- Only the places from the offset on matter. -/
theorem insertAt_congr {others : List Nat} {offset : Nat}
    (h : ∀ place, offset ≤ place → (place ∈ places ↔ place ∈ others)) (text : List Char) :
    insertAt indent places offset text = insertAt indent others offset text := by
  induction text generalizing offset with
  | nil => rfl
  | cons c text ih =>
    rw [insertAt, insertAt, ih fun place h_place => h place (by omega)]
    simp only [h offset le_rfl]

/-- Indentation at the beginning of a text stands before all of it. -/
theorem insertAt_of_mem {others : List Nat} {offset : Nat} {text : List Char}
    (h_mem : offset ∈ places) (h_not : offset ∉ others) (h_ne : text ≠ [])
    (h : ∀ place, offset < place → (place ∈ places ↔ place ∈ others)) :
    insertAt indent places offset text = indent ++ insertAt indent others offset text := by
  obtain ⟨c, text, rfl⟩ := List.exists_cons_of_ne_nil h_ne
  rw [insertAt, insertAt, if_pos h_mem, if_neg h_not, insertAt_congr fun place h_place =>
    h place h_place]

/-- Each place within the text adds the length of the indentation, once. -/
theorem length_insertAt (offset : Nat) (text : List Char) :
    (insertAt indent places offset text).length
      = text.length + indent.length * (List.range' offset text.length).countP (· ∈ places) := by
  induction text generalizing offset with
  | nil => rfl
  | cons c text ih =>
    rw [insertAt, List.length_cons, List.range'_succ, List.countP_cons]
    split
    · next h => simp [h, ih, Nat.mul_add]; omega
    · next h => simp [h, ih]; omega

/-- Nothing changes exactly where no place lies, or if the indentation is empty. -/
theorem insertAt_eq_self_iff {offset : Nat} {text : List Char} :
    insertAt indent places offset text = text ↔
      indent = [] ∨ ∀ place ∈ places, ¬ (offset ≤ place ∧ place < offset + text.length) := by
  constructor
  · intro h
    -- if nothing changed then nothing was added, and so no place lies in the text
    have h_length := congrArg List.length h
    rw [length_insertAt, Nat.add_eq_left, Nat.mul_eq_zero, List.length_eq_zero_iff,
      List.countP_eq_zero] at h_length
    refine h_length.imp_right fun h_none place h_mem h_in => ?_
    exact h_none place (List.mem_range'_1.2 h_in) (by simpa using h_mem)
  · intro h
    induction text generalizing offset with
    | nil => rfl
    | cons c text ih =>
      -- the other way, by induction: each character is checked in turn
      have h_rest := @ih (offset + 1) <| h.imp_right fun h_none place h_mem h_in =>
        h_none place h_mem ⟨by omega, by rw [List.length_cons]; omega⟩
      rw [insertAt, h_rest]
      split
      · next h_mem =>
        rcases h with rfl | h_none
        · rfl
        · exact absurd ⟨le_rfl, by simp⟩ (h_none offset h_mem)
      · rfl

/-! ### Where lines start -/

/-- An empty line end opens no line, for it would be followed by itself. -/
theorem ne_nil_of_opensLine {text : List Char} (h : opensLine eol text = true) : eol ≠ [] := by
  rintro rfl
  obtain ⟨line, -, -, h_line⟩ := opensLine_iff.1 h
  exact h_line List.nil_prefix

/-- **A text opens a line or not**, which is all that indentation depends on. -/
theorem opensLine_induction (eol : List Char) {motive : List Char → Prop} (nil : motive [])
    (opens : ∀ line, opensLine eol (eol ++ line) = true → motive line → motive (eol ++ line))
    (cons : ∀ c rest, ¬ opensLine eol (c :: rest) = true → motive rest → motive (c :: rest))
    (text : List Char) : motive text := by
  induction h_length : text.length using Nat.strong_induction_on generalizing text with
  | h length ih =>
    subst h_length
    cases text with
    | nil => exact nil
    | cons c rest =>
      by_cases h_opens : opensLine eol (c :: rest) = true
      · -- the line end takes a character at least, so the line is shorter
        have h_pos := List.length_pos_iff.2 (ne_nil_of_opensLine h_opens)
        obtain ⟨line, h_line, -⟩ := opensLine_iff.1 h_opens
        rw [h_line] at h_opens ih ⊢
        exact opens line h_opens (ih _ (by rw [List.length_append]; omega) line rfl)
      · exact cons c rest h_opens (ih _ (Nat.lt_succ_self _) rest rfl)

/-- A line starts where the line end under way is finished. -/
theorem lineStartsFrom_append {front : List Char} (h : front ≠ []) (offset : Nat)
    (rest : List Char) : lineStartsFrom eol offset front.length (front ++ rest)
      = (offset + front.length) :: lineStartsFrom eol (offset + front.length) 0 rest := by
  induction front generalizing offset with
  | nil => exact absurd rfl h
  | cons c front ih =>
    cases front with
    | nil => simp [lineStartsFrom]
    | cons d front =>
      -- one character of several that are pending is passed over
      have h_step : lineStartsFrom eol offset (front.length + 2) (c :: (d :: front ++ rest))
          = lineStartsFrom eol (offset + 1) (front.length + 1) (d :: front ++ rest) := by
        rw [lineStartsFrom]
        simp
      have h_length : offset + (c :: d :: front).length = offset + 1 + (d :: front).length := by
        simp only [List.length_cons]
        omega
      rw [h_length]
      exact h_step.trans (ih (List.cons_ne_nil _ _) (offset + 1))

/-- A line end that opens a line is followed by a start. -/
theorem lineStartsFrom_of_opensLine {line : List Char} (h : opensLine eol (eol ++ line) = true)
    (offset : Nat) : lineStartsFrom eol offset 0 (eol ++ line)
      = (offset + eol.length) :: lineStartsFrom eol (offset + eol.length) 0 line := by
  have h_ne := ne_nil_of_opensLine h
  rw [← lineStartsFrom_append h_ne]
  -- the line end is pending once it has begun
  obtain ⟨c, tail, rfl⟩ := List.exists_cons_of_ne_nil h_ne
  rw [List.cons_append] at h ⊢
  rw [lineStartsFrom, lineStartsFrom, h]
  simp

/-- No line starts after a character that opens none. -/
theorem lineStartsFrom_of_not_opensLine {c : Char} {rest : List Char}
    (h : ¬ opensLine eol (c :: rest) = true) (offset : Nat) :
    lineStartsFrom eol offset 0 (c :: rest) = lineStartsFrom eol (offset + 1) 0 rest := by
  rw [Bool.not_eq_true] at h
  rw [lineStartsFrom, h]
  simp

/-- **A line starts right after a line end** that neither another one nor the end of the text
follows. -/
theorem exists_of_mem_lineStartsFrom {text : List Char} {offset place : Nat}
    (h : place ∈ lineStartsFrom eol offset 0 text) :
    ∃ before line, text = before ++ (eol ++ line) ∧ place = offset + before.length + eol.length ∧
      line ≠ [] ∧ ¬ eol <+: line := by
  induction text using opensLine_induction eol generalizing offset with
  | nil => cases h
  | opens line h_opens ih =>
    rw [lineStartsFrom_of_opensLine h_opens] at h
    rcases List.mem_cons.1 h with rfl | h
    · -- the line that starts here is the one that was opened
      obtain ⟨_, h_eq, h_line⟩ := opensLine_iff.1 h_opens
      rw [← List.append_cancel_left h_eq] at h_line
      exact ⟨[], line, rfl, rfl, h_line⟩
    · obtain ⟨before, later, rfl, rfl, h_later⟩ := ih h
      exact ⟨eol ++ before, later, by simp, by rw [List.length_append]; omega, h_later⟩
  | cons c rest h_closed ih =>
    rw [lineStartsFrom_of_not_opensLine h_closed] at h
    obtain ⟨before, line, rfl, rfl, h_line⟩ := ih h
    exact ⟨c :: before, line, rfl, by rw [List.length_cons]; omega, h_line⟩

/-- A line starts behind the beginning of the text: what is first in it is in no line that is
indented. -/
theorem lt_of_mem_lineStartsFrom {text : List Char} {offset place : Nat}
    (h : place ∈ lineStartsFrom eol offset 0 text) : offset < place := by
  induction text using opensLine_induction eol generalizing offset with
  | nil => cases h
  | opens line h_opens ih =>
    have h_pos := List.length_pos_iff.2 (ne_nil_of_opensLine h_opens)
    rw [lineStartsFrom_of_opensLine h_opens] at h
    rcases List.mem_cons.1 h with rfl | h
    · omega
    · have := ih h
      omega
  | cons c rest h_closed ih =>
    rw [lineStartsFrom_of_not_opensLine h_closed] at h
    exact Nat.lt_of_succ_lt (ih h)

/-- **Indentation is put in where a line starts**, and nowhere else. -/
theorem insertAt_lineStartsFrom (text : List Char) (offset : Nat) :
    insertAt indent (lineStartsFrom eol offset 0 text) offset text
      = indentFrom eol indent 0 text := by
  induction text using opensLine_induction eol generalizing offset with
  | nil => rfl
  | opens line h_opens ih =>
    obtain ⟨_, h_eq, h_line, -⟩ := opensLine_iff.1 h_opens
    rw [← List.append_cancel_left h_eq] at h_line
    have h_later : ∀ place ∈ lineStartsFrom eol (offset + eol.length) 0 line,
        offset + eol.length < place := fun _ => lt_of_mem_lineStartsFrom
    rw [lineStartsFrom_of_opensLine h_opens, indentFrom_of_opensLine h_opens,
      indentFrom_append (ne_nil_of_opensLine h_opens), insertAt_append, ← ih]
    congr 1
    · -- no line starts before the end of the line end
      refine insertAt_eq_self_iff.2 (.inr fun place h_mem h_in => ?_)
      rcases List.mem_cons.1 h_mem with rfl | h_mem
      · omega
      · have := h_later place h_mem
        omega
    · refine insertAt_of_mem (List.mem_cons_self ..) (fun h => ?_) h_line fun place h_place => ?_
      · exact Nat.lt_irrefl _ (h_later _ h)
      · rw [List.mem_cons, or_iff_right (Nat.ne_of_gt h_place)]
  | cons c rest h_closed ih =>
    have h_not : offset ∉ lineStartsFrom eol (offset + 1) 0 rest := fun h =>
      Nat.lt_asymm (lt_of_mem_lineStartsFrom h) (Nat.lt_succ_self _)
    rw [lineStartsFrom_of_not_opensLine h_closed, indentFrom_of_not_opensLine h_closed, insertAt,
      ih, if_neg h_not]

end Insert

section Part

variable {eol indent : String}

/-- Every line that is indented is one that begins right after a line end. -/
theorem opensAt_of_mem_lineStarts {text : String} {offset : Nat}
    (h : offset ∈ lineStarts eol text) : OpensAt eol text offset := by
  obtain ⟨before, line, h_text, rfl, h_line, h_eol⟩ := exists_of_mem_lineStartsFrom h
  -- the same, said of texts
  refine ⟨String.ofList before, String.ofList line, String.toList_inj.1 ?_, ?_, ?_, ?_⟩
  · simp [h_text]
  · simp [← String.length_toList]
  · simpa using h_line
  · rw [startsWith, List.isPrefixOf_iff_prefix, String.toList_ofList]
    exact h_eol

/-- If a line end cannot overlap itself, none is passed over. -/
theorem mem_lineStartsFrom (h : IsUnbordered eol) {line : List Char} (h_line : line ≠ [])
    (h_eol : ¬ eol.toList <+: line) {before text : List Char}
    (h_text : text = before ++ (eol.toList ++ line)) (offset : Nat) :
    offset + before.length + eol.toList.length ∈ lineStartsFrom eol.toList offset 0 text := by
  have h_opens : opensLine eol.toList (eol.toList ++ line) = true :=
    opensLine_iff.2 ⟨line, rfl, h_line, h_eol⟩
  induction text using opensLine_induction eol.toList generalizing before offset with
  | nil =>
    have h_nil := List.append_eq_nil_iff.1 (List.append_eq_nil_iff.1 h_text.symm).2
    exact absurd h_nil.2 h_line
  | opens later h_first ih =>
    rw [lineStartsFrom_of_opensLine h_first]
    rcases List.append_eq_append_iff.1 h_text with ⟨middle, rfl, h_rest⟩ | ⟨middle, h_over, h_rest⟩
    · -- the line end that is looked for comes after the first
      have h_place := ih h_rest (offset + eol.toList.length)
      refine List.mem_cons_of_mem _ ?_
      rw [List.length_append]
      convert h_place using 1
      omega
    · cases before with
      | nil => simp
      | cons c before =>
        -- it would begin inside the first
        by_cases h_middle : middle = []
        · rw [h_middle, List.append_nil] at h_over
          rw [h_middle, List.nil_append] at h_rest
          have h_place := @ih [] h_rest.symm (offset + eol.toList.length)
          refine List.mem_cons_of_mem _ ?_
          rw [h_over] at h_place ⊢
          simpa using h_place
        · have h_proper : middle.length < eol.toList.length := by
            rw [h_over, List.length_append, List.length_cons]
            omega
          exact absurd ⟨line, h_rest⟩
            (not_isPrefix_append h h_middle ⟨c :: before, h_over.symm⟩ h_proper _)
  | cons c rest h_closed ih =>
    rw [lineStartsFrom_of_not_opensLine h_closed]
    cases before with
    | nil =>
      rw [List.nil_append] at h_text
      exact absurd (h_text ▸ h_opens) h_closed
    | cons d before =>
      rw [List.cons_append, List.cons.injEq] at h_text
      have h_place := ih h_text.2 (offset + 1)
      rw [List.length_cons]
      convert h_place using 1
      omega

/-- If a line end cannot overlap itself, each such line is indented. -/
theorem mem_lineStarts_of_opensAt (h : IsUnbordered eol) {text : String} {offset : Nat}
    (h_opens : OpensAt eol text offset) : offset ∈ lineStarts eol text := by
  obtain ⟨before, line, rfl, rfl, h_line, h_eol⟩ := h_opens
  rw [startsWith, List.isPrefixOf_iff_prefix] at h_eol
  -- the same of characters, from the beginning of the text
  have h_chars : (before ++ eol ++ line).toList = before.toList ++ (eol.toList ++ line.toList) := by
    simp
  have h_place :=
    mem_lineStartsFrom h (mt String.toList_eq_nil_iff.1 h_line) h_eol h_chars 0
  simpa [lineStarts, String.length_toList] using h_place

/-- Indentation that belongs before the first character comes before everything else. -/
theorem insertAt_eq_append {indent text : List Char} {places : List Nat} {offset : Nat}
    (h : offset ∈ places → text ≠ []) : insertAt indent places offset text
      = (if offset ∈ places then indent else [])
        ++ insertAt indent (places.filter (offset < ·)) offset text := by
  -- behind the offset the two lists of places agree
  have h_later : ∀ place, offset < place →
      (place ∈ places ↔ place ∈ places.filter (offset < ·)) := by
    simp +contextual
  split
  · next h_mem => exact insertAt_of_mem h_mem (by simp) (h h_mem) h_later
  · next h_not =>
    refine insertAt_congr (fun place h_place => ?_) text
    rcases h_place.eq_or_lt with rfl | h_lt
    · simp [h_not]
    · exact h_later place h_lt

/-- The text goes on where a line starts. -/
theorem lt_length_of_mem_lineStarts {text : String} {offset : Nat}
    (h : offset ∈ lineStarts eol text) : offset < text.length := by
  obtain ⟨before, line, rfl, rfl, h_line, -⟩ := opensAt_of_mem_lineStarts h
  have h_pos : line.length ≠ 0 := by simpa using h_line
  rw [String.length_append (s := before ++ eol)]
  omega

/-- **A part of a text has its place in the indented text.** -/
theorem exists_indentLines_eq (eol indent : String) {text before part after : String}
    (h : text = before ++ part ++ after) :
    ∃ front back, indentLines eol indent text
        = front ++ standing eol indent text before.length part ++ back ∧
      front.length = shifted eol indent text before.length := by
  have h_chars : text.toList = before.toList ++ (part.toList ++ after.toList) := by simp [h]
  -- the text goes on where a line starts, so that indentation at the part has something after it
  have h_some : before.length ∈ lineStarts eol text → part.toList ++ after.toList ≠ [] := by
    intro h_mem h_nil
    have h_lt := lt_length_of_mem_lineStarts h_mem
    rw [← String.length_toList (s := text), h_chars, h_nil, List.append_nil,
      String.length_toList] at h_lt
    exact Nat.lt_irrefl _ h_lt
  have h_body := @insertAt_lineStartsFrom eol.toList indent.toList text.toList 0
  unfold indentLines standing shifted
  rw [← h_body]
  change ∃ front back, String.ofList (insertAt indent.toList (lineStarts eol text) 0 text.toList)
    = _ ∧ _
  generalize lineStarts eol text = places at h_some ⊢
  -- what is put in is split at both ends of the part; indentation right before the part belongs to
  -- what stands in front
  rw [h_chars, insertAt_append, Nat.zero_add, String.length_toList, insertAt_eq_append h_some,
    insertAt_append]
  refine ⟨String.ofList (insertAt indent.toList places 0 before.toList
    ++ (if before.length ∈ places then indent.toList else [])), String.ofList (insertAt
      indent.toList (places.filter (before.length < ·)) (before.length + part.toList.length)
        after.toList), ?_, ?_⟩
  · simp only [← String.ofList_append, List.append_assoc]
  · rw [String.length_ofList, List.length_append, length_insertAt, List.range_succ,
      List.countP_append, List.range_eq_range', String.length_toList, String.length_toList]
    split <;> simp [*, Nat.mul_add, Nat.add_assoc, String.length_toList]

/-- **A part keeps its characters exactly if no line starts inside it**, or if the indentation is
empty. A line that starts with the part is moved as a whole, which leaves the characters as they
are. -/
theorem standing_eq_self_iff {text part : String} {offset : Nat} :
    standing eol indent text offset part = part ↔ indent = "" ∨
      ∀ place ∈ lineStarts eol text, ¬ (offset < place ∧ place < offset + part.length) := by
  unfold standing
  rw [← String.toList_inj, String.toList_ofList, insertAt_eq_self_iff, String.toList_eq_nil_iff]
  refine or_congr_right (forall_congr' fun place => ?_)
  simp only [List.mem_filter, decide_eq_true_eq, String.length_toList]
  constructor
  · exact fun h h_mem h_in => h ⟨h_mem, h_in.1⟩ ⟨h_in.1.le, h_in.2⟩
  · exact fun h h_mem h_in => h h_mem.1 ⟨h_mem.2, h_in.2⟩

/-- A part of a text in which no line end ends keeps its characters. -/
theorem standing_eq_self_of_not_mem {text before part after : String}
    (h : text = before ++ part ++ after) (h_part : ∀ c ∈ eol.toList.getLast?, c ∉ part.toList) :
    standing eol indent text before.length part = part := by
  refine standing_eq_self_iff.2 (.inr fun place h_mem ⟨h_after, h_before⟩ => ?_)
  obtain ⟨front, line, h_line, h_place, -, h_eol⟩ := opensAt_of_mem_lineStarts h_mem
  rcases List.eq_nil_or_concat eol.toList with h_nil | ⟨init, c, h_last⟩
  · -- no line starts after a line end that is empty
    exact h_eol (by simp [startsWith, h_nil])
  · rw [h_last, List.concat_eq_append, List.getLast?_concat] at h_part
    refine h_part c rfl (List.mem_iff_getElem?.2 ⟨place - 1 - before.length, ?_⟩)
    -- the character before the line, read off the text in two ways
    have h_place : place = front.toList.length + init.length + 1 := by
      rw [h_place, String.length_append, ← String.length_toList, ← String.length_toList, h_last]
      simp [Nat.add_assoc]
    have h_c : text.toList[place - 1]? = some c := by
      have h_index : place - 1 = (front.toList ++ init).length := by
        rw [h_place, List.length_append]
        rfl
      rw [h_line, String.toList_append, String.toList_append, h_last, List.concat_eq_append,
        ← List.append_assoc, List.append_assoc, h_index]
      simp
    rw [← h_c, h, String.toList_append, String.toList_append, List.append_assoc,
      List.getElem?_append_right (by rw [String.length_toList]; omega), String.length_toList,
      List.getElem?_append_left (by rw [String.length_toList]; omega)]

end Part

end DeclarationBundle.Text
