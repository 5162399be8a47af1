import Mathlib
import DeclarationBundle.Text.Indent

/-!
# Indentation line by line

A line end may be any text. `Text.cut` cuts a text at its line ends, reading from the left, and
`Text.indentLines_eq_intercalate` says what indentation does to the lines between them: each but the
first gets the indentation unless it is empty, and they are joined as they were.

The two agree on where the line ends are if no line end can begin inside another
(`Text.IsUnbordered`). Otherwise they need not: at a line end that no line follows, indentation
moves on by one character, and the cut by the whole line end.
-/

namespace DeclarationBundle.Text

/-- **A text that cannot overlap itself**: no beginning of it, other than the whole, is an end of it
as well. -/
def IsUnbordered (s : String) : Prop :=
  ∀ n < s.toList.length, 0 < n → ¬ s.toList.take n <:+ s.toList

instance (s : String) : Decidable (IsUnbordered s) :=
  inferInstanceAs (Decidable (∀ n < s.toList.length, 0 < n → ¬ s.toList.take n <:+ s.toList))

/-- The pieces of a text of which the next `pending` characters finish a line end. -/
def cutFrom (eol : List Char) : Nat → List Char → List (List Char)
  | _, [] => [[]]
  | 0, c :: rest =>
    if eol.isPrefixOf (c :: rest) then [] :: cutFrom eol (eol.length - 1) rest
    else (cutFrom eol 0 rest).modifyHead (c :: ·)
  | pending + 1, _ :: rest => cutFrom eol pending rest

/-- **The pieces of a text between its line ends**, from the left. -/
def cut (eol text : String) : List String :=
  (cutFrom eol.toList 0 text.toList).map String.ofList

/-- A line that is not the first. -/
def indentLine (indent line : String) : String :=
  if line = "" then "" else indent ++ line

/-- The lines of a text, all but the first indented. -/
def indentOthers (indent : String) : List String → List String
  | [] => []
  | first :: others => first :: others.map (indentLine indent)

/-- **Some pieces are a text cut at every line end**: the line ends stand between them, and there is
none in any of them. -/
structure IsCut (eol text : String) (pieces : List String) : Prop where
  ne_nil : pieces ≠ []
  joined : eol.intercalate pieces = text
  clear : ∀ piece ∈ pieces, ¬ eol.toList <:+: piece.toList

section Chars

variable {eol indent rest : List Char}

/-! ### Cutting -/

/-- The rest of a line end is passed over. -/
theorem cutFrom_append (front rest : List Char) :
    cutFrom eol front.length (front ++ rest) = cutFrom eol 0 rest := by
  induction front with
  | nil => rfl
  | cons c front ih => exact ih

/-- A line end closes a piece, and after it comes the next. -/
theorem cutFrom_eol_append (h_ne : eol ≠ []) (rest : List Char) :
    cutFrom eol 0 (eol ++ rest) = [] :: cutFrom eol 0 rest := by
  obtain ⟨c, tail, rfl⟩ := List.exists_cons_of_ne_nil h_ne
  have h_start : (c :: tail).isPrefixOf (c :: (tail ++ rest)) = true :=
    List.isPrefixOf_iff_prefix.2 ⟨rest, rfl⟩
  rw [List.cons_append, cutFrom, if_pos h_start]
  -- the first character of the line end is read, and the others are passed over
  exact congrArg ([] :: ·) (cutFrom_append tail rest)

/-- A character that begins no line end belongs to the piece that is under way. -/
theorem cutFrom_cons {c : Char} (h : ¬ eol <+: c :: rest) :
    cutFrom eol 0 (c :: rest) = (cutFrom eol 0 rest).modifyHead (c :: ·) := by
  rw [cutFrom, if_neg (by rwa [List.isPrefixOf_iff_prefix])]

/-- **A text begins with a line end or not**, which is all that a cut depends on. -/
theorem cutFrom_induction {motive : List Char → Prop} (h_ne : eol ≠ []) (nil : motive [])
    (eol_append : ∀ rest, motive rest → motive (eol ++ rest))
    (cons : ∀ c rest, ¬ eol <+: c :: rest → motive rest → motive (c :: rest))
    (text : List Char) : motive text := by
  -- a line end takes a character at least, so what follows it is shorter
  induction h_length : text.length using Nat.strong_induction_on generalizing text with
  | h length ih =>
    subst h_length
    cases text with
    | nil => exact nil
    | cons c rest =>
      by_cases h_start : eol <+: c :: rest
      · obtain ⟨after, h_after⟩ := h_start
        rw [← h_after] at ih ⊢
        have h_pos : 0 < eol.length := List.length_pos_iff.2 h_ne
        exact eol_append after (ih _ (by rw [List.length_append]; omega) after rfl)
      · exact cons c rest h_start (ih _ (Nat.lt_succ_self _) rest rfl)

/-- There is one piece at least, as there is in the empty text. -/
theorem cutFrom_ne_nil (h_ne : eol ≠ []) (text : List Char) : cutFrom eol 0 text ≠ [] := by
  induction text using cutFrom_induction h_ne with
  | nil => simp [cutFrom]
  | eol_append rest ih => simp [cutFrom_eol_append h_ne]
  | cons c rest h_start ih => simpa [cutFrom_cons h_start] using ih

/-- The first piece is empty at a line end and at the end of the text, and nowhere else. -/
theorem exists_cutFrom_eq (h_ne : eol ≠ []) (text : List Char) :
    ∃ first others, cutFrom eol 0 text = first :: others ∧
      (first = [] ↔ text = [] ∨ eol <+: text) := by
  induction text using cutFrom_induction h_ne with
  | nil => exact ⟨[], [], rfl, by simp⟩
  | eol_append rest ih =>
    -- at a line end the piece under way is closed, and nothing is in it
    exact ⟨[], _, cutFrom_eol_append h_ne rest, by simp⟩
  | cons c rest h_start ih =>
    obtain ⟨first, others, h_cut, -⟩ := ih
    -- elsewhere it has a character at least
    refine ⟨c :: first, others, ?_, by simp [h_start]⟩
    rw [cutFrom_cons h_start, h_cut, List.modifyHead_cons]

/-! ### Joining -/

/-- What is put before the first piece is put before the whole. -/
theorem intercalate_append_cons (front first : List Char) (others : List (List Char)) :
    eol.intercalate ((front ++ first) :: others) = front ++ eol.intercalate (first :: others) := by
  cases others with
  | nil => rw [List.intercalate_singleton, List.intercalate_singleton]
  | cons second others => simp [List.intercalate]

/-- An empty first piece leaves its line end at the beginning of the whole. -/
theorem intercalate_nil_cons {pieces : List (List Char)} (h : pieces ≠ []) :
    eol.intercalate ([] :: pieces) = eol ++ eol.intercalate pieces := by
  obtain ⟨first, others, rfl⟩ := List.exists_cons_of_ne_nil h
  simp [List.intercalate]

/-- The pieces, joined by line ends again, are the text. -/
theorem intercalate_cutFrom (h_ne : eol ≠ []) (text : List Char) :
    eol.intercalate (cutFrom eol 0 text) = text := by
  induction text using cutFrom_induction h_ne with
  | nil => simp [cutFrom]
  | eol_append rest ih =>
    rw [cutFrom_eol_append h_ne, intercalate_nil_cons (cutFrom_ne_nil h_ne rest), ih]
  | cons c rest h_start ih =>
    -- the character is the first of the piece that the rest begins with
    obtain ⟨first, others, h_cut, -⟩ := exists_cutFrom_eq h_ne rest
    rw [h_cut] at ih
    rw [cutFrom_cons h_start, h_cut, List.modifyHead_cons, ← ih]
    exact intercalate_append_cons [c] first others

/-- A piece ends before the first line end in it would. -/
theorem not_isInfix_of_mem_cutFrom (h_ne : eol ≠ []) (text : List Char) {piece : List Char}
    (h : piece ∈ cutFrom eol 0 text) : ¬ eol <:+: piece := by
  induction text using cutFrom_induction h_ne generalizing piece with
  | nil =>
    rw [cutFrom, List.mem_singleton] at h
    rwa [h, List.infix_nil]
  | eol_append rest ih =>
    rw [cutFrom_eol_append h_ne] at h
    rcases List.mem_cons.1 h with rfl | h
    · rwa [List.infix_nil]
    · exact ih h
  | cons c rest h_start ih =>
    obtain ⟨first, others, h_cut, -⟩ := exists_cutFrom_eq h_ne rest
    rw [cutFrom_cons h_start, h_cut, List.modifyHead_cons] at h
    rw [h_cut] at ih
    rcases List.mem_cons.1 h with rfl | h
    · rw [List.infix_cons_iff, not_or]
      refine ⟨fun h_first => h_start (h_first.trans ?_), ih (List.mem_cons_self ..)⟩
      -- the first piece is what the text begins with
      rw [List.prefix_cons_inj, ← intercalate_cutFrom h_ne rest, h_cut, ← List.append_nil first,
        intercalate_append_cons, List.append_nil]
      exact List.prefix_append ..
    · exact ih (List.mem_cons_of_mem _ h)

/-! ### Indenting -/

/-- A line opens where a line end is followed by something, and not by a line end. -/
theorem opensLine_iff {text : List Char} :
    opensLine eol text = true ↔ ∃ line, text = eol ++ line ∧ line ≠ [] ∧ ¬ eol <+: line := by
  unfold opensLine
  simp only [Bool.and_eq_true, Bool.not_eq_true', List.isPrefixOf_iff_prefix, ← Bool.not_eq_true,
    List.isEmpty_iff]
  constructor
  · rintro ⟨⟨⟨line, rfl⟩, h_eol⟩, h_line⟩
    rw [List.drop_left] at h_eol h_line
    exact ⟨line, rfl, h_line, h_eol⟩
  · rintro ⟨line, rfl, h_line, h_eol⟩
    rw [List.drop_left]
    exact ⟨⟨List.prefix_append .., h_eol⟩, h_line⟩

/-- A line end under way is finished before anything else. -/
theorem indentFrom_append {front : List Char} (h : front ≠ []) (rest : List Char) :
    indentFrom eol indent front.length (front ++ rest)
      = front ++ (indent ++ indentFrom eol indent 0 rest) := by
  induction front with
  | nil => exact absurd rfl h
  | cons c front ih =>
    -- the indentation comes after the last character that is pending
    cases front with
    | nil => simp [indentFrom]
    | cons d front =>
      have h_step : indentFrom eol indent (front.length + 2) (c :: (d :: front ++ rest))
          = c :: indentFrom eol indent (front.length + 1) (d :: front ++ rest) := by
        rw [indentFrom]
        simp
      exact h_step.trans (congrArg (c :: ·) (ih (List.cons_ne_nil _ _)))

/-- Where a line opens, the whole of the line end is pending. -/
theorem indentFrom_of_opensLine {text : List Char} (h : opensLine eol text = true) :
    indentFrom eol indent 0 text = indentFrom eol indent eol.length text := by
  cases text with
  | nil => rfl
  | cons c rest =>
    rw [indentFrom, indentFrom, h]
    simp

/-- Elsewhere the scan moves on by one character, even inside a line end. -/
theorem indentFrom_of_not_opensLine {c : Char} (h : ¬ opensLine eol (c :: rest) = true) :
    indentFrom eol indent 0 (c :: rest) = c :: indentFrom eol indent 0 rest := by
  rw [Bool.not_eq_true] at h
  rw [indentFrom, h]
  simp

/-- No line end begins inside another. -/
theorem not_isPrefix_append {s : String} (h : IsUnbordered s) {tail : List Char} (h_ne : tail ≠ [])
    (h_tail : tail <:+ s.toList) (h_proper : tail.length < s.toList.length) (rest : List Char) :
    ¬ s.toList <+: tail ++ rest := by
  intro h_start
  -- a line end that begins there would begin with an end of itself
  have h_begins : tail <+: s.toList :=
    List.prefix_of_prefix_length_le (List.prefix_append ..) h_start h_proper.le
  refine h tail.length h_proper (List.length_pos_iff.2 h_ne) ?_
  rwa [← List.prefix_iff_eq_take.1 h_begins]

end Chars

section Unbordered

variable {eol : String} {indent : List Char}

/-- The end of a line end that no line follows is copied as it is. -/
theorem indentFrom_tail_append (h : IsUnbordered eol) {rest : List Char}
    (h_stop : rest = [] ∨ eol.toList <+: rest) {tail : List Char} (h_tail : tail <:+ eol.toList) :
    indentFrom eol.toList indent 0 (tail ++ rest)
      = tail ++ indentFrom eol.toList indent 0 rest := by
  induction tail with
  | nil => rfl
  | cons c tail ih =>
    -- no line opens inside the line end, for it does not overlap itself, and none at its beginning
    have h_closed : ¬ opensLine eol.toList (c :: (tail ++ rest)) = true := by
      intro h_opens
      obtain ⟨line, h_line, h_ne, h_not⟩ := opensLine_iff.1 h_opens
      rcases h_tail.length_le.lt_or_eq with h_proper | h_whole
      · exact not_isPrefix_append h (List.cons_ne_nil _ _) h_tail h_proper rest ⟨line, h_line.symm⟩
      · -- the line end is whole, and what follows it is known
        rw [← h_tail.eq_of_length h_whole, ← List.cons_append, List.append_cancel_left_eq] at h_line
        subst h_line
        rcases h_stop with rfl | h_eol
        · exact h_ne rfl
        · exact h_not h_eol
    rw [List.cons_append, indentFrom_of_not_opensLine h_closed,
      ih ((List.suffix_cons c tail).trans h_tail), List.cons_append]

/-- The first piece of a text stays as it is, and each other is indented unless it is empty. -/
theorem indentFrom_eq_intercalate (h_ne : eol.toList ≠ []) (h : IsUnbordered eol) (indent : String)
    {text first : List Char} {others : List (List Char)}
    (h_cut : cutFrom eol.toList 0 text = first :: others) :
    indentFrom eol.toList indent.toList 0 text = eol.toList.intercalate
      (first :: others.map fun line => (indentLine indent (String.ofList line)).toList) := by
  induction text using cutFrom_induction h_ne generalizing first others with
  | nil =>
    cases h_cut
    rfl
  | eol_append rest ih =>
    rw [cutFrom_eol_append h_ne] at h_cut
    cases h_cut
    obtain ⟨first, others, h_cut, h_first⟩ := exists_cutFrom_eq h_ne rest
    rw [h_cut, List.map_cons, intercalate_nil_cons (List.cons_ne_nil _ _)]
    by_cases h_line : first = []
    · -- no line begins here
      rw [indentFrom_tail_append h (h_first.1 h_line) List.suffix_rfl, ih h_cut, h_line]
      rfl
    · -- the line that begins here is indented
      obtain ⟨h_some, h_eol⟩ := not_or.1 (mt h_first.2 h_line)
      have h_indented : (indentLine indent (String.ofList first)).toList
          = indent.toList ++ first := by
        rw [indentLine, if_neg (by simpa using h_line), String.toList_append, String.toList_ofList]
      rw [indentFrom_of_opensLine (opensLine_iff.2 ⟨rest, rfl, h_some, h_eol⟩),
        indentFrom_append h_ne, ih h_cut, h_indented, intercalate_append_cons]
  | cons c rest h_start ih =>
    obtain ⟨first, others, h_rest, -⟩ := exists_cutFrom_eq h_ne rest
    rw [cutFrom_cons h_start, h_rest, List.modifyHead_cons] at h_cut
    cases h_cut
    have h_closed : ¬ opensLine eol.toList (c :: rest) = true := by
      intro h_opens
      obtain ⟨line, h_line, -⟩ := opensLine_iff.1 h_opens
      exact h_start ⟨line, h_line.symm⟩
    rw [indentFrom_of_not_opensLine h_closed, ih h_rest]
    exact (intercalate_append_cons [c] first _).symm

/-- **The cut from the left is a cut at every line end**, whatever the line end is. -/
theorem isCut_cut (h_ne : eol ≠ "") (text : String) : IsCut eol text (cut eol text) := by
  have h_chars : eol.toList ≠ [] := mt String.toList_eq_nil_iff.1 h_ne
  refine ⟨?_, ?_, ?_⟩
  · simpa [cut] using cutFrom_ne_nil h_chars text.toList
  · apply String.toList_inj.1
    rw [cut, String.toList_intercalate, List.map_map]
    simpa [Function.comp_def] using intercalate_cutFrom h_chars text.toList
  · -- a piece is known by its characters
    intro piece h_mem
    obtain ⟨chars, h_chars_mem, rfl⟩ := List.mem_map.1 h_mem
    rw [String.toList_ofList]
    exact not_isInfix_of_mem_cutFrom h_chars text.toList h_chars_mem

/-- **Indentation goes line by line.** If the line end is not empty and cannot overlap itself, a
text is indented by cutting it at every line end, putting the indentation before each piece but the
first that is not empty, and joining the pieces with the line end again. -/
theorem indentLines_eq_intercalate (h_ne : eol ≠ "") (h : IsUnbordered eol) (indent text : String) :
    IsCut eol text (cut eol text) ∧
      indentLines eol indent text = eol.intercalate (indentOthers indent (cut eol text)) := by
  refine ⟨isCut_cut h_ne text, ?_⟩
  have h_chars : eol.toList ≠ [] := mt String.toList_eq_nil_iff.1 h_ne
  obtain ⟨first, others, h_cut, -⟩ := exists_cutFrom_eq h_chars text.toList
  apply String.toList_inj.1
  rw [indentLines, String.toList_ofList, indentFrom_eq_intercalate h_chars h indent h_cut, cut,
    h_cut, String.toList_intercalate, List.map_cons, indentOthers, List.map_cons, List.map_map,
    List.map_map, String.toList_ofList]
  rfl

/-- A text with an empty line in it and at its end, and a line end of two characters. -/
theorem indentLines_eq_intercalate_crlf :
    indentLines "\r\n" "\t" "a\r\n\r\nb\nc\r\n"
        = "\r\n".intercalate (indentOthers "\t" (cut "\r\n" "a\r\n\r\nb\nc\r\n")) ∧
      indentOthers "\t" (cut "\r\n" "a\r\n\r\nb\nc\r\n") = ["a", "", "\tb\nc", ""] := by
  have h : IsUnbordered "\r\n" := by decide
  exact ⟨(indentLines_eq_intercalate (by decide) h "\t" "a\r\n\r\nb\nc\r\n").2, by decide⟩

/-- A line end that overlaps itself is found in more places than a text is cut at. -/
example : ¬ IsUnbordered "aa" ∧ indentLines "aa" "-" "aaaab" = "aaa-ab" ∧
    "aa".intercalate (indentOthers "-" (cut "aa" "aaaab")) = "aaaa-b" := by
  decide

end Unbordered

end DeclarationBundle.Text
