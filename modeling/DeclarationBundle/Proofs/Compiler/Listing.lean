import Mathlib
import DeclarationBundle.Compiler.Layout
import DeclarationBundle.Compiler.Listing
import DeclarationBundle.Proofs.Path.NormalForm

/-!
# Reading a plain listing

A compiler without anything to say prints the files of its program one a line. If each of them can
stand on a line of its own (`Listing.IsFileLine`), reading gives them back as they are, in order and
with nothing else: `Listing.read_of_isPrinted`.

* `Text.splitLines_join` and `Text.splitLines_intercalate` take the lines apart, whether or not the
  last one is ended.
* `Listing.isDiagnosticLine_of_fileError?` says which lines are taken for diagnostics about a file.
-/

namespace DeclarationBundle

/-! ### Lines -/

namespace Text

/-- A character that ends no line is added to the line under way. -/
theorem linesFrom_cons {c : Char} (h : isLineBreak c = false) (current rest : List Char) :
    linesFrom current (c :: rest) = linesFrom (c :: current) rest := by
  -- a pair of carriage return and line feed is no exception, as both of them end lines
  have h_return : c ≠ '\r' := fun h_c => absurd (h_c ▸ h) (by decide)
  rw [linesFrom]
  · rw [if_neg (by simp [h])]
  · exact fun _ h_c _ => h_return h_c

/-- Characters that end no line are added to the line under way. -/
theorem linesFrom_append {chars : List Char} (h : ∀ c ∈ chars, isLineBreak c = false)
    (current rest : List Char) :
    linesFrom current (chars ++ rest) = linesFrom (chars.reverse ++ current) rest := by
  induction chars generalizing current with
  | nil => rfl
  | cons c chars ih =>
    obtain ⟨h_c, h_chars⟩ := List.forall_mem_cons.1 h
    rw [List.cons_append, linesFrom_cons h_c, ih h_chars]
    simp

/-- A line that a line feed ends. -/
theorem linesFrom_append_newline {chars : List Char} (h : ∀ c ∈ chars, isLineBreak c = false)
    (rest : List Char) : linesFrom [] (chars ++ '\n' :: rest) = chars :: linesFrom [] rest := by
  rw [linesFrom_append h, List.append_nil]
  show (chars.reverse.reverse :: linesFrom [] rest) = _
  rw [List.reverse_reverse]

/-- A last line that nothing ends. -/
theorem linesFrom_of_ne_nil {chars : List Char} (h : ∀ c ∈ chars, isLineBreak c = false)
    (h_ne : chars ≠ []) : linesFrom [] chars = [chars] := by
  have h_append := linesFrom_append h [] []
  rw [List.append_nil, List.append_nil] at h_append
  rw [h_append, linesFrom, if_neg (by simpa using h_ne), List.reverse_reverse]

variable {lines : List String}

/-- Texts that are each printed on a line are the lines of what was printed. -/
theorem splitLines_join (h : ∀ line ∈ lines, ∀ c ∈ line.toList, isLineBreak c = false) :
    splitLines (String.join (lines.map (· ++ "\n"))) = lines := by
  unfold splitLines
  induction lines with
  | nil => rfl
  | cons line lines ih =>
    obtain ⟨h_line, h_lines⟩ := List.forall_mem_cons.1 h
    have h_chars : (String.join ((line :: lines).map (· ++ "\n"))).toList
        = line.toList ++ '\n' :: (String.join (lines.map (· ++ "\n"))).toList := by
      simp [String.toList_join]
    -- the first line feed ends the first line, and the others are left
    rw [h_chars, linesFrom_append_newline h_line, List.map_cons, ih h_lines, String.ofList_toList]

/-- The same with nothing after the last line, which must not be empty then. -/
theorem splitLines_intercalate (h : ∀ line ∈ lines, ∀ c ∈ line.toList, isLineBreak c = false)
    (h_ne : ∀ line ∈ lines, line ≠ "") : splitLines ("\n".intercalate lines) = lines := by
  unfold splitLines
  induction lines with
  | nil => rfl
  | cons line lines ih =>
    obtain ⟨h_line, h_lines⟩ := List.forall_mem_cons.1 h
    obtain ⟨h_first, h_others⟩ := List.forall_mem_cons.1 h_ne
    cases lines with
    | nil =>
      -- the last line has no end, so it has to have something in it to count
      have h_chars : line.toList ≠ [] := fun h_nil => h_first (String.toList_eq_nil_iff.1 h_nil)
      rw [String.intercalate_singleton, linesFrom_of_ne_nil h_line h_chars, List.map_singleton,
        String.ofList_toList]
    | cons next lines =>
      have h_chars : ("\n".intercalate (line :: next :: lines)).toList
          = line.toList ++ '\n' :: ("\n".intercalate (next :: lines)).toList := by
        simp [String.intercalate_cons_cons]
      rw [h_chars, linesFrom_append_newline h_line, List.map_cons, ih h_lines h_others,
        String.ofList_toList]

end Text

/-! ### What is taken for a diagnostic -/

namespace Listing

/-- A row of at least one digit. -/
def IsNumeral (digits : List Char) : Prop :=
  digits ≠ [] ∧ ∀ c ∈ digits, Text.isDigit c = true

/-- **A line of the form of a diagnostic about a file**: some text, then the line and the column,
and after them the code and the message. -/
def IsDiagnosticLine (line : List Char) : Prop :=
  ∃ file row column code message, file ≠ [] ∧ IsNumeral row ∧ IsNumeral column ∧ IsNumeral code ∧
    line = file ++ "(".toList ++ row ++ ",".toList ++ column ++ "): error TS".toList ++ code ++
      ": ".toList ++ message

/-- A line of that form has a bracket in it, so that most paths are told from it at a glance. -/
theorem mem_of_isDiagnosticLine {line : List Char} (h : IsDiagnosticLine line) : '(' ∈ line := by
  obtain ⟨file, row, column, code, message, -, -, -, -, rfl⟩ := h
  simp

/-- What is found after a text stands behind it. -/
theorem eq_append_of_after? {start : String} {text rest : List Char}
    (h : after? start text = some rest) : text = start.toList ++ rest := by
  unfold after? at h
  split at h
  · next h_prefix =>
    obtain ⟨more, rfl⟩ := List.isPrefixOf_iff_prefix.1 h_prefix
    cases h
    rw [← String.length_toList, List.drop_left]
  · cases h

/-- The digits that are found are a numeral, and what is left stands behind it. -/
theorem eq_append_of_digits? {text digits rest : List Char}
    (h : digits? text = some (digits, rest)) : IsNumeral digits ∧ text = digits ++ rest := by
  unfold digits? at h
  simp only at h
  split at h
  · cases h
  · next h_some =>
    cases h
    exact ⟨⟨by simpa using h_some, fun c h_c => List.mem_takeWhile_imp h_c⟩,
      (List.prefix_iff_eq_append.1 (List.takeWhile_prefix _)).symm⟩

/-- What is taken for a code and a message stands between the words that belong to them. -/
theorem eq_append_of_error? {text code message : List Char}
    (h : error? text = some (code, message)) :
    IsNumeral code ∧ text = "error TS".toList ++ code ++ ": ".toList ++ message := by
  simp only [error?, bind, Option.bind_eq_some_iff, Prod.exists] at h
  obtain ⟨rest, h_start, code, rest', h_code, message, h_message, h_eq⟩ := h
  cases h_eq
  obtain ⟨h_numeral, rfl⟩ := eq_append_of_digits? h_code
  refine ⟨h_numeral, ?_⟩
  rw [eq_append_of_after? h_start, eq_append_of_after? h_message]
  simp only [List.append_assoc]

/-- What is taken for a place, a code and a message stands between the signs that belong to them. -/
theorem eq_append_of_place? {text row column code message : List Char}
    (h : place? text = some (row, column, code, message)) :
    IsNumeral row ∧ IsNumeral column ∧ IsNumeral code ∧
      text = "(".toList ++ row ++ ",".toList ++ column ++ "): error TS".toList ++ code ++
        ": ".toList ++ message := by
  simp only [place?, bind, Option.bind_eq_some_iff, Prod.exists] at h
  obtain ⟨rest₁, h_open, row, rest₂, h_row, rest₃, h_comma, column, rest₄, h_column, rest₅, h_close,
    code, message, h_error, h_eq⟩ := h
  cases h_eq
  obtain ⟨h_row_numeral, rfl⟩ := eq_append_of_digits? h_row
  obtain ⟨h_column_numeral, rfl⟩ := eq_append_of_digits? h_column
  obtain ⟨h_code, rfl⟩ := eq_append_of_error? h_error
  refine ⟨h_row_numeral, h_column_numeral, h_code, ?_⟩
  rw [eq_append_of_after? h_open, eq_append_of_after? h_comma, eq_append_of_after? h_close]
  simp

/-- Only lines of that form are taken for diagnostics about a file. -/
theorem isDiagnosticLine_of_fileError? {line : List Char} {file row column code message : List Char}
    (h : fileError? line = some (file, row, column, code, message)) : IsDiagnosticLine line := by
  -- on the line: the name of the file is as short as it can be
  induction line generalizing file with
  | nil => cases h
  | cons c rest ih =>
    rw [fileError?] at h
    split at h
    · next found h_place =>
      cases h
      -- a place follows right after this character, so the name ends here
      obtain ⟨h_row, h_column, h_code, h_rest⟩ := eq_append_of_place? h_place
      exact ⟨[c], row, column, code, message, List.cons_ne_nil _ _, h_row, h_column, h_code,
        by simp only [h_rest, List.cons_append, List.nil_append, List.append_assoc]⟩
    · -- no place follows here, so the name of the file goes on
      obtain ⟨⟨front, found⟩, h_found, h_eq⟩ := Option.map_eq_some_iff.1 h
      cases h_eq
      obtain ⟨file, row, column, code, message, -, h_row, h_column, h_code, h_rest⟩ := ih h_found
      exact ⟨c :: file, row, column, code, message, List.cons_ne_nil _ _, h_row, h_column, h_code,
        by simp only [h_rest, List.cons_append, List.append_assoc]⟩

/-! ### Lines that name a file -/

/-- **A path that can stand on a line of its own**: it is absolute and in normal form, has the
ending of a source, breaks no line and is not of the form of a diagnostic about a file. -/
structure IsFileLine (line : String) : Prop where
  isRooted : Path.IsRooted line
  ending : ∃ extension ∈ Layout.declarationExtensions, Text.endsWith line extension.1 = true
  noBreak : ∀ c ∈ line.toList, Text.isLineBreak c = false
  noDiagnostic : ¬ IsDiagnosticLine line.toList

/-- The ending of a source is one of those that a file of a program can have. -/
theorem fst_mem_programSuffixes :
    ∀ extension ∈ Layout.declarationExtensions, extension.1 ∈ programSuffixes := by
  decide

/-- No such ending has a blank at its end. -/
theorem any_getLast?_not_isBlank : ∀ extension ∈ Layout.declarationExtensions,
    extension.1.toList.getLast?.any (!Text.isBlank ·) = true := by
  decide

variable {line : String}

/-- It begins with a slash. -/
theorem IsFileLine.exists_cons (h : IsFileLine line) : ∃ rest, line.toList = '/' :: rest := by
  obtain ⟨names, -, rfl⟩ := h.isRooted.exists_eq_rooted
  exact ⟨("/".intercalate names).toList, by simp [Path.rooted]⟩

/-- It ends with a letter. -/
theorem IsFileLine.exists_concat (h : IsFileLine line) :
    ∃ front last, line.toList = front ++ [last] ∧ Text.isBlank last = false := by
  obtain ⟨extension, h_mem, h_ends⟩ := h.ending
  obtain ⟨front, rfl⟩ := Text.endsWith_iff.1 h_ends
  obtain ⟨last, h_last, h_blank⟩ :=
    (Option.any_eq_true ..).1 (any_getLast?_not_isBlank extension h_mem)
  obtain ⟨init, h_chars⟩ := List.getLast?_eq_some_iff.1 h_last
  exact ⟨front.toList ++ init, last, by simp [h_chars], by simpa using h_blank⟩

/-- Nothing is stripped from a line that names a file. -/
theorem IsFileLine.strip_eq (h : IsFileLine line) : Text.strip line = line := by
  obtain ⟨rest, h_slash⟩ := h.exists_cons
  obtain ⟨front, last, h_chars, h_last⟩ := h.exists_concat
  apply String.toList_inj.1
  -- blanks are dropped at either end up to the slash and the letter, which are none
  unfold Text.strip Text.trim
  rw [Text.toList_dropEndWhile, Text.toList_dropWhile, h_slash,
    List.dropWhile_cons_of_neg (by decide), ← h_slash, h_chars, List.reverse_append,
    List.reverse_singleton, List.singleton_append, List.dropWhile_cons_of_neg (by simp [h_last])]
  simp

/-- Wherever the compiler was run, the file is the one that the line names: it is absolute. -/
theorem IsFileLine.resolve_eq (h : IsFileLine line) (cwd : String) : resolve cwd line = line := by
  obtain ⟨names, -, rfl⟩ := h.isRooted.exists_eq_rooted
  unfold resolve Path.absolute Path.join
  rw [if_pos (Path.isAbsolute_rooted names), h.isRooted.2]

/-- The line has an ending that a file of a program can have. -/
theorem IsFileLine.any_programSuffixes (h : IsFileLine line) :
    programSuffixes.any (Text.endsWith line) = true := by
  obtain ⟨extension, h_mem, h_ends⟩ := h.ending
  exact List.any_eq_true.2 ⟨extension.1, fst_mem_programSuffixes extension h_mem, h_ends⟩

/-- **Such a line is read as the file that it names.** -/
theorem IsFileLine.classify_eq (h : IsFileLine line) (cwd : String) :
    Line.classify cwd line = .ok (.file line) := by
  obtain ⟨rest, h_slash⟩ := h.exists_cons
  have h_ne : line ≠ "" := by
    rintro rfl
    cases h_slash
  -- the one form that could be mistaken for a path is excluded
  have h_fileError : fileError? line.toList = none := by
    cases h_some : fileError? line.toList with
    | none => rfl
    | some found => exact absurd (isDiagnosticLine_of_fileError? h_some) h.noDiagnostic
  -- a diagnostic about no file begins with a word, not with a slash
  have h_error : error? line.toList = none := by
    rw [h_slash]
    rfl
  have h_blank : (line.toList.head?.map Text.isBlank).getD false = false := by
    rw [h_slash]
    rfl
  unfold Line.classify
  simp only [h.strip_eq, if_neg h_ne, h_blank, Bool.false_eq_true, if_false, h_fileError, h_error,
    h.any_programSuffixes, if_true, h.resolve_eq]

/-! ### Messages of several lines -/

/-- A line that goes on with a message is added to the last diagnostic, after a line feed. -/
theorem continueLast_concat (before : List Diagnostic) (d : Diagnostic) (text : String) :
    continueLast (before ++ [d]) text
      = before ++ [{ d with message := d.message ++ "\n" ++ text }] := by
  simp [continueLast]

/-- A line that is added to a message comes before the lines that are added later. -/
theorem intercalate_message_cons (message text : String) (texts : List String) :
    "\n".intercalate ((message ++ "\n" ++ text) :: texts)
      = "\n".intercalate (message :: text :: texts) := by
  cases texts <;> simp [String.intercalate_cons_cons, String.append_assoc]

/-! ### Listings -/

/-- **Some lines are printed**, the last of which may be left without an end. -/
def IsPrinted (lines : List String) (output : String) : Prop :=
  output = String.join (lines.map (· ++ "\n")) ∨ output = "\n".intercalate lines

/-- The lines of what was printed are the files, whether or not the last line is ended: no file is
an empty line. -/
theorem splitLines_of_isPrinted {files : List String} {output : String}
    (h : ∀ file ∈ files, IsFileLine file) (h_output : IsPrinted files output) :
    Text.splitLines output = files := by
  have h_break := fun file h_mem => (h file h_mem).noBreak
  rcases h_output with rfl | rfl
  · exact Text.splitLines_join h_break
  · refine Text.splitLines_intercalate h_break fun file h_mem h_empty => ?_
    obtain ⟨rest, h_slash⟩ := (h file h_mem).exists_cons
    rw [h_empty] at h_slash
    cases h_slash

/-- Lines that name files are added as files, in order, and nothing else comes of them. -/
theorem addAll_files {cwd : String} {files : List String} (h : ∀ file ∈ files, IsFileLine file)
    (listing : Listing) :
    addAll cwd listing files = .ok { listing with files := listing.files ++ files } := by
  induction files generalizing listing with
  | nil => simp [addAll]
  | cons file files ih =>
    obtain ⟨h_file, h_files⟩ := List.forall_mem_cons.1 h
    rw [addAll, h_file.classify_eq]
    simp only [add, ih h_files, List.append_assoc, List.singleton_append]

/-- **Files that are printed one a line are read back**, and nothing else is. -/
theorem read_of_isPrinted {cwd output : String} {files : List String}
    (h : ∀ file ∈ files, IsFileLine file) (h_output : IsPrinted files output) :
    read cwd output = .ok ⟨files, [], []⟩ := by
  unfold read
  rw [splitLines_of_isPrinted h h_output, addAll_files h]
  rfl

end Listing

end DeclarationBundle
