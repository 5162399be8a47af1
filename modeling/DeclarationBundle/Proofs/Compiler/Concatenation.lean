import DeclarationBundle.Proofs.Compiler.Listing
import DeclarationBundle.Proofs.Path.Trail

/-!
# Listings that are printed in parts

What a compiler prints is read line by line, and all that is carried from one line to the next is
the last diagnostic, which indented lines go on with. So a listing can be read in parts, if the
indented lines that go on with a diagnostic of the part before are added to it. These are not only
the ones that a part begins with: no line ends a message but the next diagnostic
(`Listing.not_forall_read_append`).

* `Text.splitLines_append` takes the lines of two parts apart.
* `Listing.classify_cases` is what a line can be, `Listing.foldl_add` what some lines add to a
  listing.
* `Listing.Accounts` says that no line goes unaccounted for, and `Listing.exists_read_append_eq`
  that a listing can be read in parts.
-/

namespace DeclarationBundle

/-! ### Lines -/

namespace Text

/-- A text after which a new line begins. -/
def EndsLine (text : List Char) : Prop :=
  text = [] ∨ text.getLast? = some '\n'

/-- What is left of such a text without its first character is one, or that character was the line
feed. -/
theorem EndsLine.of_cons {c : Char} {text : List Char} (h : EndsLine (c :: text)) :
    EndsLine text ∧ (text = [] → c = '\n') := by
  have h_last := h.resolve_left (List.cons_ne_nil c text)
  cases text with
  | nil => exact ⟨.inl rfl, fun _ => by simpa using h_last⟩
  | cons d text => exact ⟨.inr (by simpa using h_last), fun h_nil => by cases h_nil⟩

/-- What follows the end of a line is taken apart by itself. -/
theorem linesFrom_append_of_endsLine {text : List Char} (h : EndsLine text) {current : List Char}
    (h_current : text = [] → current = []) (rest : List Char) :
    linesFrom current (text ++ rest) = linesFrom current text ++ linesFrom [] rest := by
  -- the cases are those of taking lines apart: an end, a pair of return and feed, a single break,
  -- any other character
  fun_induction linesFrom current text with
  | case1 current h_empty =>
    rw [List.isEmpty_iff.1 h_empty]
    rfl
  | case2 current h_some => exact absurd (List.isEmpty_iff.2 (h_current rfl)) h_some
  | case3 current text ih =>
    exact congrArg (current.reverse :: ·) (ih h.of_cons.1.of_cons.1 fun _ => rfl)
  | case4 current c text h_pair h_break ih =>
    -- nor does the break make a pair with what follows, as it is a line feed then
    have h_single : ∀ more, c = '\r' → text ++ rest = '\n' :: more → False := by
      rintro more rfl h_more
      cases text with
      | nil => exact absurd (h.of_cons.2 rfl) (by decide)
      | cons d text => exact h_pair text rfl (by rw [(List.cons.inj h_more).1])
    rw [List.cons_append, linesFrom]
    · rw [if_pos h_break, ih h.of_cons.1 fun _ => rfl, List.cons_append]
    · exact h_single
  | case5 current c text h_pair h_break ih =>
    rw [Bool.not_eq_true] at h_break
    rw [List.cons_append, linesFrom_cons h_break]
    refine ih h.of_cons.1 fun h_nil => absurd h_break ?_
    rw [h.of_cons.2 h_nil]
    decide

/-- **The lines of a text and of what comes after them**, on a line of its own. -/
theorem splitLines_append {a : String} (h : a = "" ∨ endsWith a "\n" = true) (b : String) :
    splitLines (a ++ b) = splitLines a ++ splitLines b := by
  have h_ends : EndsLine a.toList := by
    rcases h with rfl | h
    · exact .inl rfl
    · obtain ⟨front, rfl⟩ := endsWith_iff.1 h
      exact .inr (by simp)
  unfold splitLines
  rw [String.toList_append, linesFrom_append_of_endsLine h_ends (fun _ => rfl), List.map_append]

end Text

/-- The diagnostic with some lines more in its message. -/
def Diagnostic.continued (d : Diagnostic) (texts : List String) : Diagnostic :=
  { d with message := "\n".intercalate (d.message :: texts) }

namespace Listing

/-- A line begins with a blank. -/
def beginsBlank (line : String) : Bool :=
  (line.toList.head?.map Text.isBlank).getD false

/-- A line that holds something and begins with a blank. -/
def isIndented (line : String) : Bool :=
  Text.strip line != "" && beginsBlank line

/-- A line that holds something and does not begin with a blank. -/
def isPlain (line : String) : Bool :=
  Text.strip line != "" && !beginsBlank line

/-- The rows of digits that are read as the numbers of a line. -/
def numerals (line : List Char) : List (List Char) :=
  match fileError? line with
  | some (_, row, column, code, _) => [code, row, column]
  | none =>
    match error? line with
    | some (code, _) => [code]
    | none => []

/-- **No number of an output is too long** to be read. -/
def HasShortNumbers (output : String) : Prop :=
  ∀ line ∈ Text.splitLines output, isPlain line = true →
    ∀ digits ∈ numerals line.toList, digits.length ≤ Json.maxDigits

instance : DecidablePred HasShortNumbers := fun output =>
  inferInstanceAs (Decidable (∀ line ∈ Text.splitLines output, isPlain line = true →
    ∀ digits ∈ numerals line.toList, digits.length ≤ Json.maxDigits))

variable {cwd text : String} {line : Line}

/-- A numeral that is not too long has a value. -/
theorem toNumber_of_length_le {digits : List Char} (h : digits.length ≤ Json.maxDigits) :
    toNumber digits = .ok (Text.ofDigits digits) :=
  if_neg (Nat.not_lt.2 h)

/-- What comes of two steps came of the second, after the first. -/
theorem exists_of_bind_eq_ok {ε α β : Type} {x : Except ε α} {f : α → Except ε β} {b : β}
    (h : (x >>= f) = .ok b) : ∃ a, x = .ok a ∧ f a = .ok b := by
  cases x with
  | error e => cases h
  | ok a => exact ⟨a, rfl, h⟩

/-- **What a line can be.** -/
theorem classify_cases (h : Line.classify cwd text = .ok line) :
    (Text.strip text = "" ∧ line = .blank) ∨
    (isIndented text = true ∧ line = .continuation (Text.stripEnd text)) ∨
    isPlain text = true ∧
      ((∃ d, line = .diagnostic d ∧ ∀ name ∈ d.file, ∃ path, name = resolve cwd path) ∨
        (∃ path, line = .file (resolve cwd path)) ∨ line = .unrecognised text) := by
  unfold Line.classify at h
  simp only at h
  split at h
  · next h_blank =>
    cases h
    exact .inl ⟨h_blank, rfl⟩
  · next h_some =>
    split at h
    · next h_begins =>
      cases h
      exact .inr (.inl ⟨by simp [isIndented, beginsBlank, h_some, h_begins], rfl⟩)
    · next h_begins =>
      refine .inr (.inr ⟨by simpa [isPlain, beginsBlank, h_some] using h_begins, ?_⟩)
      split at h
      · -- a diagnostic about a file, once its three numbers are read
        obtain ⟨code, -, h⟩ := exists_of_bind_eq_ok h
        obtain ⟨row, -, h⟩ := exists_of_bind_eq_ok h
        obtain ⟨column, -, h⟩ := exists_of_bind_eq_ok h
        cases h
        exact .inl ⟨_, rfl, by simp⟩
      · split at h
        · obtain ⟨code, -, h⟩ := exists_of_bind_eq_ok h
          cases h
          exact .inl ⟨_, rfl, by simp⟩
        · split at h
          · cases h
            exact .inr (.inl ⟨_, rfl⟩)
          · cases h
            exact .inr (.inr rfl)

/-- A line without a number that is too long is something. -/
theorem exists_classify_eq_ok (cwd : String) (h : isPlain text = true →
      ∀ digits ∈ numerals text.toList, digits.length ≤ Json.maxDigits) :
    ∃ line, Line.classify cwd text = .ok line := by
  unfold Line.classify
  simp only
  split
  · exact ⟨_, rfl⟩
  · next h_some =>
    split
    · exact ⟨_, rfl⟩
    · next h_begins =>
      -- a line with a number in it does not begin with a blank
      have h_short := h (by simpa [isPlain, beginsBlank, h_some] using h_begins)
      unfold numerals at h_short
      split
      · next h_error =>
        rw [h_error] at h_short
        simp only [List.forall_mem_cons] at h_short
        obtain ⟨h_code, h_row, h_column, -⟩ := h_short
        rw [toNumber_of_length_le h_code, toNumber_of_length_le h_row,
          toNumber_of_length_le h_column]
        exact ⟨_, rfl⟩
      · next h_none =>
        rw [h_none] at h_short
        split
        · next h_error =>
          simp only [h_error, List.forall_mem_cons] at h_short
          rw [toNumber_of_length_le h_short.1]
          exact ⟨_, rfl⟩
        · split
          · exact ⟨_, rfl⟩
          · exact ⟨_, rfl⟩

/-! ### What lines add to a listing -/

/-- The file that a line lists. -/
def Line.file? : Line → Option String
  | .file path => some path
  | _ => none

/-- The diagnostic that a line begins. -/
def Line.diagnostic? : Line → Option Diagnostic
  | .diagnostic d => some d
  | _ => none

/-- The complaint about a line. -/
def Line.warning? : Line → Option String
  | .unrecognised text => some s!"Ignoring unrecognized tsc output: {text}"
  | _ => none

/-- The lines that go on with the diagnostic before, if there is one. -/
def strays : List Line → List String
  | [] => []
  | .continuation text :: lines => text :: strays lines
  | .diagnostic _ :: _ => []
  | _ :: lines => strays lines

/-- The diagnostics of some lines, each with the lines that go on with it. -/
def diagnosticsOf : List Line → List Diagnostic
  | [] => []
  | .diagnostic d :: lines => d.continued (strays lines) :: diagnosticsOf lines
  | _ :: lines => diagnosticsOf lines

/-- A diagnostic that nothing goes on with stays as it is. -/
theorem continued_nil (d : Diagnostic) : d.continued [] = d := by
  simp [Diagnostic.continued]

/-- Some diagnostics, the last of which goes on with some lines. -/
def continueAll (diagnostics : List Diagnostic) (texts : List String) : List Diagnostic :=
  diagnostics.modifyLast (·.continued texts)

/-- It is the last diagnostic that goes on. -/
theorem continueAll_concat (before : List Diagnostic) (d : Diagnostic) (texts : List String) :
    continueAll (before ++ [d]) texts = before ++ [d.continued texts] :=
  List.modifyLast_concat _ d before

/-- Without further lines, nothing changes. -/
theorem continueAll_nil (diagnostics : List Diagnostic) :
    continueAll diagnostics [] = diagnostics := by
  rcases List.eq_nil_or_concat' diagnostics with rfl | ⟨before, d, rfl⟩
  · rfl
  · rw [continueAll_concat, continued_nil]

/-- One line is added after the other. -/
theorem continueAll_continueLast (diagnostics : List Diagnostic) (text : String)
    (texts : List String) :
    continueAll (continueLast diagnostics text) texts
      = continueAll diagnostics (text :: texts) := by
  rcases List.eq_nil_or_concat' diagnostics with rfl | ⟨before, d, rfl⟩
  · rfl
  · rw [continueLast_concat, continueAll_concat, continueAll_concat, Diagnostic.continued,
      intercalate_message_cons]
    rfl

/-- **What some lines add to a listing.** -/
theorem foldl_add (listing : Listing) (lines : List Line) :
    lines.foldl add listing = ⟨listing.files ++ lines.filterMap Line.file?,
      continueAll listing.diagnostics (strays lines) ++ diagnosticsOf lines,
      listing.warnings ++ lines.filterMap Line.warning?⟩ := by
  induction lines generalizing listing with
  | nil => simp [strays, diagnosticsOf, continueAll_nil]
  | cons line lines ih =>
    rw [List.foldl_cons, ih]
    cases line with
    | blank => rfl
    | continuation text =>
      simp only [add, continueAll_continueLast]
      rfl
    | diagnostic d =>
      -- the lines that follow go on with this one, not with the one before
      simp only [add, continueAll_concat, strays, diagnosticsOf, continueAll_nil, List.append_assoc,
        List.singleton_append]
      rfl
    | file path =>
      simp only [add, List.append_assoc, List.singleton_append]
      rfl
    | unrecognised text =>
      simp only [add, List.append_assoc, List.singleton_append]
      rfl

/-- **Texts are read as lines**, one for one. -/
def AreRead (cwd : String) (texts : List String) (lines : List Line) : Prop :=
  List.Forall₂ (fun text line => Line.classify cwd text = .ok line) texts lines

/-- **To read lines is to read each of them** and then to add what they are. So what a line is does
not depend on the lines before it; only where it goes does. -/
theorem addAll_eq_ok_iff {texts : List String} {start listing : Listing} :
    addAll cwd start texts = .ok listing ↔
      ∃ lines, AreRead cwd texts lines ∧ listing = lines.foldl add start := by
  induction texts generalizing start with
  | nil =>
    constructor
    · intro h
      cases h
      exact ⟨[], .nil, rfl⟩
    · rintro ⟨lines, h_read, rfl⟩
      cases h_read
      rfl
  | cons text texts ih =>
    rw [addAll]
    constructor
    · intro h
      cases h_line : Line.classify cwd text with
      | error e =>
        rw [h_line] at h
        cases h
      | ok line =>
        rw [h_line] at h
        obtain ⟨lines, h_read, h_listing⟩ := ih.1 h
        exact ⟨line :: lines, .cons h_line h_read, h_listing⟩
    · rintro ⟨_, h_read, h_listing⟩
      cases h_read with
      | cons h_line h_read =>
        rw [h_line]
        exact ih.2 ⟨_, h_read, h_listing⟩

/-- Lines whose numbers are not too long can all be read. -/
theorem exists_areRead {texts : List String} (h : ∀ text ∈ texts, isPlain text = true →
      ∀ digits ∈ numerals text.toList, digits.length ≤ Json.maxDigits) (cwd : String) :
    ∃ lines, AreRead cwd texts lines := by
  induction texts with
  | nil => exact ⟨[], .nil⟩
  | cons text texts ih =>
    obtain ⟨h_text, h_texts⟩ := List.forall_mem_cons.1 h
    obtain ⟨line, h_line⟩ := exists_classify_eq_ok cwd h_text
    obtain ⟨lines, h_lines⟩ := ih h_texts
    exact ⟨line :: lines, .cons h_line h_lines⟩

/-- **An output without a number that is too long is read**, and gives what its lines add to
nothing. -/
theorem exists_read_eq_ok {output : String} (h : HasShortNumbers output) (cwd : String) :
    ∃ lines, AreRead cwd (Text.splitLines output) lines ∧ read cwd output = .ok
      ⟨lines.filterMap Line.file?, diagnosticsOf lines, lines.filterMap Line.warning?⟩ := by
  obtain ⟨lines, h_lines⟩ := exists_areRead h cwd
  refine ⟨lines, h_lines, addAll_eq_ok_iff.2 ⟨lines, h_lines, ?_⟩⟩
  rw [foldl_add]
  rfl

/-! ### What becomes of each line -/

section Read

variable {texts : List String} {lines : List Line}

/-- A line that adds one entry to one of the lists of a listing. -/
inductive Line.IsEntry : Line → Prop where
  | file (path : String) : IsEntry (.file path)
  | diagnostic (d : Diagnostic) : IsEntry (.diagnostic d)
  | unrecognised (text : String) : IsEntry (.unrecognised text)

/-- **Every line is accounted for.** -/
structure Accounts (cwd output : String) (listing : Listing) : Prop where
  /-- Each line that holds something and does not begin with a blank is one entry of one of the
  three lists, in the order of the lines, and nothing else is. The message of a diagnostic may go
  on. -/
  exists_lines : ∃ lines, AreRead cwd ((Text.splitLines output).filter isPlain) lines ∧
    (∀ line ∈ lines, line.IsEntry) ∧
    listing.files = lines.filterMap Line.file? ∧
    List.Forall₂ (fun d d' => ∃ texts, d' = d.continued texts) (lines.filterMap Line.diagnostic?)
      listing.diagnostics ∧
    listing.warnings = lines.filterMap Line.warning?
  /-- The files and those that diagnostics are about are given by absolute paths in normal form. -/
  isAbsolute : Path.isAbsolute cwd = true →
    ∀ name ∈ listing.files ++ listing.diagnostics.filterMap (·.file),
      Path.isAbsolute name = true ∧ Path.normalise name = name

/-- Lines that are blank or indented are no entries. -/
theorem AreRead.exists_entries (h : AreRead cwd texts lines) :
    ∃ entries, AreRead cwd (texts.filter isPlain) entries ∧ (∀ line ∈ entries, line.IsEntry) ∧
      lines.filterMap Line.file? = entries.filterMap Line.file? ∧
      List.Forall₂ (fun d d' => ∃ texts, d' = d.continued texts)
        (entries.filterMap Line.diagnostic?) (diagnosticsOf lines) ∧
      lines.filterMap Line.warning? = entries.filterMap Line.warning? := by
  induction h with
  | nil => exact ⟨[], .nil, by simp, rfl, .nil, rfl⟩
  | @cons text line texts lines h_line h_lines ih =>
    obtain ⟨entries, h_read, h_entries, h_files, h_diagnostics, h_warnings⟩ := ih
    rcases classify_cases h_line with ⟨h_blank, rfl⟩ | ⟨h_indented, rfl⟩ | ⟨h_plain, h_kind⟩
    · rw [List.filter_cons_of_neg (by simp [isPlain, h_blank])]
      exact ⟨entries, h_read, h_entries, h_files, h_diagnostics, h_warnings⟩
    · have h_begins := (Bool.and_eq_true_iff.1 h_indented).2
      rw [List.filter_cons_of_neg (by simp [isPlain, h_begins])]
      exact ⟨entries, h_read, h_entries, h_files, h_diagnostics, h_warnings⟩
    · -- an entry goes to one of the lists, and the other two stay as they are
      rw [List.filter_cons_of_pos h_plain]
      refine ⟨line :: entries, .cons h_line h_read, ?_⟩
      rw [List.forall_mem_cons]
      rcases h_kind with ⟨d, rfl, -⟩ | ⟨path, rfl⟩ | rfl
      · exact ⟨⟨.diagnostic d, h_entries⟩, h_files, .cons ⟨_, rfl⟩ h_diagnostics, h_warnings⟩
      · exact ⟨⟨.file _, h_entries⟩, congrArg (_ :: ·) h_files, h_diagnostics, h_warnings⟩
      · exact ⟨⟨.unrecognised _, h_entries⟩, h_files, h_diagnostics, congrArg (_ :: ·) h_warnings⟩

/-- Every name has been read from the directory that the compiler ran in. -/
theorem AreRead.exists_eq_resolve (h : AreRead cwd texts lines) :
    (∀ name ∈ lines.filterMap Line.file?, ∃ path, name = resolve cwd path) ∧
      ∀ d ∈ diagnosticsOf lines, ∀ name ∈ d.file, ∃ path, name = resolve cwd path := by
  induction h with
  | nil => simp [diagnosticsOf]
  | @cons text line texts lines h_line h_lines ih =>
    obtain ⟨h_files, h_diagnostics⟩ := ih
    rcases classify_cases h_line with
      ⟨-, rfl⟩ | ⟨-, rfl⟩ | ⟨-, ⟨d, rfl, h_names⟩ | ⟨path, rfl⟩ | rfl⟩
    · exact ⟨h_files, h_diagnostics⟩
    · exact ⟨h_files, h_diagnostics⟩
    · exact ⟨h_files, List.forall_mem_cons.2 ⟨h_names, h_diagnostics⟩⟩
    · exact ⟨List.forall_mem_cons.2 ⟨⟨path, rfl⟩, h_files⟩, h_diagnostics⟩
    · exact ⟨h_files, h_diagnostics⟩

/-- Whatever is read accounts for its lines. -/
theorem accounts_of_read_eq_ok {output : String} {listing : Listing}
    (h : read cwd output = .ok listing) : Accounts cwd output listing := by
  obtain ⟨lines, h_lines, rfl⟩ := addAll_eq_ok_iff.1 h
  rw [foldl_add]
  refine ⟨h_lines.exists_entries, fun h_cwd name h_name => ?_⟩
  obtain ⟨h_files, h_diagnostics⟩ := h_lines.exists_eq_resolve
  -- a name in a listing was read from a line, or belongs to a diagnostic that was
  have h_resolve : ∃ path, name = resolve cwd path := by
    rcases List.mem_append.1 h_name with h_name | h_name
    · exact h_files name h_name
    · obtain ⟨d, h_d, h_file⟩ := List.mem_filterMap.1 h_name
      exact h_diagnostics d h_d name h_file
  obtain ⟨path, rfl⟩ := h_resolve
  exact ⟨Path.isAbsolute_absolute h_cwd path, Path.normalise_normalise _⟩

/-! ### Reading in parts -/

/-- A line that begins a diagnostic. -/
def beginsDiagnostic (cwd line : String) : Bool :=
  match Line.classify cwd line with
  | .ok (.diagnostic _) => true
  | _ => false

/-- **The indented lines of an output before its first diagnostic**, without the blanks they end
in. -/
def straysIn (cwd output : String) : List String :=
  (((Text.splitLines output).takeWhile (!beginsDiagnostic cwd ·)).filter isIndented).map
    Text.stripEnd

/-- The lines that go on with a diagnostic before can be told from their text: they are the indented
ones before the next diagnostic. -/
theorem AreRead.strays_eq (h : AreRead cwd texts lines) : strays lines
    = ((texts.takeWhile (!beginsDiagnostic cwd ·)).filter isIndented).map Text.stripEnd := by
  induction h with
  | nil => rfl
  | @cons text line texts lines h_line h_lines ih =>
    -- whether a diagnostic begins can be told from what the line is read as
    have h_begins : beginsDiagnostic cwd text = line.diagnostic?.isSome := by
      unfold beginsDiagnostic
      rw [h_line]
      cases line <;> rfl
    by_cases h_diagnostic : line.diagnostic?.isSome = true
    · -- nothing that comes later belongs to the diagnostic before
      rw [List.takeWhile_cons_of_neg (by simp [h_begins, h_diagnostic])]
      cases line with
      | diagnostic d => rfl
      | blank | continuation _ | file _ | unrecognised _ => cases h_diagnostic
    · rw [List.takeWhile_cons_of_pos (by simp [h_begins, h_diagnostic])]
      rcases classify_cases h_line with ⟨h_blank, rfl⟩ | ⟨h_indented, rfl⟩ | ⟨h_plain, h_kind⟩
      · rw [List.filter_cons_of_neg (by simp [isIndented, h_blank])]
        exact ih
      · rw [List.filter_cons_of_pos h_indented]
        exact congrArg (Text.stripEnd text :: ·) ih
      · have h_not : ¬ isIndented text = true := by
          have h_begins := (Bool.and_eq_true_iff.1 h_plain).2
          simpa [isIndented] using fun _ => h_begins
        rw [List.filter_cons_of_neg h_not, ← ih]
        rcases h_kind with ⟨d, rfl, -⟩ | ⟨path, rfl⟩ | rfl
        · exact absurd rfl h_diagnostic
        · rfl
        · rfl

end Read

/-- **A listing can be read in parts.** If the first part is empty or ends a line, the files, the
diagnostics and the complaints of the parts come one after the other, but for the last diagnostic of
the first part, which goes on with the indented lines that come before the first diagnostic of the
second. Every line of either part is accounted for. -/
theorem exists_read_append_eq {a b : String} (h_end : a = "" ∨ Text.endsWith a "\n" = true)
    (ha : HasShortNumbers a) (hb : HasShortNumbers b) (cwd : String) :
    ∃ first second, read cwd a = .ok first ∧ read cwd b = .ok second ∧
      Accounts cwd a first ∧ Accounts cwd b second ∧
      read cwd (a ++ b) = .ok ⟨first.files ++ second.files,
        continueAll first.diagnostics (straysIn cwd b) ++ second.diagnostics,
        first.warnings ++ second.warnings⟩ := by
  obtain ⟨as, h_as, h_first⟩ := exists_read_eq_ok ha cwd
  obtain ⟨bs, h_bs, h_second⟩ := exists_read_eq_ok hb cwd
  refine ⟨_, _, h_first, h_second, accounts_of_read_eq_ok h_first, accounts_of_read_eq_ok h_second,
    ?_⟩
  -- the lines of both parts are those of the first and then those of the second
  have h_both : AreRead cwd (Text.splitLines (a ++ b)) (as ++ bs) := by
    rw [Text.splitLines_append h_end]
    exact List.rel_append h_as h_bs
  refine addAll_eq_ok_iff.2 ⟨as ++ bs, h_both, ?_⟩
  rw [List.foldl_append, foldl_add, foldl_add, straysIn, ← h_bs.strays_eq]
  rfl

/-- A part that ends in a diagnostic, and one that goes on with it behind the name of a file. -/
theorem exists_read_append_eq_behind :
    let a := "/w.ts\nerror TS5023: Unknown option.\n"
    let b := "x.ts\n\n  That is all.\t\n/y.ts(2,3): error TS2304: Cannot find.\n\tMore.\nodd\n"
    ∃ first second, read "/work" a = .ok first ∧ read "/work" b = .ok second ∧
      Accounts "/work" a first ∧ Accounts "/work" b second ∧
      read "/work" (a ++ b) = .ok ⟨first.files ++ second.files,
        continueAll first.diagnostics ["  That is all."] ++ second.diagnostics,
        first.warnings ++ second.warnings⟩ := by
  intro a b
  have h_strays : straysIn "/work" b = ["  That is all."] := by decide +kernel
  rw [← h_strays]
  exact exists_read_append_eq (.inr (by decide +kernel)) (by decide +kernel) (by decide +kernel) _

/-- **The lines that a part begins with are not all that goes on with a diagnostic before it**: the
name of a file does not end a message. -/
theorem not_forall_read_append :
    ¬ ∀ (cwd a b : String) (first second : Listing), (a = "" ∨ Text.endsWith a "\n" = true) →
      HasShortNumbers a → HasShortNumbers b → read cwd a = .ok first →
      addAll cwd .empty ((Text.splitLines b).dropWhile (!isPlain ·)) = .ok second →
      read cwd (a ++ b) = .ok ⟨first.files ++ second.files,
        continueAll first.diagnostics
          ((((Text.splitLines b).takeWhile (!isPlain ·)).filter isIndented).map Text.stripEnd)
            ++ second.diagnostics,
        first.warnings ++ second.warnings⟩ := by
  intro h
  -- the line behind the file goes on with the diagnostic, though the part does not begin with it
  have h_read := h "/work" "error TS1: m\n" "/x.ts\n  more\n"
    ⟨[], [⟨1, "m", none, 0, 0, .emit⟩], []⟩ ⟨["/x.ts"], [], []⟩ (by decide +kernel)
    (by decide +kernel) (by decide +kernel) (by decide +kernel) (by decide +kernel)
  exact absurd h_read (by decide +kernel)

end Listing

end DeclarationBundle
