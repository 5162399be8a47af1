import DeclarationBundle.Proofs.Compiler.Listing

/-!
# Diagnostics are read back

What `Diagnostic.format` prints, `Listing.read` reads: `Listing.read_intercalate_format`. The lines
of a diagnostic (`Diagnostic.printedLines`) are taken one by one. The first gives the diagnostic
with the first line of its message, and each of the others is added to the message.

A line can be cut at every place in it where `(line,column): error TSn: ` stands, and the reader
takes the first. That this is the one that was printed is seen from the parenthesis: a place begins
with one and has no other, so none can begin in the name of the file and end after it
(`Listing.place?_append_eq_none`).
-/

namespace DeclarationBundle

/-! ### Numbers -/

namespace Text

/-- Where the digits that numbers are printed in stand among the characters. -/
theorem bounds_of_isDigit {c : Char} (h : c.isDigit = true) : 48 ≤ c.toNat ∧ c.toNat ≤ 57 := by
  simpa [Char.isDigit, UInt32.le_iff_toNat_le] using h

/-- No such digit ends a line. -/
theorem isLineBreak_of_isDigit {c : Char} (h : c.isDigit = true) : isLineBreak c = false := by
  have h_bounds := bounds_of_isDigit h
  simp only [isLineBreak, Bool.or_eq_false_iff, Bool.and_eq_false_iff, decide_eq_false_iff_not,
    beq_eq_false_iff_ne]
  omega

/-- The digits that numbers are printed in have the values that they are printed for. -/
theorem digit?_of_isDigit {c : Char} (h : c.isDigit = true) :
    digit? c = some (c.toNat - '0'.toNat) := by
  have h_bounds := bounds_of_isDigit h
  have h_first : (48 ≤ c.toNat && c.toNat < 48 + 10) = true := by
    simp only [Bool.and_eq_true, decide_eq_true_eq]
    omega
  have h_find : zeros.find? (fun first => first ≤ c.toNat && c.toNat < first + 10) = some 48 :=
    List.find?_cons_of_pos (l := zeros.tail) h_first
  unfold digit?
  rw [h_find]
  rfl

/-- The value of a number is got back from its digits. -/
theorem ofDigits_toDigits (n : Nat) : ofDigits (Nat.toDigits 10 n) = n := by
  -- both read the digits from the left, and give each of them its value
  have h_digits : ∀ (digits : List Char) (start : Nat), (∀ c ∈ digits, c.isDigit = true) →
      digits.foldl (fun n c => n * 10 + (digit? c).getD 0) start
        = Nat.ofDigitChars 10 digits start := by
    intro digits start h
    unfold Nat.ofDigitChars
    refine List.foldl_ext _ _ _ fun n c h_c => ?_
    rw [digit?_of_isDigit (h c h_c), Option.getD_some, Nat.mul_comm]
  have h_all : ∀ c ∈ Nat.toDigits 10 n, c.isDigit = true := fun c h_c =>
    Nat.isDigit_of_mem_toDigits (by decide) (by decide) h_c
  unfold ofDigits
  rw [h_digits _ _ h_all, Nat.ofDigitChars_ten_toDigits]

end Text

namespace Listing

/-- Every number is printed as at least one digit. -/
theorem isNumeral_toDigits (n : Nat) : IsNumeral (Nat.toDigits 10 n) := by
  refine ⟨Nat.toDigits_ne_nil, fun c h_c => ?_⟩
  unfold Text.isDigit
  rw [Text.digit?_of_isDigit (Nat.isDigit_of_mem_toDigits (by decide) (by decide) h_c)]
  rfl

/-- **A number that can be read**: it is not negative and has not too many digits. -/
def IsReadable (number : Int) : Prop :=
  0 ≤ number ∧ (Nat.toDigits 10 number.toNat).length ≤ Json.maxDigits

instance : DecidablePred IsReadable := fun _ => inferInstanceAs (Decidable (_ ∧ _))

/-- A number that can be read is read back from its digits. -/
theorem IsReadable.toNumber_eq {number : Int} (h : IsReadable number) :
    toNumber (Nat.toDigits 10 number.toNat) = .ok number := by
  unfold toNumber
  rw [if_neg (Nat.not_lt.2 h.2), Text.ofDigits_toDigits, Int.toNat_of_nonneg h.1]

/-- Such a number is printed as its digits, without a sign. -/
theorem IsReadable.toString_eq {number : Int} (h : IsReadable number) :
    (toString number).toList = Nat.toDigits 10 number.toNat := by
  obtain ⟨n, rfl⟩ := Int.eq_ofNat_of_zero_le h.1
  show (toString n).toList = _
  rw [Nat.toString_eq_ofList_toDigits, String.toList_ofList]
  rfl

/-! ### Places -/

/-- What stands behind a text is found there. -/
theorem after?_append (start : String) (rest : List Char) :
    after? start (start.toList ++ rest) = some rest := by
  unfold after?
  rw [if_pos (List.isPrefixOf_iff_prefix.2 (List.prefix_append ..)), ← String.length_toList,
    List.drop_left]

/-- A numeral is found up to where something other than a digit follows. -/
theorem digits?_append {digits rest : List Char} (h : IsNumeral digits)
    (h_rest : rest.head?.any Text.isDigit = false) :
    digits? (digits ++ rest) = some (digits, rest) := by
  -- the digits that are taken end before the first character that is none
  have h_row : (digits ++ rest).takeWhile Text.isDigit = digits := by
    rw [List.takeWhile_append_of_pos h.2]
    cases rest with
    | nil => simp
    | cons c rest => simpa using h_rest
  unfold digits?
  simp only [h_row]
  rw [if_neg (by simpa using h.1), List.drop_left]

/-- A code and a message that are printed are found again. -/
theorem error?_append {code : List Char} (h : IsNumeral code) (message : List Char) :
    error? ("error TS".toList ++ code ++ ": ".toList ++ message) = some (code, message) := by
  have h_code : digits? (code ++ (": ".toList ++ message)) = some (code, ": ".toList ++ message) :=
    digits?_append h rfl
  simp only [error?, List.append_assoc, after?_append, h_code, Option.bind_eq_bind,
    Option.bind_some]

/-- So are a place, a code and a message. The signs between the numbers are no digits, so each
number ends where it was printed to. -/
theorem place?_append {row column code : List Char} (h_row : IsNumeral row)
    (h_column : IsNumeral column) (h_code : IsNumeral code) (message : List Char) :
    place? ("(".toList ++ row ++ ",".toList ++ column ++ "): error TS".toList ++ code ++
      ": ".toList ++ message) = some (row, column, code, message) := by
  have h_error := error?_append h_code message
  have h_split : "): error TS".toList = "): ".toList ++ "error TS".toList := rfl
  have h_columns : ∀ rest, digits? (column ++ ("): ".toList ++ rest))
      = some (column, "): ".toList ++ rest) := fun rest => digits?_append h_column rfl
  have h_rows : ∀ rest, digits? (row ++ (",".toList ++ rest)) = some (row, ",".toList ++ rest) :=
    fun rest => digits?_append h_row rfl
  simp only [List.append_assoc] at h_error
  simp only [place?, h_split, List.append_assoc, after?_append, h_rows, h_columns, h_error,
    Option.bind_eq_bind, Option.bind_some]

/-- **A place stands somewhere in a text**, with an error after it. -/
def HoldsPlace (text : List Char) : Prop :=
  ∃ front row column code message, IsNumeral row ∧ IsNumeral column ∧ IsNumeral code ∧
    text = front ++ "(".toList ++ row ++ ",".toList ++ column ++ "): error TS".toList ++ code ++
      ": ".toList ++ message

/-- A place stands in a text if one is found at the beginning of one of its ends. This is how it can
be decided. -/
theorem holdsPlace_iff {text : List Char} :
    HoldsPlace text ↔ ∃ rest ∈ text.tails, (place? rest).isSome = true := by
  constructor
  · rintro ⟨front, row, column, code, message, h_row, h_column, h_code, rfl⟩
    refine ⟨_, (List.mem_tails ..).2 ⟨front, ?_⟩,
      Option.isSome_of_eq_some (place?_append h_row h_column h_code message)⟩
    simp only [List.append_assoc]
  · rintro ⟨rest, h_mem, h_some⟩
    obtain ⟨front, rfl⟩ := (List.mem_tails ..).1 h_mem
    obtain ⟨⟨row, column, code, message⟩, h_place⟩ := Option.isSome_iff_exists.1 h_some
    obtain ⟨h_row, h_column, h_code, h_rest⟩ := eq_append_of_place? h_place
    refine ⟨front, row, column, code, message, h_row, h_column, h_code, ?_⟩
    simp only [h_rest, List.append_assoc]

instance : DecidablePred HoldsPlace := fun _ => decidable_of_iff' _ holdsPlace_iff

/-- There is no parenthesis among digits. -/
theorem IsNumeral.notMem {digits : List Char} (h : IsNumeral digits) : '(' ∉ digits := by
  intro h_mem
  exact absurd (h.2 '(' h_mem) (by decide)

/-- A place has a parenthesis at its beginning and no other. -/
theorem notMem_of_isNumeral {row column code : List Char} (h_row : IsNumeral row)
    (h_column : IsNumeral column) (h_code : IsNumeral code) :
    '(' ∉ row ++ ",".toList ++ column ++ "): error TS".toList ++ code ++ ": ".toList := by
  simp [h_row.notMem, h_column.notMem, h_code.notMem]

/-- A text that a place stands in from its beginning. -/
theorem holdsPlace_of_append {row column code : List Char} (h_row : IsNumeral row)
    (h_column : IsNumeral column) (h_code : IsNumeral code) (message : List Char) :
    HoldsPlace ('(' :: (row ++ ",".toList ++ column ++ "): error TS".toList ++ code ++
      ": ".toList) ++ message) :=
  ⟨[], row, column, code, message, h_row, h_column, h_code, by simp⟩

/-- A place does not begin where there is no parenthesis. -/
theorem HoldsPlace.of_append {front text : List Char} (h_front : '(' ∉ front)
    (h : HoldsPlace (front ++ text)) : HoldsPlace text := by
  obtain ⟨before, row, column, code, message, h_row, h_column, h_code, h_text⟩ := h
  have h_split : front ++ text = before ++ ('(' :: (row ++ ",".toList ++ column ++
      "): error TS".toList ++ code ++ ": ".toList) ++ message) := by
    rw [h_text]
    simp
  rcases List.append_eq_append_iff.1 h_split with ⟨middle, -, h_text⟩ | ⟨middle, h_more, h_rest⟩
  · exact ⟨middle, row, column, code, message, h_row, h_column, h_code, by rw [h_text]; simp⟩
  · cases middle with
    | nil =>
      rw [List.nil_append] at h_rest
      rw [← h_rest]
      exact holdsPlace_of_append h_row h_column h_code message
    | cons c middle =>
      -- the parenthesis would belong to `front`
      rw [List.cons_append, List.cons_append, List.cons.injEq] at h_rest
      exact absurd (by simp [h_more, ← h_rest.1]) h_front

/-- **A place does not begin in a text that holds none** and go on after it, where the next
parenthesis stands. -/
theorem place?_append_eq_none {text : List Char} (h_text : ¬ HoldsPlace text) (h_ne : text ≠ [])
    (rest : List Char) : place? (text ++ '(' :: rest) = none := by
  rw [Option.eq_none_iff_forall_ne_some]
  rintro ⟨row, column, code, message⟩ h_place
  obtain ⟨h_row, h_column, h_code, h_split⟩ := eq_append_of_place? h_place
  have h_split : text ++ '(' :: rest = '(' :: (row ++ ",".toList ++ column ++
      "): error TS".toList ++ code ++ ": ".toList) ++ message := by
    rw [h_split]
    simp
  rcases List.append_eq_append_iff.1 h_split with ⟨middle, h_place, h_rest⟩ | ⟨middle, rfl, -⟩
  · cases middle with
    | nil =>
      rw [List.append_nil] at h_place
      refine h_text (h_place ▸ ?_)
      simpa using holdsPlace_of_append h_row h_column h_code []
    | cons c middle =>
      -- a second parenthesis would belong to the place
      obtain ⟨first, text, rfl⟩ := List.exists_cons_of_ne_nil h_ne
      rw [List.cons_append, List.cons.injEq] at h_place h_rest
      refine notMem_of_isNumeral h_row h_column h_code ?_
      rw [h_place.2, ← h_rest.1]
      simp
  · exact h_text (holdsPlace_of_append h_row h_column h_code middle)

/-- A character in front of a text does not take a place out of it. -/
theorem HoldsPlace.cons {text : List Char} (h : HoldsPlace text) (c : Char) :
    HoldsPlace (c :: text) := by
  obtain ⟨front, row, column, code, message, h_row, h_column, h_code, rfl⟩ := h
  exact ⟨c :: front, row, column, code, message, h_row, h_column, h_code, by simp⟩

/-- The text before the first place is the name of the file. -/
theorem fileError?_append {file rest : List Char} (h_file : ¬ HoldsPlace file) (h_ne : file ≠ [])
    {found : List Char × List Char × List Char × List Char}
    (h_found : place? ('(' :: rest) = some found) :
    fileError? (file ++ '(' :: rest) = some (file, found) := by
  induction file with
  | nil => exact absurd rfl h_ne
  | cons c file ih =>
    have h_rest : ¬ HoldsPlace file := fun h => h_file (h.cons c)
    rw [List.cons_append, fileError?]
    by_cases h_last : file = []
    · subst h_last
      rw [List.nil_append, h_found]
    · -- no place begins here, so the name of the file goes on
      rw [place?_append_eq_none h_rest h_last, ih h_rest h_last]
      rfl

end Listing

/-! ### Diagnostics that can be read -/

namespace Diagnostic

/-- The text before the message of a diagnostic. -/
def lead (d : Diagnostic) : String :=
  match d.file with
  | none => "error TS" ++ toString d.code ++ ": "
  | some file =>
    file ++ "(" ++ toString d.line ++ "," ++ toString d.column ++ "): error TS" ++
      toString d.code ++ ": "

/-- What is printed for a diagnostic is what leads up to its message, and the message. -/
theorem format_eq (d : Diagnostic) : d.format = d.lead ++ d.message := by
  unfold format lead
  cases d.file <;> rfl

/-- **The lines of a diagnostic that is printed.** -/
def printedLines (d : Diagnostic) : List String :=
  (Text.fields '\n' d.message).modifyHead (d.lead ++ ·)

/-- A line that goes on with a message. -/
structure IsContinuation (line : String) : Prop where
  indented : line.toList.head?.any Text.isBlank = true
  notBlank : Text.strip line ≠ ""
  trimmed : Text.stripEnd line = line
  noBreak : ∀ c ∈ line.toList, Text.isLineBreak c = false

/-- **A diagnostic that can be read back.** Its numbers can be read, its category is that of its
code, and neither the name of its file nor the first line of its message can be taken for something
else. -/
structure IsReadable (d : Diagnostic) : Prop where
  code : Listing.IsReadable d.code
  line : Listing.IsReadable d.line
  column : Listing.IsReadable d.column
  category : d.category = categorize d.code d.file.isSome
  fileless : d.file = none → d.line = 0 ∧ d.column = 0
  /-- The name ends where the place begins, so there is nothing in it that looks like one. -/
  file : ∀ file, d.file = some file → Path.isAbsolute file = true ∧ Path.normalise file = file ∧
    (∀ c ∈ file.toList, Text.isLineBreak c = false) ∧ ¬ Listing.HoldsPlace file.toList
  /-- Without a file the line begins with the code, and a place in it would make a file of that. -/
  first : ∀ first later, Text.fields '\n' d.message = first :: later →
    (∀ c ∈ first.toList, Text.isLineBreak c = false) ∧
      (d.file = none → ¬ Listing.HoldsPlace first.toList)
  /-- Any other line of the message begins with a blank, and has no blank at its end. -/
  later : ∀ first later, Text.fields '\n' d.message = first :: later →
    ∀ line ∈ later, IsContinuation line

end Diagnostic

/-- Texts are joined all at once or in groups. -/
theorem intercalate_flatMap {α : Type} (separator : String) (f : α → List String) {items : List α}
    (h : ∀ a ∈ items, f a ≠ []) : separator.intercalate (items.flatMap f)
      = separator.intercalate (items.map fun a => separator.intercalate (f a)) := by
  induction items with
  | nil => rfl
  | cons a items ih =>
    obtain ⟨h_a, h_items⟩ := List.forall_mem_cons.1 h
    by_cases h_last : items = []
    · simp [h_last]
    · obtain ⟨b, rest, rfl⟩ := List.exists_cons_of_ne_nil h_last
      -- a separator stands between two groups only if both have something in them
      have h_more : (b :: rest).flatMap f ≠ [] := by simp [h_items b (List.mem_cons_self ..)]
      rw [List.flatMap_cons, String.intercalate_append_of_ne_nil h_a h_more, ih h_items,
        List.map_cons (a := a), String.intercalate_cons_of_ne_nil (by simp)]

namespace Diagnostic

variable {d : Diagnostic}

/-- The lines of a diagnostic are those of its message, the first of them behind what leads up to
it. -/
theorem exists_fields (d : Diagnostic) : ∃ first later,
    Text.fields '\n' d.message = first :: later ∧ d.printedLines = (d.lead ++ first) :: later ∧
      "\n".intercalate (first :: later) = d.message := by
  obtain ⟨first, later, h_fields⟩ := List.exists_cons_of_ne_nil (Text.fields_ne_nil '\n' d.message)
  refine ⟨first, later, h_fields, ?_, ?_⟩
  · rw [printedLines, h_fields, List.modifyHead_cons]
  · rw [← h_fields]
    exact Text.intercalate_fields '\n' d.message

/-- These lines are what is printed for the diagnostic. -/
theorem intercalate_printedLines (d : Diagnostic) : "\n".intercalate d.printedLines = d.format := by
  obtain ⟨first, later, -, h_lines, h_message⟩ := d.exists_fields
  rw [format_eq, h_lines, ← h_message]
  cases later <;> simp [String.intercalate_cons_cons, String.append_assoc]

/-- What leads up to the message of a diagnostic about a file. -/
theorem IsReadable.toList_lead_of_some {file : String} (h : d.IsReadable)
    (h_file : d.file = some file) : d.lead.toList = file.toList ++ ("(".toList ++
      Nat.toDigits 10 d.line.toNat ++ ",".toList ++ Nat.toDigits 10 d.column.toNat ++
      "): error TS".toList ++ Nat.toDigits 10 d.code.toNat ++ ": ".toList) := by
  unfold lead
  rw [h_file]
  simp only [String.toList_append, h.line.toString_eq, h.column.toString_eq, h.code.toString_eq,
    List.append_assoc]

/-- What leads up to the message of a diagnostic about no file. -/
theorem IsReadable.toList_lead_of_none (h : d.IsReadable) (h_file : d.file = none) :
    d.lead.toList = "error TS".toList ++ Nat.toDigits 10 d.code.toNat ++ ": ".toList := by
  unfold lead
  rw [h_file]
  simp only [String.toList_append, h.code.toString_eq]

/-- What is printed before a message is not empty and breaks no line. -/
theorem IsReadable.noBreak_lead (h : d.IsReadable) :
    d.lead ≠ "" ∧ ∀ c ∈ d.lead.toList, Text.isLineBreak c = false := by
  have h_digits : ∀ n, ∀ c ∈ Nat.toDigits 10 n, Text.isLineBreak c = false := fun n c h_c =>
    Text.isLineBreak_of_isDigit (Nat.isDigit_of_mem_toDigits (by decide) (by decide) h_c)
  have h_fixed : ∀ c ∈ "(,): error TS".toList, Text.isLineBreak c = false := by
    simp [Text.isLineBreak]
  have h_part : ∀ text : String, text.toList ⊆ "(,): error TS".toList →
      ∀ c ∈ text.toList, Text.isLineBreak c = false :=
    fun text h_text c h_c => h_fixed c (h_text h_c)
  rw [Ne, ← String.toList_eq_nil_iff]
  rcases Option.eq_none_or_eq_some d.file with h_file | ⟨file, h_file⟩
  · rw [h.toList_lead_of_none h_file]
    simp only [List.forall_mem_append]
    exact ⟨by simp, ⟨h_part _ (by decide), h_digits _⟩, h_part _ (by decide)⟩
  · obtain ⟨-, -, h_plain, -⟩ := h.file file h_file
    rw [h.toList_lead_of_some h_file]
    simp only [List.forall_mem_append]
    exact ⟨by simp, h_plain, ⟨⟨⟨⟨⟨h_part _ (by decide), h_digits _⟩, h_part _ (by decide)⟩,
      h_digits _⟩, h_part _ (by decide)⟩, h_digits _⟩, h_part _ (by decide)⟩

end Diagnostic

namespace Listing

variable {cwd : String} {d : Diagnostic}

/-- A line that begins with something other than a blank is not passed over, nor does it go on with
a message. -/
theorem strip_ne_empty_of_cons {line : String} {c : Char} {rest : List Char}
    (h : line.toList = c :: rest) (h_c : Text.isBlank c = false) :
    Text.strip line ≠ "" ∧ (line.toList.head?.map Text.isBlank).getD false = false := by
  refine ⟨fun h_empty => ?_, by simp [h, h_c]⟩
  have h_all := congrArg String.toList h_empty
  unfold Text.strip Text.trim at h_all
  rw [Text.toList_dropEndWhile, Text.toList_dropWhile, h,
    List.dropWhile_cons_of_neg (by simp [h_c]), String.toList_empty, List.reverse_eq_nil_iff,
    List.dropWhile_eq_nil_iff] at h_all
  exact absurd (h_all c (by simp)) (by simp [h_c])

/-- **The first line of a diagnostic about a file** is read as the diagnostic with that line for its
message. -/
theorem classify_of_file {file : String} (h : d.IsReadable) (h_file : d.file = some file)
    (first : String) :
    Line.classify cwd (d.lead ++ first) = .ok (.diagnostic { d with message := first }) := by
  obtain ⟨h_absolute, h_normal, -, h_plain⟩ := h.file file h_file
  obtain ⟨more, h_slash⟩ := Text.startsWith_iff.1 h_absolute
  have h_chars : file.toList = '/' :: more.toList := by simp [h_slash]
  have h_line : (d.lead ++ first).toList = file.toList ++ ("(".toList ++
      Nat.toDigits 10 d.line.toNat ++ ",".toList ++ Nat.toDigits 10 d.column.toNat ++
      "): error TS".toList ++ Nat.toDigits 10 d.code.toNat ++ ": ".toList ++ first.toList) := by
    rw [String.toList_append, h.toList_lead_of_some h_file, List.append_assoc]
  obtain ⟨h_strip, h_head⟩ :=
    @strip_ne_empty_of_cons (d.lead ++ first) '/' _ (by rw [h_line, h_chars]; rfl) (by decide)
  -- the name of the file holds no place, so the first one is that of the diagnostic
  have h_error : fileError? (d.lead ++ first).toList = some (file.toList,
      Nat.toDigits 10 d.line.toNat, Nat.toDigits 10 d.column.toNat, Nat.toDigits 10 d.code.toNat,
      first.toList) := by
    rw [h_line]
    exact fileError?_append h_plain (by simp [h_chars]) (place?_append (isNumeral_toDigits _)
      (isNumeral_toDigits _) (isNumeral_toDigits _) first.toList)
  have h_resolve : resolve cwd file = file := by
    unfold resolve Path.absolute Path.join
    rw [if_pos h_absolute, h_normal]
  have h_read : (⟨d.code, first, some file, d.line, d.column, Diagnostic.categorize d.code true⟩ :
      Diagnostic) = { d with message := first } := by
    rw [h.category, h_file]
    rfl
  unfold Line.classify
  simp only [if_neg h_strip, h_head, Bool.false_eq_true, if_false, h_error, h.code.toNumber_eq,
    h.line.toNumber_eq, h.column.toNumber_eq, String.ofList_toList, h_resolve]
  exact congrArg (fun d => Except.ok (Line.diagnostic d)) h_read

/-- The same of a diagnostic about no file, if its message does not look like one about a file. -/
theorem classify_of_no_file (h : d.IsReadable) (h_file : d.file = none) {first : String}
    (h_first : ¬ HoldsPlace first.toList) :
    Line.classify cwd (d.lead ++ first) = .ok (.diagnostic { d with message := first }) := by
  have h_line : (d.lead ++ first).toList = "error TS".toList ++ Nat.toDigits 10 d.code.toNat ++
      ": ".toList ++ first.toList := by
    rw [String.toList_append, h.toList_lead_of_none h_file]
  obtain ⟨h_strip, h_head⟩ :=
    @strip_ne_empty_of_cons (d.lead ++ first) 'e' _ (by rw [h_line]; rfl) (by decide)
  -- a place in the line would stand in the message, as there is no parenthesis before it
  have h_fileError : fileError? (d.lead ++ first).toList = none := by
    rw [Option.eq_none_iff_forall_ne_some]
    rintro ⟨file, row, column, code, message⟩ h_some
    obtain ⟨file, row, column, code, message, -, h_row, h_column, h_code, h_split⟩ :=
      isDiagnosticLine_of_fileError? h_some
    have h_front : '(' ∉ "error TS".toList ++ Nat.toDigits 10 d.code.toNat ++ ": ".toList := by
      simp [(isNumeral_toDigits d.code.toNat).notMem]
    refine h_first (HoldsPlace.of_append h_front ?_)
    rw [← h_line]
    exact ⟨file, row, column, code, message, h_row, h_column, h_code, h_split⟩
  have h_error : error? (d.lead ++ first).toList
      = some (Nat.toDigits 10 d.code.toNat, first.toList) := by
    rw [h_line]
    exact error?_append (isNumeral_toDigits _) first.toList
  -- what is not printed is what is filled in for an error about no file
  have h_read : (⟨d.code, first, none, 0, 0, Diagnostic.categorize d.code false⟩ : Diagnostic)
      = { d with message := first } := by
    obtain ⟨h_row, h_column⟩ := h.fileless h_file
    rw [h.category, h_file, h_row, h_column]
    rfl
  unfold Line.classify
  simp only [if_neg h_strip, h_head, Bool.false_eq_true, if_false, h_fileError, h_error,
    h.code.toNumber_eq, String.ofList_toList]
  exact congrArg (fun d => Except.ok (Line.diagnostic d)) h_read

/-- So the first line of any diagnostic that can be read is read as the diagnostic, as far as it
goes. -/
theorem classify_lead_append (h : d.IsReadable) {first : String} {later : List String}
    (h_fields : Text.fields '\n' d.message = first :: later) :
    Line.classify cwd (d.lead ++ first) = .ok (.diagnostic { d with message := first }) := by
  rcases Option.eq_none_or_eq_some d.file with h_file | ⟨file, h_file⟩
  · exact classify_of_no_file h h_file ((h.first first later h_fields).2 h_file)
  · exact classify_of_file h h_file first

/-- A line that goes on with a message is read as such, and nothing is trimmed from it. -/
theorem classify_continuation {line : String} (h : Diagnostic.IsContinuation line) :
    Line.classify cwd line = .ok (.continuation line) := by
  obtain ⟨h_indented, h_blank, h_trimmed, -⟩ := h
  have h_head : (line.toList.head?.map Text.isBlank).getD false = true := by
    cases h_chars : line.toList.head? with
    | none => simp [h_chars] at h_indented
    | some c => simpa [h_chars] using h_indented
  unfold Line.classify
  simp only [if_neg h_blank, h_head, if_true, h_trimmed]

/-- Lines that go on with a message are added to it. -/
theorem addAll_continuations {later : List String}
    (h : ∀ line ∈ later, Diagnostic.IsContinuation line) (before : List Diagnostic) (d : Diagnostic)
    (rest : List String) : addAll cwd ⟨[], before ++ [d], []⟩ (later ++ rest) = addAll cwd
      ⟨[], before ++ [{ d with message := "\n".intercalate (d.message :: later) }], []⟩ rest := by
  induction later generalizing d with
  | nil => simp
  | cons line later ih =>
    obtain ⟨h_line, h_later⟩ := List.forall_mem_cons.1 h
    rw [List.cons_append, addAll, classify_continuation h_line]
    simp only [add, continueLast_concat]
    rw [ih h_later, intercalate_message_cons]

/-- **The lines of some diagnostics give the diagnostics.** -/
theorem addAll_printedLines {ds : List Diagnostic} (h : ∀ d ∈ ds, d.IsReadable)
    (before : List Diagnostic) : addAll cwd ⟨[], before, []⟩ (ds.flatMap Diagnostic.printedLines)
      = .ok ⟨[], before ++ ds, []⟩ := by
  induction ds generalizing before with
  | nil => simp [addAll]
  | cons d ds ih =>
    obtain ⟨h_d, h_ds⟩ := List.forall_mem_cons.1 h
    obtain ⟨first, later, h_fields, h_lines, h_message⟩ := d.exists_fields
    rw [List.flatMap_cons, h_lines, List.cons_append, addAll, classify_lead_append h_d h_fields]
    simp only [add]
    -- the other lines of the diagnostic are put together again, and that is its message
    rw [addAll_continuations (h_d.later first later h_fields), h_message, ih h_ds,
      List.append_assoc]
    rfl

/-- No line of a diagnostic is empty or breaks. -/
theorem of_mem_printedLines (h : d.IsReadable) {line : String} (h_mem : line ∈ d.printedLines) :
    line ≠ "" ∧ ∀ c ∈ line.toList, Text.isLineBreak c = false := by
  obtain ⟨first, later, h_fields, h_lines, -⟩ := d.exists_fields
  rw [h_lines] at h_mem
  rcases List.mem_cons.1 h_mem with rfl | h_mem
  · obtain ⟨h_ne, h_lead⟩ := h.noBreak_lead
    rw [String.toList_append, List.forall_mem_append]
    exact ⟨by simp [h_ne], h_lead, (h.first first later h_fields).1⟩
  · have h_line := h.later first later h_fields line h_mem
    refine ⟨?_, h_line.noBreak⟩
    rintro rfl
    exact absurd h_line.indented (by decide)

/-- **Diagnostics that are printed are read back**, in order and with nothing else: no line is taken
for a file, and there is nothing to warn about. The working directory makes no difference, as the
names of files are absolute. The lines of a message are told from the next diagnostic by their
indentation alone, which is why each of them but the first has to have some
(`Diagnostic.IsReadable.later`). -/
theorem read_intercalate_format {ds : List Diagnostic} (h : ∀ d ∈ ds, d.IsReadable) (cwd : String) :
    read cwd ("\n".intercalate (ds.map Diagnostic.format)) = .ok ⟨[], ds, []⟩ := by
  -- the diagnostics are joined by line feeds, and so are the lines within each
  have h_lines : "\n".intercalate (ds.map Diagnostic.format)
      = "\n".intercalate (ds.flatMap Diagnostic.printedLines) := by
    rw [intercalate_flatMap]
    · exact congrArg _ (List.map_congr_left fun d _ => d.intercalate_printedLines.symm)
    · intro d _
      obtain ⟨first, later, -, h_lines, -⟩ := d.exists_fields
      simp [h_lines]
  have h_each : ∀ line ∈ ds.flatMap Diagnostic.printedLines,
      line ≠ "" ∧ ∀ c ∈ line.toList, Text.isLineBreak c = false := by
    intro line h_mem
    obtain ⟨d, h_d, h_line⟩ := List.mem_flatMap.1 h_mem
    exact of_mem_printedLines (h d h_d) h_line
  unfold read
  rw [h_lines, Text.splitLines_intercalate (fun line h_mem => (h_each line h_mem).2)
    fun line h_mem => (h_each line h_mem).1]
  exact addAll_printedLines h []

/-- A message that quotes a place in its first line and goes on in a second, under a file name that
ends in what looks like one. -/
def quoting : Diagnostic :=
  ⟨2322, "As (1,2): error TS9: says\n\tand no more.", some "/src/a(3,4).ts", 5, 17, .semantic⟩

/-- An error about no file. -/
def bare : Diagnostic :=
  ⟨5023, "Unknown option (1,2).", none, 0, 0, .emit⟩

/-- Both of these are read back from any directory. -/
theorem read_intercalate_format_quoting :
    read "/elsewhere" ("\n".intercalate ([quoting, bare].map Diagnostic.format))
      = .ok ⟨[], [quoting, bare], []⟩ := by
  have h_quoting : quoting.IsReadable := by
    have h_fields : Text.fields '\n' quoting.message
        = ["As (1,2): error TS9: says", "\tand no more."] := by decide +kernel
    constructor
    case code | line | column | category => decide
    case fileless => rintro ⟨⟩
    case file =>
      rintro file ⟨⟩
      exact ⟨by decide, by decide +kernel, by simp [Text.isLineBreak], by decide +kernel⟩
    case first =>
      rw [h_fields]
      rintro first later ⟨⟩
      refine ⟨by simp [Text.isLineBreak], ?_⟩
      rintro ⟨⟩
    case later =>
      rw [h_fields]
      rintro first later ⟨⟩
      refine List.forall_mem_singleton.2 ⟨by decide, by decide +kernel, by decide +kernel, ?_⟩
      simp [Text.isLineBreak]
  have h_bare : bare.IsReadable := by
    have h_fields : Text.fields '\n' bare.message = ["Unknown option (1,2)."] := by decide +kernel
    constructor
    case code | line | column | category => decide
    case fileless => exact fun _ => ⟨rfl, rfl⟩
    case file => rintro file ⟨⟩
    case first =>
      rw [h_fields]
      rintro first later ⟨⟩
      exact ⟨by simp [Text.isLineBreak], fun _ => by decide +kernel⟩
    case later =>
      rw [h_fields]
      rintro first later ⟨⟩
      rintro line ⟨⟩
  refine read_intercalate_format ?_ "/elsewhere"
  exact List.forall_mem_cons.2 ⟨h_quoting, List.forall_mem_singleton.2 h_bare⟩

end Listing

end DeclarationBundle
