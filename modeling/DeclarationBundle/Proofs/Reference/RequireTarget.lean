import DeclarationBundle.Reference
import DeclarationBundle.Syntax.Tree
import DeclarationBundle.Proofs.Syntax.Tokens

/-!
# Which literals are the target of a `require`

The literal of `import x = require('m')` is known by the tokens before it, whatever tree they stand
in and whatever comments stand between them. `Reference.isRequireTarget_iff_isPlainName` says
exactly which literals these are.

* `Introduces` is the row of tokens that makes a literal such a target.
* `IsIdentifier` are the names as a source is read, `IsPlainName` those that are recognised. The
  difference is what `not_forall_isRequireTarget` shows: a name may begin with a letter of any
  script, but one that does not begin with a Latin letter, `_` or `$` is passed over.
-/

namespace DeclarationBundle

open Syntax

namespace Reference

/-- A name as it is cut out of a source. -/
def IsIdentifier (name : String) : Prop :=
  nameHere? name.toList = some name.toList

instance : DecidablePred IsIdentifier := fun name =>
  inferInstanceAs (Decidable (nameHere? name.toList = some name.toList))

/-- **The tokens before the literal of `import name = require('m')`**, nearest first. -/
inductive Introduces (name : String) : List String → Prop where
  | value (earlier : List String) :
      Introduces name ("(" :: "require" :: "=" :: name :: "import" :: earlier)
  | type (earlier : List String) :
      Introduces name ("(" :: "require" :: "=" :: name :: "type" :: "import" :: earlier)

/-- **A name that begins with a Latin letter, `_` or `$`** and goes on with word characters of any
script and `$`. -/
def IsPlainName (name : String) : Prop :=
  ∃ first rest, name.toList = first :: rest ∧
    (first.isAlpha = true ∨ first = '_' ∨ first = '$') ∧
    ∀ c ∈ rest, Text.isWordChar c = true ∨ c = '$'

/-- The tokens among some places that count when looking back, nearest first, as text. -/
def textsBack (source : Bytes) (places : List Cursor) : List String :=
  (Cursor.tokensOf places).reverse.map fun token => tokenText (token.text source)

variable {name : String} {tokens : List String}

/-! ### The row of tokens -/

/-- The tokens lead to a target if they are the row of an import of a name that is recognised. -/
theorem leadsToRequire_iff :
    leadsToRequire tokens = true ↔ ∃ name, Introduces name tokens ∧ isImportName name = true := by
  constructor
  · intro h
    unfold leadsToRequire at h
    split at h
    · exact ⟨_, .value _, h⟩
    · exact ⟨_, .type _, h⟩
    · cases h
  · rintro ⟨name, h | h, h_name⟩ <;> exact h_name

/-- Tokens further away than the sixth do not matter. -/
theorem introduces_take_iff : Introduces name (tokens.take 6) ↔ Introduces name tokens := by
  constructor
  · intro h
    rw [← List.take_append_drop 6 tokens]
    -- a row takes up five or six tokens, and whatever is further away is left open
    generalize tokens.take 6 = near at h
    cases h with
    | value earlier => exact .value (earlier ++ _)
    | type earlier => exact .type (earlier ++ _)
  · intro h
    cases h with
    | value earlier => exact .value (earlier.take 1)
    | type earlier => exact .type []

/-- The name stands at a place of its own among the tokens. -/
theorem Introduces.name_eq {other : String} (h : Introduces name tokens)
    (h_other : Introduces other tokens) : name = other := by
  have h_fourth : ∀ {name}, Introduces name tokens → tokens[3]? = some name := by
    rintro name (_ | _) <;> rfl
  exact Option.some.inj ((h_fourth h).symm.trans (h_fourth h_other))

/-! ### Names -/

/-- The same set, an interval at a time. Unlike the definition this ends in its recursive call. -/
def liesWithin : List Nat → Nat → Bool
  | first :: last :: bounds, n =>
    if n < first then false else if n < last then true else liesWithin bounds n
  | [first], n => !decide (n < first)
  | [], _ => false

/-- Both tell the same numbers. -/
theorem inIntervals_eq_liesWithin (bounds : List Nat) (n : Nat) :
    Text.inIntervals bounds n = liesWithin bounds n := by
  fun_induction liesWithin bounds n with
  | case1 first last bounds n h => rw [Text.inIntervals, if_pos h]
  | case2 first last bounds n h h_last =>
    rw [Text.inIntervals, if_neg h, Text.inIntervals, if_pos h_last]
    rfl
  | case3 first last bounds n h h_last ih =>
    rw [Text.inIntervals, if_neg h, Text.inIntervals, if_neg h_last, Bool.not_not, ih]
  | case4 first n =>
    rw [Text.inIntervals, Text.inIntervals]
    by_cases h : n < first <;> simp [h]
  | case5 => rfl

/-- The blanks beyond the first characters. -/
def wideBlanks : List Nat :=
  [0xA0, 0x1680] ++ List.range' 0x2000 12 ++
    [0x2028, 0x2029, 0x202F, 0x205F, 0x2060, 0x3000, 0xFEFF]

/-- A blank is one of the first characters or one of the wide ones. -/
theorem le_or_mem_wideBlanks_of_isBlank {c : Char} (h : isBlank c = true) :
    c.toNat ≤ 0x20 ∨ c.toNat ∈ wideBlanks := by
  simp only [isBlank, Bool.or_eq_true, Bool.and_eq_true, decide_eq_true_eq, beq_iff_eq] at h
  simp only [wideBlanks, List.mem_append, List.mem_cons, List.mem_range'_1, List.not_mem_nil]
  omega

/-- Word characters belong to names. -/
theorem isNameChar_of_isWordChar {c : Char} (h : Text.isWordChar c = true) :
    isNameChar c = true := by
  -- neither the blanks nor the marks are word characters
  have h_low : 0x20 < c.toNat := by
    by_contra h_le
    have h_first : Text.isWordChar c = false := by
      unfold Text.isWordChar Text.wordIntervals
      rw [Text.inIntervals, if_pos (by omega)]
    rw [h_first] at h
    cases h
  have h_blank : isBlank c = false := by
    rw [Bool.eq_false_iff]
    intro h_is
    have h_none : ∀ n ∈ wideBlanks, liesWithin Text.wordIntervals n = false := by
      decide +kernel
    rcases le_or_mem_wideBlanks_of_isBlank h_is with h_le | h_mem
    · omega
    · rw [Text.isWordChar, inIntervals_eq_liesWithin, h_none _ h_mem] at h
      cases h
  have h_mark : c ∉ markChars := by
    have h_none : markChars.all (fun mark => !Text.isWordChar mark) = true := by decide +kernel
    intro h_mem
    have h_not := List.all_eq_true.1 h_none c h_mem
    rw [h] at h_not
    cases h_not
  simp [isNameChar, h_low, h_blank, h_mark]

/-- The Latin letters. -/
theorem bounds_of_isAlpha {c : Char} (h : c.isAlpha = true) :
    0x41 ≤ c.toNat ∧ c.toNat ≤ 0x5A ∨ 0x61 ≤ c.toNat ∧ c.toNat ≤ 0x7A := by
  simp only [Char.isAlpha, Char.isUpper, Char.isLower, Bool.or_eq_true, Bool.and_eq_true,
    decide_eq_true_eq] at h
  exact h

/-- None of them is a digit. -/
theorem isDigit_of_isAlpha {c : Char} (h : c.isAlpha = true) : c.isDigit = false := by
  rw [Bool.eq_false_iff]
  intro h_digit
  have h_bounds := bounds_of_isAlpha h
  have h_greatest : c.toNat ≤ 0x39 := by
    simp only [Char.isDigit, Bool.and_eq_true, decide_eq_true_eq] at h_digit
    exact h_digit.2
  omega

/-- All of them are word characters. -/
theorem isWordChar_of_isAlpha {c : Char} (h : c.isAlpha = true) : Text.isWordChar c = true := by
  have h_all : ∀ n ∈ List.range' 0x41 26 ++ List.range' 0x61 26,
      Text.inIntervals Text.wordIntervals n = true := by
    decide +kernel
  -- there are few enough letters to try them all
  have h_bounds := bounds_of_isAlpha h
  refine h_all c.toNat ?_
  simp only [List.mem_append, List.mem_range'_1]
  omega

/-- Every character of a plain name belongs to names, and its first begins one. -/
theorem IsPlainName.exists_cons (h : IsPlainName name) :
    ∃ first rest, name.toList = first :: rest ∧ isNameStart first = true ∧
      ∀ c ∈ first :: rest, isNameChar c = true := by
  obtain ⟨first, rest, h_chars, h_first, h_rest⟩ := h
  have h_dollar : isNameChar '$' = true := by decide
  -- none of the characters that may be first is a digit
  have h_name : isNameChar first = true ∧ first.isDigit = false := by
    rcases h_first with h_alpha | rfl | rfl
    · exact ⟨isNameChar_of_isWordChar (isWordChar_of_isAlpha h_alpha), isDigit_of_isAlpha h_alpha⟩
    · decide
    · decide
  refine ⟨first, rest, h_chars, by simp [isNameStart, h_name], List.forall_mem_cons.2
    ⟨h_name.1, fun c hc => ?_⟩⟩
  rcases h_rest c hc with h_word | rfl
  · exact isNameChar_of_isWordChar h_word
  · exact h_dollar

/-- No mark belongs to a name. -/
theorem notMem_of_isNameChar {c : Char} (h : isNameChar c = true) : c ∉ markChars := by
  simp only [isNameChar, Bool.and_eq_true, Bool.not_eq_true', List.contains_eq_mem,
    decide_eq_false_iff_not] at h
  exact h.2

/-- Characters of a name are passed over one by one. -/
theorem nameLength_append {front : List Char} (h : ∀ c ∈ front, isNameChar c = true)
    (fuel more : List Char) :
    nameLength (front ++ fuel) (front ++ more) = front.length + nameLength fuel more := by
  induction front with
  | nil => simp
  | cons c front ih =>
    obtain ⟨h_c, h_front⟩ := List.forall_mem_cons.1 h
    have h_escape : c ≠ '\\' := by
      rintro rfl
      exact notMem_of_isNameChar h_c (by decide)
    rw [List.cons_append, List.cons_append, nameLength]
    · rw [if_pos h_c, ih h_front, List.length_cons]
      omega
    · intro rest h_eq
      exact absurd h_eq h_escape

/-- **Plain names are identifiers.** -/
theorem IsPlainName.isIdentifier (h : IsPlainName name) : IsIdentifier name := by
  obtain ⟨first, rest, h_chars, h_start, h_all⟩ := h.exists_cons
  -- the name is passed over to its end, where nothing is left
  have h_length := nameLength_append h_all [] []
  rw [List.append_nil, nameLength, Nat.add_zero] at h_length
  unfold IsIdentifier nameHere?
  rw [h_chars]
  simp [h_start, h_length]

/-- No identifier ends in a line feed. -/
theorem IsPlainName.not_isIdentifier_append (h : IsPlainName name) :
    ¬ IsIdentifier (name ++ "\n") := by
  obtain ⟨first, rest, h_chars, h_start, h_all⟩ := h.exists_cons
  have h_length := nameLength_append h_all ['\n'] ['\n']
  rw [show nameLength ['\n'] ['\n'] = 0 from rfl, Nat.add_zero, List.cons_append] at h_length
  intro h_name
  unfold IsIdentifier nameHere? at h_name
  rw [String.toList_append, h_chars] at h_name
  simp [h_start, h_length] at h_name

/-- The test of a word is that of a plain name. -/
theorem isPlainWord_iff {chars : List Char} :
    isPlainWord chars = true ↔ IsPlainName (String.ofList chars) := by
  unfold IsPlainName
  cases chars with
  | nil => simp [isPlainWord]
  | cons c rest => simp [isPlainWord, and_assoc, or_assoc]

/-- **The names that are recognised** are the plain ones, up to a line feed at the end. -/
theorem isImportName_iff : isImportName name = true ↔
    IsPlainName name ∨ ∃ plain, IsPlainName plain ∧ name = plain ++ "\n" := by
  unfold isImportName
  rw [isPlainWord_iff]
  split
  · next h_last =>
    obtain ⟨front, h_front⟩ := List.getLast?_eq_some_iff.1 h_last
    have h_name : name = String.ofList front ++ "\n" := String.toList_inj.1 (by simp [h_front])
    rw [h_front, List.dropLast_concat]
    constructor
    · exact fun h => .inr ⟨_, h, h_name⟩
    · rintro (h | ⟨plain, h, h_plain⟩)
      · -- a plain name does not end so
        obtain ⟨first, rest, h_chars, -, h_all⟩ := h.exists_cons
        have h_feed : isNameChar '\n' = true := h_all '\n' (by rw [← h_chars, h_front]; simp)
        exact absurd h_feed (by decide)
      · have h_front : plain = String.ofList front :=
          (String.append_left_inj "\n").1 (h_plain.symm.trans h_name)
        exact h_front ▸ h
  · next h_last =>
    rw [String.ofList_toList]
    refine ⟨.inl, fun h => h.resolve_right ?_⟩
    rintro ⟨plain, -, rfl⟩
    exact h_last (by simp)

/-! ### Targets -/

section Place

variable {source : Bytes} {tree : Node} {before after : List Cursor} {c : Cursor}

/-- Only the tokens before a literal decide. -/
theorem isRequireTarget_eq (h : (Cursor.root tree).preorder = before ++ c :: after) :
    isRequireTarget source c = true ↔
      ∃ name, Introduces name (textsBack source before) ∧ isImportName name = true := by
  unfold isRequireTarget
  rw [Cursor.previousTokens_eq_take h, List.map_take, leadsToRequire_iff, List.map_map]
  simp only [introduces_take_iff]
  rfl

/-- **The targets of a `require`.** Where the tokens before a place, without comments and those that
are missing, are the row of an import of some identifier, the place is recognised exactly if the
identifier is plain. No other row of tokens is, but for a name with a line feed at its end. -/
theorem isRequireTarget_iff_isPlainName
    (h : (Cursor.root tree).preorder = before ++ c :: after) :
    (∀ name, IsIdentifier name → Introduces name (textsBack source before) →
      (isRequireTarget source c = true ↔ IsPlainName name)) ∧
    (isRequireTarget source c = true ↔ ∃ name, IsPlainName name ∧ IsIdentifier name ∧
      (Introduces name (textsBack source before) ∨
        Introduces (name ++ "\n") (textsBack source before))) := by
  rw [isRequireTarget_eq h]
  refine ⟨fun name h_name h_row => ⟨?_, fun h_plain => ?_⟩, ?_, ?_⟩
  · rintro ⟨other, h_other, h_import⟩
    -- the row has but one name, and an identifier does not end in a line feed
    obtain rfl := h_row.name_eq h_other
    rcases isImportName_iff.1 h_import with h_plain | ⟨plain, h_plain, rfl⟩
    · exact h_plain
    · exact absurd h_name h_plain.not_isIdentifier_append
  · exact ⟨name, h_row, isImportName_iff.2 (.inl h_plain)⟩
  · rintro ⟨name, h_row, h_import⟩
    rcases isImportName_iff.1 h_import with h_plain | ⟨plain, h_plain, rfl⟩
    · exact ⟨name, h_plain, h_plain.isIdentifier, .inl h_row⟩
    · exact ⟨plain, h_plain, h_plain.isIdentifier, .inr h_row⟩
  · rintro ⟨name, h_plain, -, h_row | h_row⟩
    · exact ⟨name, h_row, isImportName_iff.2 (.inl h_plain)⟩
    · exact ⟨_, h_row, isImportName_iff.2 (.inr ⟨name, h_plain, rfl⟩)⟩

end Place

/-- The places of a source in document order. -/
def placesOf (text : String) : List Cursor :=
  (Cursor.root (parse text)).preorder

/-- The places before one of a source, the place itself and those after it. -/
theorem placesOf_eq {text : String} {index : Nat} {c : Cursor}
    (h : (placesOf text)[index]? = some c) :
    (Cursor.root (parse text)).preorder
      = (placesOf text).take index ++ c :: (placesOf text).drop (index + 1) := by
  obtain ⟨h_index, rfl⟩ := List.getElem?_eq_some_iff.1 h
  rw [← List.drop_eq_getElem_cons h_index, List.take_append_drop]
  rfl

/-- A type-only import with comments between its tokens. -/
theorem isRequireTarget_iff_isPlainName_type :
    let text := "import type /* t */ $x = /* r */ require('m')"
    ∃ c ∈ placesOf text, c.node.text (Utf8.encode text) = Utf8.encode "'m'" ∧
      isRequireTarget (Utf8.encode text) c = true := by
  intro text
  have h_literal : (placesOf text)[11]?.any
      (fun c => c.node.text (Utf8.encode text) == Utf8.encode "'m'") = true := by
    decide +kernel
  obtain ⟨c, h_c, h_text⟩ := (Option.any_eq_true _ _).1 h_literal
  have h_row : textsBack (Utf8.encode text) ((placesOf text).take 11)
      = ["(", "require", "=", "$x", "type", "import"] := by
    decide +kernel
  have h_plain : IsPlainName "$x" :=
    ⟨'$', ['x'], by decide, by decide, List.forall_mem_singleton.2 (.inl (by decide +kernel))⟩
  refine ⟨c, List.mem_of_getElem? h_c, beq_iff_eq.1 h_text, ?_⟩
  refine ((isRequireTarget_iff_isPlainName (placesOf_eq h_c)).1 "$x" (by decide) ?_).2 h_plain
  rw [h_row]
  exact .type []

/-- **An import can be overlooked**: `é` is a name, but not a plain one. -/
theorem not_forall_isRequireTarget :
    ¬ ∀ (source : Bytes) (tree : Node) (before after : List Cursor) (c : Cursor) (name : String),
      (Cursor.root tree).preorder = before ++ c :: after → c.node.isString = true →
      IsIdentifier name → Introduces name (textsBack source before) →
      isRequireTarget source c = true := by
  intro h
  set text := "import é = require('m')"
  have h_literal : (placesOf text)[8]?.any
      (fun c => c.node.isString && !isRequireTarget (Utf8.encode text) c) = true := by
    decide +kernel
  obtain ⟨c, h_c, h_overlooked⟩ := (Option.any_eq_true _ _).1 h_literal
  obtain ⟨h_string, h_not⟩ := Bool.and_eq_true_iff.1 h_overlooked
  -- the tokens are the row of an import, of a name that the scanner takes as one
  have h_row : textsBack (Utf8.encode text) ((placesOf text).take 8)
      = ["(", "require", "=", "é", "import"] := by
    decide +kernel
  have h_target := h (Utf8.encode text) (parse text) _ _ c "é" (placesOf_eq h_c) h_string
    (by decide) (by rw [h_row]; exact .value [])
  rw [h_target] at h_not
  cases h_not

end Reference

end DeclarationBundle
