import DeclarationBundle.Bundle.Section
import DeclarationBundle.Json.Reader
import DeclarationBundle.Proofs.Path.Trail
import DeclarationBundle.Proofs.Reference.Rehoming
import DeclarationBundle.Proofs.Text.Encoding
import DeclarationBundle.Syntax.Tree

/-!
# Names between quotes

A bundle puts names between quotes as they are, and takes them from between quotes as they stand
there. What a reader of the bundle makes of that is the value of a string literal
(`Literal.value?`), a list of UTF-16 code units.

* `Literal.value?_quoted_iff`: a text between quotes is a literal with itself as its value exactly
  if it is plain. An escape always writes more than it stands for, so a text with one in it never is
  (`Literal.length_le_of_valueFrom`).
* `ModuleId.join_unescape`: a reference can be followed as it is written if it escapes separators
  only, since to double a slash leads to the same place.
* `Literal.value?_written_iff` puts the two together, for the ids of blocks and for references.
-/

namespace DeclarationBundle

namespace Literal

/-! ### What a literal stands for -/

/-- The UTF-16 code units of a code point. -/
def unitsOfCode (n : Nat) : List Nat :=
  if n < 0x10000 then [n]
  else [0xD800 + (n - 0x10000) / 0x400, 0xDC00 + (n - 0x10000) % 0x400]

/-- The UTF-16 code units of some characters. -/
def units (chars : List Char) : List Nat :=
  chars.flatMap fun c => unitsOfCode c.toNat

/-- The number that hexadecimal digits write. -/
def hexNumber? (digits : List Char) : Option Nat :=
  digits.foldlM (fun n c => (Json.hexDigit? c).map (16 * n + ·)) 0

/-- The character that `c` stands for after a backslash. -/
def single (c : Char) : Char :=
  match c with
  | 'b' => '\x08'
  | 't' => '\t'
  | 'n' => '\n'
  | 'v' => '\x0b'
  | 'f' => '\x0c'
  | 'r' => '\r'
  | c => c

/-- Whether a backslash before `c` continues the literal on the next line. -/
def breaksLine (c : Char) : Bool :=
  c == '\n' || c == '\r' || c == '\u2028' || c == '\u2029'

/-- **The escape after a backslash**: the code units that it stands for and how many characters it
takes. A zero counts only before no other digit, and no other digit does. -/
def escape? : List Char → Option (List Nat × Nat)
  | [] => none
  | '\r' :: '\n' :: _ => some ([], 2)
  | 'x' :: a :: b :: _ => (hexNumber? [a, b]).map fun n => ([n], 3)
  | 'u' :: '{' :: rest =>
    let digits := rest.takeWhile (· != '}')
    match hexNumber? digits with
    | some n =>
      if digits.isEmpty || digits.length == rest.length || 0x10FFFF < n then none
      else some (unitsOfCode n, digits.length + 3)
    | none => none
  | 'u' :: a :: b :: c :: d :: _ => (hexNumber? [a, b, c, d]).map fun n => ([n], 5)
  | c :: rest =>
    if c = '0' then if rest.head?.any (·.isDigit) then none else some ([0], 1)
    else if c.isDigit || c = 'x' || c = 'u' then none
    else if breaksLine c then some ([], 1)
    else some (unitsOfCode (single c).toNat, 1)

/-- The value of what is left of a literal, which begins with `pending` characters of an escape and
ends with the closing mark. -/
def valueFrom (mark : Char) : Nat → List Char → Option (List Nat)
  | _, [] => none
  | pending + 1, _ :: rest => valueFrom mark pending rest
  | 0, c :: rest =>
    if c = mark then if rest.isEmpty then some [] else none
    else if c = '\n' ∨ c = '\r' then none
    else if c = '\\' then
      (escape? rest).bind fun escape => (valueFrom mark escape.2 rest).map (escape.1 ++ ·)
    else (valueFrom mark 0 rest).map (unitsOfCode c.toNat ++ ·)

/-- **The value of a text that is one string literal**, in code units. -/
def value? (text : String) : Option (List Nat) :=
  match text.toList with
  | mark :: rest => if mark = '\'' ∨ mark = '"' then valueFrom mark 0 rest else none
  | [] => none

/-- A text between marks. -/
def quoted (mark : Char) (s : String) : String :=
  String.singleton mark ++ s ++ String.singleton mark

/-- **A text that can stand between marks as it is.** -/
def IsPlain (mark : Char) (s : String) : Prop :=
  ∀ c ∈ s.toList, c ≠ mark ∧ c ≠ '\\' ∧ c ≠ '\n' ∧ c ≠ '\r'

-- over the text, not over all characters, which are finitely many as well
instance (mark : Char) (s : String) : Decidable (IsPlain mark s) :=
  List.decidableBAll (fun c => c ≠ mark ∧ c ≠ '\\' ∧ c ≠ '\n' ∧ c ≠ '\r') s.toList

-- escapes of every kind
example : value? "'\\x41\\u{1F600}\\\n\\'\\0'" = some (units "A😀'\x00".toList) := by decide

variable {mark : Char} {chars rest : List Char} {value : List Nat} {pending : Nat}

/-! ### Code units -/

/-- Characters have their code units one after the other. -/
theorem units_cons (c : Char) (chars : List Char) :
    units (c :: chars) = unitsOfCode c.toNat ++ units chars :=
  rfl

/-- So have texts. -/
theorem units_append (a b : List Char) : units (a ++ b) = units a ++ units b :=
  List.flatMap_append

/-- A code point takes one code unit or two. -/
theorem length_unitsOfCode (n : Nat) :
    1 ≤ (unitsOfCode n).length ∧ (unitsOfCode n).length ≤ 2 := by
  unfold unitsOfCode
  split <;> simp

/-- No text is longer than its code units. -/
theorem length_le_length_units (chars : List Char) : chars.length ≤ (units chars).length := by
  induction chars with
  | nil => exact Nat.le_refl 0
  | cons c chars ih =>
    have h_c := (length_unitsOfCode c.toNat).1
    rw [units_cons, List.length_append, List.length_cons]
    exact Nat.add_comm chars.length 1 ▸ Nat.add_le_add h_c ih

/-- The first code unit of a character tells whether there is a second. -/
theorem eq_of_unitsOfCode_append {c d : Char} {a b : List Nat}
    (h : unitsOfCode c.toNat ++ a = unitsOfCode d.toNat ++ b) : c = d ∧ a = b := by
  have hc : c.toNat < 0xD800 ∨ 0xDFFF < c.toNat ∧ c.toNat < 0x110000 := Utf8.toNat_bounds c
  have hd : d.toNat < 0xD800 ∨ 0xDFFF < d.toNat ∧ d.toNat < 0x110000 := Utf8.toNat_bounds d
  rw [← Char.toNat_inj]
  generalize c.toNat = m at h hc ⊢
  generalize d.toNat = n at h hd ⊢
  unfold unitsOfCode at h
  split at h <;> split at h <;>
    simp only [List.cons_append, List.nil_append, List.cons.injEq] at h
  · exact h
  · -- no character is a surrogate
    omega
  · omega
  · exact ⟨by omega, h.2.2⟩

/-- **The code units tell texts apart**: characters that are no surrogates can be read back one by
one. -/
theorem units_injective : Function.Injective units := by
  intro a
  induction a with
  | nil =>
    intro b h
    have h_length := h ▸ length_le_length_units b
    exact (List.eq_nil_of_length_eq_zero (Nat.le_zero.1 h_length)).symm
  | cons c a ih =>
    intro b h
    cases b with
    | nil =>
      have h_length := h ▸ length_le_length_units (c :: a)
      cases h_length
    | cons d b =>
      rw [units_cons, units_cons] at h
      -- the first characters are the same, so the others have the same code units
      obtain ⟨rfl, h_tail⟩ := eq_of_unitsOfCode_append h
      rw [ih h_tail]

/-! ### Plain texts -/

/-- What a single character stands for after a backslash takes no more code units than the
character. -/
theorem length_unitsOfCode_single (c : Char) :
    (unitsOfCode (single c).toNat).length ≤ (unitsOfCode c.toNat).length := by
  unfold single
  split <;> first | decide | exact Nat.le_refl _

/-- **An escape takes no fewer characters than it stands for**, even without its backslash. -/
theorem length_le_of_escape? {escape : List Nat × Nat} (h : escape? chars = some escape) :
    escape.1.length ≤ (units (chars.take escape.2)).length := by
  have h_take := length_le_length_units (chars.take escape.2)
  -- the kinds of an escape, each with the number of characters that it takes
  unfold escape? at h
  split at h
  · cases h
  · cases h
    exact Nat.zero_le _
  · obtain ⟨n, -, rfl⟩ := Option.map_eq_some_iff.1 h
    exact Nat.le_trans (by simp) h_take
  · dsimp only at h
    split at h
    · split at h
      · cases h
      · cases h
        -- one code point takes two code units at most, and the letter and the brace are two
        exact Nat.le_trans (length_unitsOfCode _).2 (Nat.le_trans (by simp) h_take)
    · cases h
  · obtain ⟨n, -, rfl⟩ := Option.map_eq_some_iff.1 h
    exact Nat.le_trans (by simp) h_take
  · next c rest _ _ _ _ =>
    split at h
    · split at h
      · cases h
      · cases h
        exact Nat.le_trans (by simp) h_take
    · split at h
      · cases h
      · split at h
        · cases h
          exact Nat.zero_le _
        · cases h
          rw [List.take_succ_cons, List.take_zero]
          simpa [units] using length_unitsOfCode_single c

/-- What an escape stands for and what follows the escape are no longer than the whole. -/
theorem length_add_drop_le_of_escape? {escape : List Nat × Nat}
    (h : escape? chars = some escape) :
    escape.1.length + (units (chars.drop escape.2)).length ≤ (units chars).length :=
  calc escape.1.length + (units (chars.drop escape.2)).length
    _ ≤ (units (chars.take escape.2)).length + (units (chars.drop escape.2)).length :=
      Nat.add_le_add_right (length_le_of_escape? h) _
    _ = (units chars).length := by
      rw [← List.length_append, ← units_append, List.take_append_drop]

/-- A literal is as long as its value, if there is no escape in it, and longer otherwise. -/
theorem length_le_of_valueFrom (h : valueFrom mark pending chars = some value) :
    value.length + 1 ≤ (units (chars.drop pending)).length ∧
      (value.length + 1 = (units (chars.drop pending)).length →
        ∃ s, chars.drop pending = s ++ [mark] ∧
          ∀ c ∈ s, c ≠ mark ∧ c ≠ '\\' ∧ c ≠ '\n' ∧ c ≠ '\r') := by
  -- on the characters: those of an escape that are pending are passed over first
  induction chars generalizing pending value with
  | nil => cases pending <;> cases h
  | cons c rest ih =>
    cases pending with
    | succ pending => exact ih h
    | zero =>
      rw [List.drop_zero, units_cons, List.length_append]
      have h_c := (length_unitsOfCode c.toNat).1
      rw [valueFrom] at h
      split at h
      · -- the closing mark, which ends the text
        next h_mark =>
        split at h
        · next h_rest =>
          cases h
          subst h_mark
          rw [List.isEmpty_iff.1 h_rest]
          exact ⟨Nat.le_trans h_c (Nat.le_add_right ..), fun _ => ⟨[], rfl, by simp⟩⟩
        · cases h
      · next h_mark =>
        split at h
        · cases h
        · next h_break =>
          split at h
          · -- an escape, which makes the literal longer than its value
            next h_back =>
            obtain ⟨escape, h_escape, h⟩ := Option.bind_eq_some_iff.1 h
            obtain ⟨after, h_after, rfl⟩ := Option.map_eq_some_iff.1 h
            have h_le := length_add_drop_le_of_escape? h_escape
            have h_rest := (ih h_after).1
            rw [List.length_append]
            omega
          · next h_back =>
            obtain ⟨after, h_after, rfl⟩ := Option.map_eq_some_iff.1 h
            obtain ⟨h_le, h_plain⟩ := ih h_after
            rw [List.drop_zero] at h_le h_plain
            rw [List.length_append]
            refine ⟨by omega, fun h_length => ?_⟩
            obtain ⟨s, rfl, h_s⟩ := h_plain (by omega)
            exact ⟨c :: s, rfl, List.forall_mem_cons.2 ⟨⟨h_mark, h_back, not_or.1 h_break⟩, h_s⟩⟩

/-- A plain text stands for itself. -/
theorem valueFrom_of_plain {s : List Char}
    (h : ∀ c ∈ s, c ≠ mark ∧ c ≠ '\\' ∧ c ≠ '\n' ∧ c ≠ '\r') :
    valueFrom mark 0 (s ++ [mark]) = some (units s) := by
  induction s with
  | nil => simp [valueFrom, units]
  | cons c s ih =>
    obtain ⟨⟨h_mark, h_back, h_break⟩, h_s⟩ := List.forall_mem_cons.1 h
    -- neither the closing mark, nor the end of a line, nor a backslash
    rw [List.cons_append, valueFrom, if_neg h_mark, if_neg (not_or.2 h_break), if_neg h_back,
      ih h_s]
    rfl

/-- A text between marks is a literal if the marks are quotes, and its value is read from behind the
first. -/
theorem value?_quoted (mark : Char) (s : String) : value? (quoted mark s)
    = if mark = '\'' ∨ mark = '"' then valueFrom mark 0 (s.toList ++ [mark]) else none := by
  have h_chars : (quoted mark s).toList = mark :: (s.toList ++ [mark]) := by simp [quoted]
  unfold value?
  rw [h_chars]

/-- **A text between quotes is a literal with the text as its value exactly if it is plain.** -/
theorem value?_quoted_iff {s : String} (h_mark : mark = '\'' ∨ mark = '"') :
    value? (quoted mark s) = some (units s.toList) ↔ IsPlain mark s := by
  rw [value?_quoted, if_pos h_mark]
  constructor
  · intro h
    have h_one : (units [mark]).length = 1 := by rcases h_mark with rfl | rfl <;> decide
    -- a literal with itself as its value is as long as the value, so it has no escape in it
    have h_length : (units s.toList).length + 1 = (units (s.toList ++ [mark])).length := by
      rw [units_append, List.length_append, h_one]
    obtain ⟨plain, h_eq, h_plain⟩ := (length_le_of_valueFrom h).2 h_length
    rw [List.drop_zero, List.append_cancel_right_eq] at h_eq
    rwa [IsPlain, h_eq]
  · exact valueFrom_of_plain

/-! ### Escaped separators -/

/-- **Text with backslashes before separators only**, and what it stands for. -/
inductive Unescapes : List Char → List Char → Prop
  | nil : Unescapes [] []
  | plain {c : Char} {raw chars : List Char} (h_plain : c ≠ '\\') (h : Unescapes raw chars) :
      Unescapes (c :: raw) (c :: chars)
  | separator {c : Char} {raw chars : List Char} (h_separator : c = '\\' ∨ c = '/')
      (h : Unescapes raw chars) : Unescapes ('\\' :: c :: raw) (c :: chars)

/-- Where only separators are escaped, the value of a literal is the text without their
backslashes. -/
theorem Unescapes.value_eq {raw : List Char} (h : Unescapes raw chars)
    (h_value : valueFrom mark 0 (raw ++ [mark]) = some value) : value = units chars := by
  induction h generalizing value with
  | nil => simpa [valueFrom, eq_comm, units] using h_value
  | @plain c raw chars h_plain h ih =>
    rw [List.cons_append, valueFrom] at h_value
    split at h_value
    · simp at h_value
    · split at h_value
      · cases h_value
      · obtain ⟨after, h_after, rfl⟩ := Option.map_eq_some_iff.1 h_value
        rw [ih h_after, units_cons]
  | @separator c raw chars h_separator h ih =>
    rw [List.cons_append, valueFrom] at h_value
    split at h_value
    · simp at h_value
    · rw [if_neg (by decide), if_pos rfl] at h_value
      have h_escape : escape? (c :: (raw ++ [mark])) = some (unitsOfCode c.toNat, 1) := by
        rcases h_separator with rfl | rfl <;> rfl
      rw [List.cons_append, h_escape] at h_value
      obtain ⟨after, h_after, rfl⟩ := Option.map_eq_some_iff.1 h_value
      rw [ih h_after, units_cons]

end Literal

namespace ModuleId

open Literal

/-- Separators are turned one by one. -/
theorem withSlashes_cons (c : Char) (chars : List Char) : withSlashes (String.ofList (c :: chars))
    = String.singleton (if c = '\\' then '/' else c) ++ withSlashes (String.ofList chars) := by
  apply String.toList_inj.1
  simp [withSlashes]

/-- **An escaped separator leads where the separator does.** -/
theorem foldl_push_withSlashes {raw chars : List Char} (h : Unescapes raw chars)
    (isRooted : Bool) (front : String) (done : List String) :
    (Path.segments (front ++ withSlashes (String.ofList raw))).foldl (Path.push isRooted) done
      = (Path.segments (front ++ withSlashes (String.ofList chars))).foldl (Path.push isRooted)
        done := by
  induction h generalizing front done with
  | nil => rfl
  | @plain c raw chars h_plain h ih =>
    rw [withSlashes_cons, withSlashes_cons, ← String.append_assoc, ← String.append_assoc]
    exact ih _ _
  | @separator c raw chars h_separator h ih =>
    have h_c : (if c = '\\' then '/' else c) = '/' := by
      rcases h_separator with rfl | rfl <;> rfl
    -- the first slash ends a segment, and an empty one lies between it and the second
    have h_twice : ∀ text : String,
        Path.segments (front ++ ("/" ++ ("/" ++ text)))
          = Path.segments front ++ "" :: Path.segments text := by
      intro text
      rw [← String.append_assoc, Path.segments_append, Path.segments_slash_append]
    have h_once : ∀ text : String,
        Path.segments (front ++ ("/" ++ text)) = Path.segments front ++ Path.segments text := by
      intro text
      rw [← String.append_assoc, Path.segments_append]
    -- the backslash is turned as well, which makes two slashes of the one separator
    rw [withSlashes_cons, withSlashes_cons, withSlashes_cons, h_c, if_pos rfl]
    show (Path.segments (front ++ ("/" ++ ("/" ++ _)))).foldl _ _
      = (Path.segments (front ++ ("/" ++ _))).foldl _ _
    rw [h_twice, h_once, List.foldl_append, List.foldl_append, List.foldl_cons,
      Path.push_skip (.inl rfl)]
    simpa only [String.empty_append] using
      ih "" ((Path.segments front).foldl (Path.push isRooted) done)

/-- **A relative reference can be followed as it is written**, if it escapes separators only. -/
theorem join_unescape {raw value : String} (h : Unescapes raw.toList value.toList)
    (h_relative : isRelative raw = true) (id : String) : join id raw = join id value := by
  -- a path that begins with a dot is relative, so it is put behind the id
  have h_dot : ∀ {text : String} {more : List Char}, text.toList = '.' :: more →
      Path.isAbsolute (withSlashes text) = false := by
    intro text more h_text
    have h_first : ∃ rest, (withSlashes text).toList = '.' :: rest := by simp [withSlashes, h_text]
    obtain ⟨rest, h_rest⟩ := h_first
    exact Path.isAbsolute_of_toList h_rest (by decide)
  have h_fold := foldl_push_withSlashes h
  rw [String.ofList_toList, String.ofList_toList] at h_fold
  obtain ⟨more, rfl⟩ := Text.startsWith_iff.1 h_relative
  have h_raw : ("." ++ more).toList = '.' :: more.toList := by simp
  rw [h_raw] at h
  generalize h_chars : value.toList = chars at h
  cases h with
  | plain h_plain h =>
    unfold join
    rw [Path.normalise_eq_iff, Path.root_join (h_dot h_raw), Path.root_join (h_dot h_chars),
      Path.trail_join (h_dot h_raw), Path.trail_join (h_dot h_chars)]
    refine ⟨rfl, ?_⟩
    simpa only [String.empty_append] using h_fold _ "" _

end ModuleId

namespace Literal

open Syntax

/-! ### What is written -/

/-- A text is plain if its parts are. -/
theorem isPlain_append {a b : String} :
    IsPlain mark (a ++ b) ↔ IsPlain mark a ∧ IsPlain mark b := by
  unfold IsPlain
  rw [String.toList_append, List.forall_mem_append]

/-- Backslashes become slashes, so they do no harm in a path. -/
theorem isPlain_withSlashes_iff {path : String} : IsPlain '\'' (ModuleId.withSlashes path) ↔
    ∀ c ∈ path.toList, c ≠ '\'' ∧ c ≠ '\n' ∧ c ≠ '\r' := by
  unfold IsPlain ModuleId.withSlashes
  rw [Text.toList_mapChars, List.forall_mem_map]
  refine forall₂_congr fun c _ => ?_
  by_cases h : c = '\\'
  · subst h
    decide
  · rw [if_neg h]
    simp [h]

/-- The id of a file is plain if the name of the bundle is and the path beneath the base directory
does no harm. -/
theorem isPlain_ofFile_iff {file base name : String} :
    IsPlain '\'' (ModuleId.ofFile file base name) ↔ IsPlain '\'' name ∧
      ∀ c ∈ (ModuleId.stripSuffix (ModuleId.beneath file base)).toList,
        c ≠ '\'' ∧ c ≠ '\n' ∧ c ≠ '\r' := by
  have h_slash : IsPlain '\'' "/" := by simp [IsPlain]
  unfold ModuleId.ofFile
  rw [isPlain_append, ← isPlain_withSlashes_iff]
  split
  · rfl
  · rw [isPlain_append, and_iff_right h_slash]

/-- A relative reference gets the quotes of its literal, with what lies between them joined as it
stands there. -/
theorem rehome_of_quoted {id raw : String} {source : Bytes} {c : Cursor}
    (h_string : c.node.isString = true) (h_specifier : Reference.isModuleSpecifier source c = true)
    (h_text : Utf8.decode (c.node.text source) = .ok (quoted mark raw))
    (h_relative : ModuleId.isRelative raw = true) :
    Reference.rehome id source c = some (.ofText (quoted mark (ModuleId.join id raw))) := by
  have h_kind : c.node.kind ≠ .declare := by
    intro h
    rw [Reference.isString_eq_false_of_declare h] at h_string
    cases h_string
  have h_join : Reference.joinLiteral id (quoted mark raw)
      = some (quoted mark (ModuleId.join id raw)) :=
    Reference.joinLiteral_eq_some_iff.2 ⟨mark, raw, mark, rfl, h_relative, rfl⟩
  unfold Reference.rehome
  rw [if_neg h_kind, h_string, h_specifier]
  simp only [Bool.and_self, if_true, h_text, h_join, Option.map_some]

/-- **What is written between quotes is a literal of the name meant exactly if it is plain there.**
The id of a block stands in single quotes; the id of a file is plain if the name of the bundle is
and no character of the path beneath the base directory is a single quote or ends a line. A relative
reference is joined as it stands in its literal and keeps the quotes; where it escapes separators
only, that is to join what the literal stands for. -/
theorem value?_written_iff :
    (∀ (style : Style) (id content : String),
      ((Section.block id content).writes style).head?
          = some ("declare module " ++ quoted '\'' id ++ " \x7b" ++ style.eol ++ style.indent) ∧
        (value? (quoted '\'' id) = some (units id.toList) ↔ IsPlain '\'' id)) ∧
    (∀ file base name : String, IsPlain '\'' (ModuleId.ofFile file base name) ↔
      IsPlain '\'' name ∧ ∀ c ∈ (ModuleId.stripSuffix (ModuleId.beneath file base)).toList,
        c ≠ '\'' ∧ c ≠ '\n' ∧ c ≠ '\r') ∧
    ∀ (id raw : String) (mark : Char) (meant : List Nat) (source : Bytes) (c : Cursor),
      c.node.isString = true → Reference.isModuleSpecifier source c = true →
      Utf8.decode (c.node.text source) = .ok (quoted mark raw) →
      value? (quoted mark raw) = some meant → ModuleId.isRelative raw = true →
        Reference.rehome id source c = some (.ofText (quoted mark (ModuleId.join id raw))) ∧
        (value? (quoted mark (ModuleId.join id raw)) = some (units (ModuleId.join id raw).toList) ↔
          IsPlain mark (ModuleId.join id raw)) ∧
        ∀ value : String, meant = units value.toList → (∃ chars, Unescapes raw.toList chars) →
          ModuleId.join id raw = ModuleId.join id value := by
  refine ⟨fun style id content => ⟨?_, value?_quoted_iff (.inl rfl)⟩,
    fun file base name => isPlain_ofFile_iff, ?_⟩
  · rw [Section.writes, List.head?_cons]
    congr 1
    apply String.toList_inj.1
    simp [quoted]
  · intro id raw mark meant source c h_string h_specifier h_text h_value h_relative
    rw [value?_quoted] at h_value
    split at h_value
    · next h_mark =>
      refine ⟨rehome_of_quoted h_string h_specifier h_text h_relative, value?_quoted_iff h_mark, ?_⟩
      rintro value rfl ⟨chars, h_raw⟩
      rw [← units_injective (h_raw.value_eq h_value)] at h_raw
      exact ModuleId.join_unescape h_raw h_relative id
    · cases h_value

/-- A statement with a backslash in its reference. -/
def escapedExport : String :=
  "export * from './x\\\\y';"

/-- The place of the reference. -/
def escapedReference : Cursor :=
  ((Cursor.root (Syntax.parse escapedExport)).preorder.find? (·.node.isString)).getD
    (Cursor.root (Syntax.parse escapedExport))

/-- A file with a backslash in its name, and a reference that escapes one. -/
theorem value?_written_escaped :
    value? (quoted '\'' (ModuleId.ofFile "/src/sub\\b.d.ts" "/src" "pkg"))
        = some (units "pkg/sub/b".toList) ∧
      Reference.rehome "pkg/sub/b" (Utf8.encode escapedExport) escapedReference
          = some (.ofText "'pkg/sub/x/y'") ∧
      value? "'pkg/sub/x/y'" = some (units (ModuleId.join "pkg/sub/b" "./x\\y").toList) := by
  obtain ⟨h_block, h_file, h_reference⟩ := value?_written_iff
  have h_id : ModuleId.ofFile "/src/sub\\b.d.ts" "/src" "pkg" = "pkg/sub/b" := by decide
  have h_beneath : ModuleId.stripSuffix (ModuleId.beneath "/src/sub\\b.d.ts" "/src")
      = "/sub\\b" := by
    decide
  have h_plain := (h_file "/src/sub\\b.d.ts" "/src" "pkg").2 ⟨by decide, by simp [h_beneath]⟩
  have h_unescapes : Unescapes "./x\\\\y".toList "./x\\y".toList :=
    .plain (by decide) (.plain (by decide) (.plain (by decide)
      (.separator (.inl rfl) (.plain (by decide) .nil))))
  obtain ⟨h_rehome, h_value, h_join⟩ := h_reference "pkg/sub/b" "./x\\\\y" '\''
    (units "./x\\y".toList) (Utf8.encode escapedExport) escapedReference (by decide +kernel)
    (by decide +kernel) (by decide +kernel) (by decide +kernel) (by decide)
  have h_written : ModuleId.join "pkg/sub/b" "./x\\\\y" = "pkg/sub/x/y" := by decide +kernel
  rw [h_written] at h_rehome h_value h_join
  refine ⟨?_, h_rehome, ?_⟩
  · rw [h_id] at h_plain ⊢
    exact (h_block ⟨"\n", "\t"⟩ "pkg/sub/b" "").2.2 h_plain
  · rw [← h_join "./x\\y" rfl ⟨_, h_unescapes⟩]
    exact h_value.2 (by decide +kernel)

/-- **Names with quotes and references with other escapes** are not written as what they stand
for. -/
theorem not_forall_value?_written :
    (¬ ∀ file base name : String, Path.isUnder file base = true →
      value? (quoted '\'' (ModuleId.ofFile file base name))
        = some (units (ModuleId.ofFile file base name).toList)) ∧
    ¬ ∀ id literal value written : String, value? literal = some (units value.toList) →
      ModuleId.isRelative value = true → Reference.joinLiteral id literal = some written →
        value? written = some (units (ModuleId.join id value).toList) := by
  constructor
  · intro h
    -- the quote in the name ends the literal
    exact absurd (h "/src/it's.d.ts" "/src" "pkg" (by decide +kernel)) (by decide +kernel)
  · intro h
    -- the escape is cut apart, since its backslash is taken for a separator
    exact absurd (h "pkg/a" "'./caf\\u00e9'" "./café" "'pkg/caf/u00e9'" (by decide +kernel)
      (by decide +kernel) (by decide +kernel)) (by decide +kernel)

end Literal

end DeclarationBundle
