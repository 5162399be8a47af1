/-!
# Text

Operations on `String` that the library needs and that are read off the list of characters: a cut at
either end, a test of either end, the fields between separators. Each is pinned by what it does to
`String.toList`, so a proof about text is a proof about lists.

* `Text.fields` cuts at every separator and `String.intercalate` puts the cuts back
  (`intercalate_fields`).
-/

namespace DeclarationBundle.Text

/-- `s` with every character changed by `f`. -/
def mapChars (f : Char → Char) (s : String) : String :=
  String.ofList (s.toList.map f)

/-- `s` begins with `start`. -/
def startsWith (s start : String) : Bool :=
  start.toList.isPrefixOf s.toList

/-- `s` ends with `tail`. -/
def endsWith (s tail : String) : Bool :=
  tail.toList.isSuffixOf s.toList

/-- `s` without its first `n` characters. -/
def drop (s : String) (n : Nat) : String :=
  String.ofList (s.toList.drop n)

/-- `s` without its last `n` characters. -/
def dropEnd (s : String) (n : Nat) : String :=
  String.ofList (s.toList.take (s.toList.length - n))

/-- `s` from its first character that fails `p`. -/
def dropWhile (p : Char → Bool) (s : String) : String :=
  String.ofList (s.toList.dropWhile p)

/-- `s` up to its last character that fails `p`. -/
def dropEndWhile (p : Char → Bool) (s : String) : String :=
  String.ofList (s.toList.reverse.dropWhile p).reverse

/-- `s` without the characters satisfying `p` at its two ends. -/
def trim (p : Char → Bool) (s : String) : String :=
  dropEndWhile p (dropWhile p s)

/-- The fields of `s` between separators; the empty text is one empty field. -/
def fields (separator : Char) (s : String) : List String :=
  (s.toList.splitOn separator).map String.ofList

/-- Some characters with every line end as a line feed. -/
def lineFeeds : List Char → List Char
  | '\r' :: '\n' :: rest => '\n' :: lineFeeds rest
  | '\r' :: rest => '\n' :: lineFeeds rest
  | c :: rest => c :: lineFeeds rest
  | [] => []

/-- `s` with every line end as a line feed. -/
def withLineFeeds (s : String) : String :=
  String.ofList (lineFeeds s.toList)

@[simp] theorem toList_mapChars (f : Char → Char) (s : String) :
    (mapChars f s).toList = s.toList.map f :=
  String.toList_ofList

@[simp] theorem toList_drop (s : String) (n : Nat) : (drop s n).toList = s.toList.drop n :=
  String.toList_ofList

@[simp] theorem toList_dropEnd (s : String) (n : Nat) :
    (dropEnd s n).toList = s.toList.take (s.toList.length - n) :=
  String.toList_ofList

@[simp] theorem toList_dropWhile (p : Char → Bool) (s : String) :
    (dropWhile p s).toList = s.toList.dropWhile p :=
  String.toList_ofList

@[simp] theorem toList_dropEndWhile (p : Char → Bool) (s : String) :
    (dropEndWhile p s).toList = (s.toList.reverse.dropWhile p).reverse :=
  String.toList_ofList

theorem startsWith_iff {s start : String} :
    startsWith s start = true ↔ ∃ rest, s = start ++ rest := by
  simp only [startsWith, List.isPrefixOf_iff_prefix]
  constructor
  · rintro ⟨rest, h⟩
    exact ⟨String.ofList rest, String.toList_inj.1 (by simp [h])⟩
  · rintro ⟨rest, rfl⟩
    exact ⟨rest.toList, by simp⟩

theorem endsWith_iff {s tail : String} :
    endsWith s tail = true ↔ ∃ front, s = front ++ tail := by
  simp only [endsWith, List.isSuffixOf_iff_suffix]
  constructor
  · rintro ⟨front, h⟩
    exact ⟨String.ofList front, String.toList_inj.1 (by simp [h])⟩
  · rintro ⟨front, rfl⟩
    exact ⟨front.toList, by simp⟩

@[simp] theorem fields_ne_nil (separator : Char) (s : String) : fields separator s ≠ [] := by
  simp [fields]

/-- A part of a list cut at every `separator` never holds it. -/
private theorem notMem_of_mem_splitOn {separator : Char} (cs : List Char) {part : List Char}
    (h : part ∈ cs.splitOn separator) : separator ∉ part := by
  induction cs generalizing part with
  | nil =>
    rw [List.splitOn_nil, List.mem_singleton] at h
    simp [h]
  | cons c cs ih =>
    rw [List.splitOn_cons_eq_if_modifyHead] at h
    split at h
    · rcases List.mem_cons.1 h with rfl | h
      · simp
      · exact ih h
    · next hc =>
      obtain ⟨first, rest, h_split⟩ := List.exists_cons_of_ne_nil (List.splitOn_ne_nil separator cs)
      rw [h_split] at h ih
      rcases List.mem_cons.1 h with rfl | h
      · have h_first := ih (List.mem_cons_self ..)
        simp only [beq_iff_eq] at hc
        simp [h_first, Ne.symm hc]
      · exact ih (List.mem_cons_of_mem _ h)

/-- A field never holds the separator. -/
theorem notMem_of_mem_fields {separator : Char} {s field : String}
    (h : field ∈ fields separator s) :
    separator ∉ field.toList := by
  obtain ⟨chars, h_mem, rfl⟩ := List.mem_map.1 h
  rw [String.toList_ofList]
  exact notMem_of_mem_splitOn s.toList h_mem

/-- The fields on both sides of a separator. -/
theorem fields_append (separator : Char) (a b : String) :
    fields separator (a ++ String.singleton separator ++ b)
      = fields separator a ++ fields separator b := by
  simp [fields, List.splitOn_append_cons_self]

/-- Texts without the separator are the fields of the text that they make up. -/
theorem fields_intercalate {separator : Char} {parts : List String}
    (h : ∀ part ∈ parts, separator ∉ part.toList) (h_ne : parts ≠ []) :
    fields separator ((String.singleton separator).intercalate parts) = parts := by
  have h_chars : ∀ chars ∈ parts.map String.toList, separator ∉ chars := by
    intro chars h_mem
    obtain ⟨part, h_part, rfl⟩ := List.mem_map.1 h_mem
    exact h part h_part
  rw [fields, String.toList_intercalate, String.toList_singleton,
    List.splitOn_intercalate separator h_chars (by simpa using h_ne)]
  simp [Function.comp_def]

/-- Nothing is lost between the fields but the separators. -/
theorem intercalate_fields (separator : Char) (s : String) :
    (String.singleton separator).intercalate (fields separator s) = s := by
  apply String.toList_inj.1
  simp [fields, Function.comp_def, List.intercalate_splitOn]

end DeclarationBundle.Text
