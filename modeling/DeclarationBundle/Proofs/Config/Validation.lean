import DeclarationBundle.Config.Basic
import DeclarationBundle.Proofs.Path.Trail

/-!
# Validation of configurations

What can be wrong with the value that writes a configuration is said here without the table of
fields that the validation goes through: which names there are, which of them have to be given, what
each holds, and which values count as not given (`Config.IsWrong`).

* `Config.mem_violations_iff` — the validation complains about all of it and nothing else;
* `Config.pairwise_violations` — the complaints stand in the order of the fields, and within a list
  in that of its items, so that there are no two of the same thing;
* `Config.ofJson_toMembers` — the members that write a configuration in good order are read back as
  that configuration, from any working directory;
* `Config.ofJson_cases` — so a value is either read as such a configuration, or refused with all
  that is wrong with it.
-/

namespace DeclarationBundle.Config

/-! ### What can be wrong -/

/-- The names of the fields, in order. -/
def fieldNames : List String :=
  ["base_dir", "files", "excludes", "externs", "eol", "includes", "indent", "main", "name", "out",
    "target", "compiler"]

/-- The fields that have to be given. -/
def requiredNames : List String :=
  ["base_dir", "name", "out"]

/-- The fields that hold a text. -/
def textNames : List String :=
  ["base_dir", "eol", "indent", "main", "name", "out", "target"]

/-- The fields that hold a list of texts. -/
def listNames : List String :=
  ["files", "excludes", "externs", "includes", "compiler"]

/-- **A value that counts as not given**: one that stands for nothing as a line end or a target, and
null as an indentation or a main module. -/
def IsVoid (name : String) (value : Json) : Prop :=
  (name = "eol" ∨ name = "target") ∧ value.isEmptyLike = true ∨
    (name = "indent" ∨ name = "main") ∧ value = .null

/-- **What is wrong with a value that should be a text.** A string with half of a surrogate pair
alone is a string but no text, and the complaint about it is one of its own. -/
inductive IsNoText : Json → Complaint → Prop where
  | notText {value : Json} (h_text : ∀ text, value ≠ .string text)
      (h_broken : ∀ codes, value ≠ .brokenText codes) : IsNoText value .notText
  | notUnicode (codes : List Nat) : IsNoText (.brokenText codes) .notUnicode

/-- **What is wrong with a value** that is to write a configuration. -/
inductive IsWrong : Json → Violation → Prop where
  | notObject {value : Json} (h : ∀ members, value ≠ .object members) :
      IsWrong value ⟨.whole, .notObject⟩
  | missing {members : Members} {name : String} (h_name : name ∈ requiredNames)
      (h_none : Json.getMember? members name = none) :
      IsWrong (.object members) ⟨.field name, .missing⟩
  | notText {members : Members} {name : String} {value : Json} {complaint : Complaint}
      (h_name : name ∈ textNames) (h_some : Json.getMember? members name = some value)
      (h_void : ¬ IsVoid name value) (h_text : IsNoText value complaint) :
      IsWrong (.object members) ⟨.field name, complaint⟩
  | notList {members : Members} {name : String} {value : Json} (h_name : name ∈ listNames)
      (h_some : Json.getMember? members name = some value)
      (h_list : ∀ items, value ≠ .array items) :
      IsWrong (.object members) ⟨.field name, .notList⟩
  | notTextItem {members : Members} {name : String} {items : List Json} {index : Nat} {item : Json}
      {complaint : Complaint} (h_name : name ∈ listNames)
      (h_some : Json.getMember? members name = some (.array items))
      (h_item : items[index]? = some item) (h_text : IsNoText item complaint) :
      IsWrong (.object members) ⟨.item name index, complaint⟩

/-- Where complaints about a subject stand: by field, and then by index. -/
def Subject.place : Subject → Nat ×ₗ Nat
  | .whole => toLex (0, 0)
  | .field name => toLex (fieldNames.idxOf name, 0)
  | .item name index => toLex (fieldNames.idxOf name, index)

/-! ### The table of fields -/

/-- **A field is as it is said to be** under its name. -/
structure Field.IsListed (f : Field) : Prop where
  name : f.name ∈ fieldNames
  isRequired : f.isRequired = true ↔ f.name ∈ requiredNames
  text : f.shape = .text ↔ f.name ∈ textNames
  texts : f.shape = .texts ↔ f.name ∈ listNames
  ignores : ∀ value, f.ignores value = true ↔ IsVoid f.name value

/-- The only value that stands for nothing as an indentation or a main module is null. -/
theorem justNull_iff (value : Json) : justNull value = true ↔ value = .null := by
  cases value <;> simp [justNull]

/-- **The table of fields says what is said here**, about each of its twelve rows. -/
theorem isListed_of_mem_fields {f : Field} (h : f ∈ fields) : f.IsListed := by
  simp only [fields, List.mem_cons, List.not_mem_nil, or_false] at h
  -- row by row: what is said about the row is compared with the lists of names
  rcases h with rfl | rfl | rfl | rfl | rfl | rfl | rfl | rfl | rfl | rfl | rfl | rfl <;>
    constructor <;>
    simp [fieldNames, requiredNames, textNames, listNames, IsVoid, nothing, justNull_iff]

/-- Every name is that of a field. -/
theorem exists_mem_fields {name : String} (h : name ∈ fieldNames) :
    ∃ f ∈ fields, f.name = name := by
  have h_names : fields.map (·.name) = fieldNames := rfl
  rw [← h_names] at h
  exact List.mem_map.1 h

/-- A value for a field that has to be given is never passed over. -/
theorem not_isVoid_of_mem_requiredNames {name : String} (h : name ∈ requiredNames) (value : Json) :
    ¬ IsVoid name value := by
  simp only [requiredNames, List.mem_cons, List.not_mem_nil, or_false] at h
  rcases h with rfl | rfl | rfl <;> simp [IsVoid]

/-- Neither is one for a field that holds a list. -/
theorem not_isVoid_of_mem_listNames {name : String} (h : name ∈ listNames) (value : Json) :
    ¬ IsVoid name value := by
  simp only [listNames, List.mem_cons, List.not_mem_nil, or_false] at h
  rcases h with rfl | rfl | rfl | rfl | rfl <;> simp [IsVoid]

section Field

variable {f : Field} {members : Members} {value : Json}

/-- A field has a value if a member of its name is there and counts as given. -/
theorem Field.IsListed.given?_eq_some_iff (h : f.IsListed) :
    f.given? members = some value ↔
      Json.getMember? members f.name = some value ∧ ¬ IsVoid f.name value := by
  unfold Field.given?
  cases h_member : Json.getMember? members f.name with
  | none => simp
  | some found =>
    by_cases h_void : f.ignores found = true
    · -- what is ignored counts as not given
      have h_is := (h.ignores found).1 h_void
      simp only [h_void, if_true, reduceCtorEq, Option.some.injEq, false_iff, not_and, not_not]
      rintro rfl
      exact h_is
    · have h_not := mt (h.ignores found).2 h_void
      simp only [h_void, Bool.false_eq_true, if_false, Option.some.injEq]
      constructor
      · rintro rfl
        exact ⟨rfl, h_not⟩
      · exact And.left

/-- A field that has to be given has no value only if there is no member of its name. -/
theorem Field.IsListed.given?_eq_none_iff (h : f.IsListed) (h_required : f.name ∈ requiredNames) :
    f.given? members = none ↔ Json.getMember? members f.name = none := by
  rw [Option.eq_none_iff_forall_ne_some, Option.eq_none_iff_forall_ne_some]
  refine forall_congr' fun value => not_congr ?_
  rw [h.given?_eq_some_iff]
  exact and_iff_left (not_isVoid_of_mem_requiredNames h_required value)

end Field

/-! ### The complaints about one field -/

/-- The test of a value that should be a text finds just what is wrong with it. -/
theorem textComplaint?_eq_some_iff {value : Json} {complaint : Complaint} :
    textComplaint? value = some complaint ↔ IsNoText value complaint := by
  constructor
  · intro h
    cases value with
    | string text => cases h
    | brokenText codes =>
      cases h
      exact .notUnicode codes
    | _ =>
      -- the value is of another type, so it is no string of either kind
      cases h
      exact .notText (fun _ => Json.noConfusion) fun _ => Json.noConfusion
  · intro h
    cases h with
    | notUnicode codes => rfl
    | notText h_text h_broken =>
      cases value with
      | string text => exact absurd rfl (h_text text)
      | brokenText codes => exact absurd rfl (h_broken codes)
      | _ => rfl

/-- Nothing is wrong with a text as a text. -/
theorem not_isNoText_string (text : String) (complaint : Complaint) :
    ¬ IsNoText (.string text) complaint := by
  intro h
  cases h with
  | notText h_text _ => exact h_text text rfl

/-- A value that nothing is wrong with as a text is one. -/
theorem exists_text_of_forall_not_isNoText {value : Json}
    (h : ∀ complaint, ¬ IsNoText value complaint) : ∃ text, value = .string text := by
  cases value with
  | string text => exact ⟨text, rfl⟩
  | brokenText codes => exact absurd (.notUnicode codes) (h _)
  | _ =>
    refine absurd (.notText ?_ ?_) (h .notText) <;>
      exact fun _ => Json.noConfusion

/-- The complaints about a single value are what is wrong with it as a text, so there is one at
most. -/
theorem mem_toList_complaint_iff {value : Json} {subject : Subject} {v : Violation} :
    v ∈ ((textComplaint? value).map (⟨subject, ·⟩)).toList ↔
      ∃ complaint, IsNoText value complaint ∧ v = ⟨subject, complaint⟩ := by
  simp only [Option.mem_toList, Option.map_eq_some_iff, textComplaint?_eq_some_iff]
  exact exists_congr fun _ => and_congr_right fun _ => eq_comm

/-- The complaints about items are those about the ones that are no texts. -/
theorem mem_itemViolations_iff {name : String} {items : List Json} {start : Nat} {v : Violation} :
    v ∈ itemViolations name start items ↔ ∃ index item complaint, items[index]? = some item ∧
      IsNoText item complaint ∧ v = ⟨.item name (start + index), complaint⟩ := by
  induction items generalizing start with
  | nil => simp [itemViolations]
  | cons first items ih =>
    rw [itemViolations, List.mem_append, mem_toList_complaint_iff, ih]
    -- an index into the list is the first one or leads into the rest
    constructor
    · rintro (⟨complaint, h_text, rfl⟩ | ⟨index, item, complaint, h_item, h_text, rfl⟩)
      · exact ⟨0, first, complaint, rfl, h_text, rfl⟩
      · refine ⟨index + 1, item, complaint, by simpa using h_item, h_text, ?_⟩
        rw [Nat.add_right_comm, Nat.add_assoc]
    · rintro ⟨index, item, complaint, h_item, h_text, rfl⟩
      cases index with
      | zero =>
        obtain rfl : first = item := by simpa using h_item
        exact .inl ⟨complaint, h_text, rfl⟩
      | succ index =>
        refine .inr ⟨index, item, complaint, by simpa using h_item, h_text, ?_⟩
        rw [Nat.add_right_comm, Nat.add_assoc]

/-- The field that a complaint is about. -/
def Subject.name? : Subject → Option String
  | .whole => none
  | .field name => some name
  | .item name _ => some name

section Complaints

variable {f : Field} (h : f.IsListed) {members : Members} {v : Violation}

include h

/-- **A field complains about what is wrong with it**, and about nothing that belongs to another
field. -/
theorem Field.IsListed.isWrong_of_mem_violations (h_mem : v ∈ f.violations members) :
    v.subject.name? = some f.name ∧ IsWrong (.object members) v := by
  unfold Field.violations at h_mem
  cases h_given : f.given? members with
  | none =>
    rw [h_given] at h_mem
    -- no value is given, which is wrong only if the field has to have one
    cases h_required : f.isRequired with
    | false => simp [h_required] at h_mem
    | true =>
      have h_name := h.isRequired.1 h_required
      obtain rfl : v = ⟨.field f.name, .missing⟩ := by simpa [h_required] using h_mem
      exact ⟨rfl, .missing h_name ((h.given?_eq_none_iff h_name).1 h_given)⟩
  | some value =>
    obtain ⟨h_some, h_void⟩ := h.given?_eq_some_iff.1 h_given
    simp only [h_given, Field.valueViolations] at h_mem
    cases h_shape : f.shape with
    | text =>
      simp only [h_shape] at h_mem
      obtain ⟨complaint, h_text, rfl⟩ := mem_toList_complaint_iff.1 h_mem
      exact ⟨rfl, .notText (h.text.1 h_shape) h_some h_void h_text⟩
    | texts =>
      have h_name := h.texts.1 h_shape
      simp only [h_shape] at h_mem
      split at h_mem
      · next items =>
        obtain ⟨index, item, complaint, h_item, h_text, rfl⟩ := mem_itemViolations_iff.1 h_mem
        rw [Nat.zero_add]
        exact ⟨rfl, .notTextItem h_name h_some h_item h_text⟩
      · next h_list =>
        obtain rfl := List.mem_singleton.1 h_mem
        exact ⟨rfl, .notList h_name h_some fun items h_items => h_list items h_items⟩

/-- **Whatever is wrong with a field, it complains about.** -/
theorem Field.IsListed.mem_violations_of_isWrong (h_about : v.subject.name? = some f.name)
    (h_wrong : IsWrong (.object members) v) : v ∈ f.violations members := by
  unfold Field.violations
  -- each kind of fault is found by the test that the shape of the field asks for
  cases h_wrong with
  | notObject h_object => exact absurd rfl (h_object members)
  | missing h_name h_none =>
    obtain rfl := Option.some.inj h_about
    rw [(h.given?_eq_none_iff h_name).2 h_none]
    simp [h.isRequired.2 h_name]
  | notText h_name h_some h_void h_text =>
    obtain rfl := Option.some.inj h_about
    rw [h.given?_eq_some_iff.2 ⟨h_some, h_void⟩]
    simp only [Field.valueViolations, h.text.2 h_name]
    exact mem_toList_complaint_iff.2 ⟨_, h_text, rfl⟩
  | @notList _ _ value h_name h_some h_list =>
    obtain rfl := Option.some.inj h_about
    rw [h.given?_eq_some_iff.2 ⟨h_some, not_isVoid_of_mem_listNames h_name value⟩]
    simp only [Field.valueViolations, h.texts.2 h_name]
    exact List.mem_singleton_self _
  | @notTextItem _ _ items index item complaint h_name h_some h_item h_text =>
    obtain rfl := Option.some.inj h_about
    rw [h.given?_eq_some_iff.2 ⟨h_some, not_isVoid_of_mem_listNames h_name _⟩]
    simp only [Field.valueViolations, h.texts.2 h_name]
    exact mem_itemViolations_iff.2 ⟨index, item, complaint, h_item, h_text, by rw [Nat.zero_add]⟩

end Complaints

/-! ### All complaints -/

/-- Whatever is wrong with an object is wrong with one of the fields: members of other names are
passed over. -/
theorem IsWrong.exists_name {members : Members} {v : Violation} (h : IsWrong (.object members) v) :
    ∃ name ∈ fieldNames, v.subject.name? = some name := by
  have h_required : requiredNames ⊆ fieldNames := by decide
  have h_texts : textNames ⊆ fieldNames := by decide
  have h_lists : listNames ⊆ fieldNames := by decide
  cases h with
  | notObject h_object => exact absurd rfl (h_object members)
  | missing h_name _ => exact ⟨_, h_required h_name, rfl⟩
  | notText h_name _ _ _ => exact ⟨_, h_texts h_name, rfl⟩
  | notList h_name _ _ => exact ⟨_, h_lists h_name, rfl⟩
  | notTextItem h_name _ _ _ => exact ⟨_, h_lists h_name, rfl⟩

/-- **The validation complains about all that is wrong and nothing else.** -/
theorem mem_violations_iff {members : Members} {v : Violation} :
    v ∈ violations members ↔ IsWrong (.object members) v := by
  unfold violations
  rw [List.mem_flatMap]
  constructor
  · rintro ⟨f, h_field, h_mem⟩
    exact ((isListed_of_mem_fields h_field).isWrong_of_mem_violations h_mem).2
  · intro h_wrong
    obtain ⟨name, h_name, h_about⟩ := h_wrong.exists_name
    obtain ⟨f, h_field, rfl⟩ := exists_mem_fields h_name
    exact ⟨f, h_field, (isListed_of_mem_fields h_field).mem_violations_of_isWrong h_about h_wrong⟩

/-- There is no order to keep where there is one complaint at most. -/
theorem pairwise_toList (complaint : Option Violation) :
    complaint.toList.Pairwise fun a b => a.subject.place < b.subject.place := by
  cases complaint with
  | none => exact List.Pairwise.nil
  | some v => exact List.pairwise_singleton ..

/-- Complaints about the items of a list stand in the order of the items. -/
theorem pairwise_itemViolations (name : String) (start : Nat) (items : List Json) :
    (itemViolations name start items).Pairwise fun a b => a.subject.place < b.subject.place := by
  induction items generalizing start with
  | nil => exact List.Pairwise.nil
  | cons first items ih =>
    rw [itemViolations]
    refine List.pairwise_append.2 ⟨pairwise_toList _, ih (start + 1), fun v h_first w h_rest => ?_⟩
    -- the first item stands before all others
    obtain ⟨-, -, rfl⟩ := mem_toList_complaint_iff.1 h_first
    obtain ⟨index, item, -, -, -, rfl⟩ := mem_itemViolations_iff.1 h_rest
    show toLex (fieldNames.idxOf name, start) < toLex (fieldNames.idxOf name, start + 1 + index)
    rw [Prod.Lex.toLex_lt_toLex]
    exact .inr ⟨rfl, by omega⟩

/-- The complaints about one field stand in order, be it a text or a list. -/
theorem pairwise_field_violations (f : Field) (members : Members) :
    (f.violations members).Pairwise fun a b => a.subject.place < b.subject.place := by
  unfold Field.violations Field.valueViolations
  split
  · split
    · exact pairwise_toList _
    · split
      · exact pairwise_itemViolations ..
      · exact List.pairwise_singleton ..
  · split
    · exact List.pairwise_singleton ..
    · exact List.Pairwise.nil

/-- Complaints about a field stand at its place among the fields. -/
theorem place_of_name? {subject : Subject} {name : String} (h : subject.name? = some name) :
    ∃ index, subject.place = toLex (fieldNames.idxOf name, index) := by
  cases subject with
  | whole => cases h
  | field found =>
    obtain rfl := Option.some.inj h
    exact ⟨0, rfl⟩
  | item found index =>
    obtain rfl := Option.some.inj h
    exact ⟨index, rfl⟩

/-- **The complaints stand in the order of the fields**, and within a list in that of its items. -/
theorem pairwise_violations (members : Members) :
    (violations members).Pairwise fun a b => a.subject.place < b.subject.place := by
  have h_fields :
      fields.Pairwise fun a b => fieldNames.idxOf a.name < fieldNames.idxOf b.name := by
    decide
  unfold violations
  refine List.pairwise_flatMap.2 ⟨fun f _ => pairwise_field_violations f members, ?_⟩
  -- complaints about different fields stand as the fields do
  refine h_fields.imp_of_mem fun {f g} h_f h_g h_before v h_v w h_w => ?_
  obtain ⟨i, h_i⟩ :=
    place_of_name? ((isListed_of_mem_fields h_f).isWrong_of_mem_violations h_v).1
  obtain ⟨j, h_j⟩ :=
    place_of_name? ((isListed_of_mem_fields h_g).isWrong_of_mem_violations h_w).1
  rw [h_i, h_j, Prod.Lex.toLex_lt_toLex]
  exact .inl h_before

/-! ### What is read -/

section Read

variable {members : Members} {name : String}

/-- What is read under the name of a field is the value that was given for it. -/
theorem given?_eq_some_iff (h : name ∈ fieldNames) {value : Json} :
    given? members name = some value ↔
      Json.getMember? members name = some value ∧ ¬ IsVoid name value := by
  obtain ⟨f, h_field, h_name⟩ := exists_mem_fields h
  unfold given?
  cases h_find : fields.find? (·.name = name) with
  | none => exact absurd h_name (by simpa using List.find?_eq_none.1 h_find f h_field)
  | some found =>
    obtain rfl : found.name = name := by simpa using List.find?_some h_find
    exact (isListed_of_mem_fields (List.mem_of_find?_eq_some h_find)).given?_eq_some_iff

/-- A text is read under the name of a field if it was given for it. -/
theorem textOf_eq_some_iff (h : name ∈ fieldNames) {text : String} :
    textOf members name = some text ↔
      Json.getMember? members name = some (.string text) ∧ ¬ IsVoid name (.string text) := by
  unfold textOf
  rw [Option.bind_eq_some_iff]
  constructor
  · rintro ⟨value, h_given, h_text⟩
    obtain rfl : value = .string text := by
      cases value <;> simp [Json.text?] at h_text
      rw [h_text]
    exact (given?_eq_some_iff h).1 h_given
  · intro h_text
    exact ⟨.string text, (given?_eq_some_iff h).2 h_text, rfl⟩

/-- Texts that were written as values are read back. -/
theorem filterMap_text?_map (texts : List String) :
    (texts.map Json.string).filterMap Json.text? = texts := by
  rw [List.filterMap_map]
  exact List.filterMap_some

/-- A list of texts is read as what it writes. -/
theorem textsOf_of_texts (h : name ∈ listNames) {texts : List String}
    (h_some : Json.getMember? members name = some (.array (texts.map .string))) :
    textsOf members name = some texts := by
  have h_field : name ∈ fieldNames := (by decide : listNames ⊆ fieldNames) h
  have h_given := (given?_eq_some_iff h_field).2 ⟨h_some, not_isVoid_of_mem_listNames h _⟩
  unfold textsOf
  rw [h_given]
  exact congrArg some (filterMap_text?_map texts)

/-- A text that stands for nothing is read as neither a line end nor a target. -/
theorem textOf_ne_empty (h : name = "eol" ∨ name = "target") : textOf members name ≠ some "" := by
  intro h_text
  have h_field : name ∈ fieldNames := by rcases h with rfl | rfl <;> decide
  exact ((textOf_eq_some_iff h_field).1 h_text).2 (.inl ⟨h, rfl⟩)

end Read

/-- **A configuration in good order.** -/
structure IsSound (c : Config) : Prop where
  isAbsolute : Path.isAbsolute c.baseDir = true
  normalise_eq : Path.normalise c.baseDir = c.baseDir
  eol : c.eol ≠ ""
  target : c.target ≠ ""

/-- A text that is not empty, or else a default that is not, is not empty. -/
theorem getD_ne_empty {text : Option String} {default : String} (h : text ≠ some "")
    (h_default : default ≠ "") : text.getD default ≠ "" := by
  cases text with
  | none => exact h_default
  | some text => exact fun h_empty => h (congrArg some h_empty)

/-- What is read is in good order, whatever was given. -/
theorem isSound_ofMembers {cwd : String} (h_cwd : Path.isAbsolute cwd = true) (members : Members) :
    IsSound (ofMembers cwd members) := by
  constructor <;> dsimp only [ofMembers]
  · exact Path.isAbsolute_absolute h_cwd _
  · exact Path.normalise_absolute cwd _
  · exact getD_ne_empty (textOf_ne_empty (.inl rfl)) (by decide)
  · exact getD_ne_empty (textOf_ne_empty (.inr rfl)) (by decide)

/-! ### Written and read -/

/-- The first member of a name is the one that counts. -/
theorem getMember?_cons (key name : String) (value : Json) (members : Members) :
    Json.getMember? ((key, value) :: members) name
      = if key = name then some value else Json.getMember? members name := by
  unfold Json.getMember?
  rw [List.find?_cons]
  by_cases h : key = name
  · simp [h]
  · simp [h]

/-- A configuration writes a text for every field that holds one, or null for a main module that it
does not have. -/
theorem getMember?_toMembers_of_text (c : Config) {name : String} (h : name ∈ textNames) :
    (∃ text, Json.getMember? c.toMembers name = some (.string text)) ∨
      Json.getMember? c.toMembers name = some .null ∧ name = "main" := by
  simp only [textNames, List.mem_cons, List.not_mem_nil, or_false] at h
  rcases h with rfl | rfl | rfl | rfl | rfl | rfl | rfl <;> simp [toMembers, getMember?_cons]
  -- of these, only the main module can be null
  cases c.main <;> simp

/-- It writes a list of texts for every field that holds one. -/
theorem getMember?_toMembers_of_list (c : Config) {name : String} (h : name ∈ listNames) :
    ∃ texts : List String,
      Json.getMember? c.toMembers name = some (.array (texts.map .string)) := by
  simp only [listNames, List.mem_cons, List.not_mem_nil, or_false] at h
  rcases h with rfl | rfl | rfl | rfl | rfl <;> simp [toMembers, getMember?_cons]

/-- Nothing is wrong with the members that write a configuration. -/
theorem violations_toMembers (c : Config) : violations c.toMembers = [] := by
  rw [List.eq_nil_iff_forall_not_mem]
  intro v h_mem
  -- every kind of fault contradicts what is known of the members that were written
  cases mem_violations_iff.1 h_mem with
  | notObject h_object => exact h_object _ rfl
  | missing h_name h_none =>
    rcases getMember?_toMembers_of_text c ((by decide : requiredNames ⊆ textNames) h_name) with
      ⟨text, h⟩ | ⟨h, -⟩ <;> rw [h_none] at h <;> cases h
  | notText h_name h_some h_void h_text =>
    rcases getMember?_toMembers_of_text c h_name with ⟨text, h⟩ | ⟨h, h_main⟩ <;>
      rw [h_some] at h <;> obtain rfl := Option.some.inj h
    · exact not_isNoText_string text _ h_text
    · exact h_void (.inr ⟨.inr h_main, rfl⟩)
  | notList h_name h_some h_list =>
    obtain ⟨texts, h⟩ := getMember?_toMembers_of_list c h_name
    rw [h_some] at h
    exact h_list _ (Option.some.inj h)
  | notTextItem h_name h_some h_item h_text =>
    obtain ⟨texts, h⟩ := getMember?_toMembers_of_list c h_name
    rw [h_some] at h
    cases h
    obtain ⟨text, -, rfl⟩ := List.mem_map.1 (List.mem_of_getElem? h_item)
    exact not_isNoText_string text _ h_text

/-- What a configuration in good order writes is read as that configuration. The base directory is
absolute, so it makes no difference where it is read from; line end and target are not empty, so no
default takes their place. -/
theorem ofMembers_toMembers {c : Config} (h : IsSound c) (cwd : String) :
    ofMembers cwd c.toMembers = c := by
  have h_base : Path.absolute cwd c.baseDir = c.baseDir := by
    have h_join : Path.join cwd c.baseDir = c.baseDir := if_pos h.isAbsolute
    unfold Path.absolute
    rw [h_join, h.normalise_eq]
  have h_eol : ¬ (c.eol == "") = true := by simpa using h.eol
  have h_target : ¬ (c.target == "") = true := by simpa using h.target
  obtain ⟨baseDir, files, excludes, externs, eol, includes, indent, main, name, out, target,
    compiler⟩ := c
  cases main <;>
    simp [ofMembers, textOf, textsOf, given?, fields, Field.given?, toMembers, getMember?_cons,
      nothing, justNull, Json.isEmptyLike, Json.text?, h_base, h_eol, h_target, filterMap_text?_map,
      -List.filterMap_map]

/-! ### The validation of a value -/

/-- **A configuration holds what a value gives**: the base directory as it is read from `cwd`, and
every other field with the value given for it, unless that counts as not given. -/
structure Holds (c : Config) (cwd : String) (value : Json) : Prop where
  baseDir : ∃ text, value.member? "base_dir" = some (.string text) ∧
    c.baseDir = Path.absolute cwd text
  others : ∀ name ∈ fieldNames, name ≠ "base_dir" → ∀ given, value.member? name = some given →
    ¬ IsVoid name given → Json.getMember? c.toMembers name = some given

section Right

variable {members : Members} (h : ∀ v, ¬ IsWrong (.object members) v) {name : String} {value : Json}
  (h_some : Json.getMember? members name = some value)

include h h_some

/-- If nothing is wrong with an object, what it gives for a text is a text, and is read as that. -/
theorem exists_text_of_not_isWrong (h_name : name ∈ textNames) (h_void : ¬ IsVoid name value) :
    ∃ text, value = .string text ∧ textOf members name = some text := by
  have h_text : ∃ text, value = .string text := by
    refine exists_text_of_forall_not_isNoText fun complaint h_no => ?_
    exact h _ (.notText h_name h_some h_void h_no)
  obtain ⟨text, rfl⟩ := h_text
  have h_field : name ∈ fieldNames := (by decide : textNames ⊆ fieldNames) h_name
  exact ⟨text, rfl, (textOf_eq_some_iff h_field).2 ⟨h_some, h_void⟩⟩

/-- What it gives for a list is then a list of texts, and is read as these. -/
theorem exists_texts_of_not_isWrong (h_name : name ∈ listNames) :
    ∃ texts, value = .array (texts.map .string) ∧ textsOf members name = some texts := by
  have h_list : ∃ items, value = .array items := by
    by_contra h_not
    exact h _ (.notList h_name h_some (not_exists.1 h_not))
  obtain ⟨items, rfl⟩ := h_list
  have h_items : ∀ item ∈ items, item ∈ Set.range Json.string := by
    intro item h_mem
    obtain ⟨index, h_item⟩ := List.mem_iff_getElem?.1 h_mem
    obtain ⟨text, rfl⟩ := exists_text_of_forall_not_isNoText fun complaint h_no =>
      h _ (.notTextItem h_name h_some h_item h_no)
    exact ⟨text, rfl⟩
  have h_range : items ∈ Set.range (List.map Json.string) := by
    rw [Set.range_list_map]
    exact h_items
  obtain ⟨texts, rfl⟩ := h_range
  exact ⟨texts, rfl, textsOf_of_texts h_name h_some⟩

end Right

/-- **What is read of an object with nothing wrong is what it gives**, field by field. -/
theorem holds_ofMembers {members : Members} (h : ∀ v, ¬ IsWrong (.object members) v)
    (cwd : String) : (ofMembers cwd members).Holds cwd (.object members) := by
  constructor
  · cases h_base : Json.getMember? members "base_dir" with
    | none => exact absurd (.missing (by decide) h_base) (h _)
    | some value =>
      obtain ⟨text, rfl, h_text⟩ := exists_text_of_not_isWrong h h_base (by decide)
        (not_isVoid_of_mem_requiredNames (by decide) value)
      refine ⟨text, h_base, ?_⟩
      dsimp only [ofMembers]
      rw [h_text, Option.getD_some]
  · intro name h_name h_other given h_some h_void
    -- every field holds a text or a list of texts
    have h_kinds : name ∈ textNames ∨ name ∈ listNames :=
      (by decide : ∀ name ∈ fieldNames, name ∈ textNames ∨ name ∈ listNames) name h_name
    rcases h_kinds with h_kind | h_kind
    · obtain ⟨text, rfl, h_text⟩ := exists_text_of_not_isWrong h h_some h_kind h_void
      simp only [textNames, List.mem_cons, List.not_mem_nil, or_false] at h_kind
      rcases h_kind with rfl | rfl | rfl | rfl | rfl | rfl | rfl
      · exact absurd rfl h_other
      all_goals simp [ofMembers, toMembers, getMember?_cons, h_text]
    · obtain ⟨texts, rfl, h_texts⟩ := exists_texts_of_not_isWrong h h_some h_kind
      simp only [listNames, List.mem_cons, List.not_mem_nil, or_false] at h_kind
      rcases h_kind with rfl | rfl | rfl | rfl | rfl <;>
        simp [ofMembers, toMembers, getMember?_cons, h_texts]

/-- An object that nothing is wrong with is read. -/
theorem ofJson_of_eq_nil {members : Members} (h : violations members = []) (cwd : String) :
    ofJson cwd (.object members) = .ok (ofMembers cwd members) := by
  simp only [ofJson, h]

/-- One that something is wrong with is refused. -/
theorem ofJson_of_ne_nil {members : Members} (h : violations members ≠ []) (cwd : String) :
    ofJson cwd (.object members) = .error (violations members) := by
  simp only [ofJson]

/-- A configuration in good order survives being written and read. -/
theorem ofJson_toMembers {c : Config} (h : IsSound c) (cwd : String) :
    ofJson cwd (.object c.toMembers) = .ok c := by
  rw [ofJson_of_eq_nil (violations_toMembers c), ofMembers_toMembers h]

/-- **Validation is exact and stable.** A value with nothing wrong with it is read as a
configuration in good order that holds what the value gives, and the members that write this
configuration are read back as it, from any working directory. Any other value is refused with all
that is wrong with it, each once and in order. -/
theorem ofJson_cases {cwd : String} (h_cwd : Path.isAbsolute cwd = true) (value : Json) :
    (∃ c, ofJson cwd value = .ok c ∧ (∀ v, ¬ IsWrong value v) ∧ c.IsSound ∧ c.Holds cwd value ∧
        ∀ cwd', ofJson cwd' (.object c.toMembers) = .ok c) ∨
      ∃ wrong, ofJson cwd value = .error wrong ∧ wrong ≠ [] ∧ wrong.Nodup ∧
        (∀ v, v ∈ wrong ↔ IsWrong value v) ∧
        wrong.Pairwise fun a b => a.subject.place < b.subject.place := by
  by_cases h_object : ∃ members, value = .object members
  · obtain ⟨members, rfl⟩ := h_object
    by_cases h_nil : violations members = []
    · -- nothing is wrong, so the value is read
      left
      have h_right : ∀ v, ¬ IsWrong (.object members) v := by
        intro v h_v
        have h_mem := mem_violations_iff.2 h_v
        rw [h_nil] at h_mem
        cases h_mem
      have h_sound := isSound_ofMembers h_cwd members
      exact ⟨ofMembers cwd members, ofJson_of_eq_nil h_nil cwd, h_right, h_sound,
        holds_ofMembers h_right cwd, ofJson_toMembers h_sound⟩
    · right
      -- no two complaints stand at one place, so none is made twice
      have h_order := pairwise_violations members
      have h_nodup : (violations members).Nodup := h_order.imp fun h_before h_eq => by
        rw [h_eq] at h_before
        exact lt_irrefl _ h_before
      exact ⟨violations members, ofJson_of_ne_nil h_nil cwd, h_nil, h_nodup,
        fun v => mem_violations_iff, h_order⟩
  · right
    -- the value is no object, and that is all that is said about it
    have h_wrong := not_exists.1 h_object
    refine ⟨[⟨.whole, .notObject⟩], ?_, by simp, List.nodup_singleton _, fun v => ?_,
      List.pairwise_singleton ..⟩
    · cases value with
      | object members => exact absurd rfl (h_wrong members)
      | _ => rfl
    · rw [List.mem_singleton]
      constructor
      · rintro rfl
        exact .notObject h_wrong
      · intro h_is
        cases h_is with
        | notObject _ => rfl
        | _ => exact absurd rfl (h_wrong _)

/-- Options with one thing wrong of almost every kind: a base directory is missing, two files are no
texts, and the main module and the name are of other types. The line end stands for nothing and is
as good as not given. -/
def faultyOptions : Members :=
  [("name", .array []), ("main", .integer 7), ("eol", .bool false), ("out", .string "pkg.d.ts"),
    ("files", .array [.string "a.ts", .nan, .null]), ("excludes", .array [])]

/-- They are refused with these five complaints, in the order of the fields. -/
theorem ofJson_cases_faulty : Path.isAbsolute "/work" = true ∧ ∃ wrong,
    ofJson "/work" (.object faultyOptions) = .error wrong ∧
    wrong = [⟨.field "base_dir", .missing⟩, ⟨.item "files" 1, .notText⟩,
      ⟨.item "files" 2, .notText⟩, ⟨.field "main", .notText⟩, ⟨.field "name", .notText⟩] ∧
    ∀ v, v ∈ wrong ↔ IsWrong (.object faultyOptions) v := by
  have h_cwd : Path.isAbsolute "/work" = true := by decide
  have h_wrong : violations faultyOptions = [⟨.field "base_dir", .missing⟩,
      ⟨.item "files" 1, .notText⟩, ⟨.item "files" 2, .notText⟩, ⟨.field "main", .notText⟩,
      ⟨.field "name", .notText⟩] := by decide +kernel
  have h_error := ofJson_of_ne_nil (by rw [h_wrong]; simp) "/work"
  refine ⟨h_cwd, violations faultyOptions, h_error, h_wrong, ?_⟩
  rcases ofJson_cases h_cwd (.object faultyOptions) with
    ⟨c, h_ok, -⟩ | ⟨wrong, h_refused, -, -, h_mem, -⟩
  · rw [h_error] at h_ok
    cases h_ok
  · rw [h_error] at h_refused
    cases h_refused
    exact h_mem

end DeclarationBundle.Config
