import Mathlib
import DeclarationBundle.FileTree.Create

/-!
# Opening a file disturbs no other

To open a path for output makes directories and an empty file. All else is as it was
(`FileTree.keeps_openFresh`), so a file that was read before is read after as well, unless it is the
one that was opened (`FileTree.read_openFresh`). What is put there later is what the path then leads
to (`FileTree.read_put_openFresh`).
-/

namespace DeclarationBundle.FileTree

variable {t t' t'' : FileTree} {place p q : Place} {entry : Entry} {cwd path : String}

/-! ### One entry -/

/-- To take the entries of one place out of a list hides those of no other place. -/
theorem lookup_filter_of_ne {entries : List (Place × Entry)} (h : p ≠ place) :
    (entries.filter (·.1 != place)).lookup p = entries.lookup p := by
  induction entries with
  | nil => rfl
  | cons e entries ih =>
    -- an entry is taken out only if it is of the other place, which is not looked up
    by_cases h_place : e.1 = place
    · have h_key : (p == e.1) = false := beq_false_of_ne (h_place ▸ h)
      rw [List.filter_cons_of_neg (by simp [h_place]), ih, List.lookup, h_key]
    · rw [List.filter_cons_of_pos (by simp [h_place]), List.lookup, List.lookup, ih]

/-- What was put at a place is found there. -/
theorem find?_put_self : (t.put place entry).find? place = some entry := by
  unfold find? put
  rw [List.lookup_cons_self]

/-- What is there stays there when an entry is put elsewhere, be it an entry of its own or a
directory that is there only by what lies below it. -/
theorem find?_put_of_ne (h : p ≠ place) {found : Entry} (h_found : t.find? p = some found) :
    (t.put place entry).find? p = some found := by
  have h_lookup : ((place, entry) :: t.entries.filter (·.1 != place)).lookup p
      = t.entries.lookup p := by
    rw [List.lookup, beq_false_of_ne h]
    exact lookup_filter_of_ne h
  unfold find? at h_found ⊢
  unfold put
  rw [h_lookup]
  cases h_entry : t.entries.lookup p with
  | some e => rwa [h_entry] at h_found
  | none =>
    -- a directory by what lies beneath it: the new entry may have replaced just that
    rw [h_entry] at h_found
    simp only [Option.ite_none_right_eq_some, Bool.or_eq_true, List.any_eq_true] at h_found ⊢
    refine ⟨h_found.1.imp_right fun ⟨e, h_mem, h_beneath⟩ => ?_, h_found.2⟩
    by_cases h_place : e.1 = place
    · exact ⟨(place, entry), List.mem_cons_self .., h_place ▸ h_beneath⟩
    · exact ⟨e, List.mem_cons_of_mem _ (List.mem_filter.2 ⟨h_mem, by simp [h_place]⟩), h_beneath⟩

/-! ### Changes that keep what is there -/

/-- **A change that keeps what is there**, the file at one place perhaps excepted. -/
structure Keeps (place : Place) (t t' : FileTree) : Prop where
  directory : ∀ p, t.find? p = some .directory → t'.find? p = some .directory
  file : ∀ p bytes, p ≠ place → t.find? p = some (.file bytes) → t'.find? p = some (.file bytes)

/-- Changes that keep what is there can be made one after the other. -/
theorem Keeps.refl (place : Place) (t : FileTree) : Keeps place t t :=
  ⟨fun _ h => h, fun _ _ _ h => h⟩

/-- The exception must be the same for both. -/
theorem Keeps.trans (h : Keeps place t t') (h' : Keeps place t' t'') : Keeps place t t'' :=
  ⟨fun p h_dir => h'.directory p (h.directory p h_dir),
    fun p bytes h_ne h_file => h'.file p bytes h_ne (h.file p bytes h_ne h_file)⟩

/-- An entry may be put where there is nothing, and a file in the place of the file excepted. -/
theorem keeps_put (h_directory : t.find? p = some .directory → entry = .directory)
    (h_file : ∀ bytes, t.find? p = some (.file bytes) → p = place) :
    Keeps place t (t.put p entry) where
  directory := by
    intro q hq
    by_cases h : q = p
    · rw [h] at hq ⊢
      rw [find?_put_self, h_directory hq]
    · exact find?_put_of_ne h hq
  file := by
    intro q bytes h_ne hq
    by_cases h : q = p
    · exact absurd (h.trans (h_file bytes (h ▸ hq))) h_ne
    · exact find?_put_of_ne h hq

/-- Where a segment leads from a directory. -/
def next (place : Place) (name : String) : Except Errno Place :=
  if name = "" ∨ name = "." then .ok place
  else if name = ".." then .ok place.dropLast
  else if maxNameLength < (Utf8.encode name).length then .error .nameTooLong
  else .ok (place ++ [name])

/-- Segments are followed one by one: from a directory, the first leads to the next place, and the
others go on from there. -/
theorem follow_cons {name : String} {rest : List String} (h : t.find? p = some .directory) :
    t.follow p (name :: rest) = (next p name).bind fun q => t.follow q rest := by
  rw [FileTree.follow, h, next]
  simp only
  split_ifs <;> rfl

/-- Only from a directory does any segment lead on. -/
theorem find?_of_follow_cons {name : String} {rest : List String}
    (h : t.follow p (name :: rest) = .ok q) : t.find? p = some .directory := by
  rw [FileTree.follow] at h
  split at h
  · cases h
  · cases h
  · assumption

/-- A path that can be followed is followed to the same place after such a change. -/
theorem Keeps.follow (h : Keeps place t t') {segments : List String}
    (h_follow : t.follow p segments = .ok q) : t'.follow p segments = .ok q := by
  -- on the segments: where one leads does not depend on the tree, once it is known to start from a
  -- directory
  induction segments generalizing p with
  | nil => exact h_follow
  | cons name rest ih =>
    -- a path goes on from directories only, and these are kept
    have h_directory := find?_of_follow_cons h_follow
    rw [follow_cons h_directory] at h_follow
    rw [follow_cons (h.directory p h_directory)]
    cases h_next : next p name with
    | error errno => rw [h_next] at h_follow; cases h_follow
    | ok r =>
      rw [h_next] at h_follow
      exact ih h_follow

/-- Segments that lead to a place can be cut off in front. -/
theorem follow_append {segments more : List String} (h : t.follow p segments = .ok q) :
    t.follow p (segments ++ more) = t.follow q more := by
  induction segments generalizing p with
  | nil =>
    cases h
    rfl
  | cons name rest ih =>
    have h_directory := find?_of_follow_cons h
    rw [follow_cons h_directory] at h
    rw [List.cons_append, follow_cons h_directory]
    cases h_next : next p name with
    | error errno => rw [h_next] at h; cases h
    | ok r =>
      rw [h_next] at h
      exact ih h

/-- **What it takes to read a file**: a path that the system accepts, which leads to a place with a
file at it. -/
theorem read_eq_ok_iff {bytes : Bytes} : t.read cwd path = .ok bytes ↔
    checkPath path = .ok () ∧ ∃ place, t.follow (origin cwd path) (Path.segments path) = .ok place ∧
      t.find? place = some (.file bytes) := by
  unfold read stat
  constructor
  · intro h
    -- each stage of a reading has succeeded, in order
    cases h_check : checkPath path with
    | error errno => rw [h_check] at h; cases h
    | ok u =>
      rw [h_check] at h
      cases h_follow : t.follow (origin cwd path) (Path.segments path) with
      | error errno => rw [h_follow] at h; cases h
      | ok place =>
        rw [h_follow] at h
        cases h_find : t.find? place with
        | none => simp [bind, Except.bind, Except.mapError, h_find] at h
        | some e =>
          cases e with
          | directory => simp [bind, Except.bind, Except.mapError, h_find] at h
          | file content =>
            simp [bind, Except.bind, Except.mapError, h_find] at h
            exact ⟨rfl, place, rfl, h ▸ h_find⟩
  · rintro ⟨h_check, place, h_follow, h_find⟩
    simp [bind, Except.bind, Except.mapError, h_check, h_follow, h_find]

/-- **A file is read as before**, unless it is the one excepted. -/
theorem Keeps.read (h : Keeps place t t') {bytes : Bytes}
    (h_apart : t.follow (origin cwd path) (Path.segments path) ≠ .ok place)
    (h_read : t.read cwd path = .ok bytes) : t'.read cwd path = .ok bytes := by
  obtain ⟨h_check, q, h_follow, h_find⟩ := read_eq_ok_iff.1 h_read
  have h_ne : q ≠ place := fun h_eq => h_apart (h_eq ▸ h_follow)
  exact read_eq_ok_iff.2 ⟨h_check, q, h.follow h_follow, h.file q bytes h_ne h_find⟩

/-! ### Making directories -/

/-- A directory is made only where nothing is, so this keeps all there is. -/
theorem keeps_makeDirectory (place : Place) (h : t.makeDirectory cwd path = .ok t') :
    Keeps place t t' := by
  unfold makeDirectory at h
  cases h_check : checkPath path with
  | error errno => rw [h_check] at h; cases h
  | ok u =>
    rw [h_check] at h
    simp only [bind, Except.bind] at h
    split at h
    · next above name slashes h_name =>
      cases h_place : t.placeIn (origin cwd path) above name with
      | error errno => rw [h_place] at h; cases h
      | ok q =>
        rw [h_place] at h
        simp only [Except.mapError] at h
        split at h
        · cases h
        · -- a directory is made only where nothing is
          next h_free =>
          cases h
          have h_none : t.find? q = none := by simpa using h_free
          exact keeps_put (fun h_dir => absurd h_dir (by simp [h_none]))
            fun bytes h_file => absurd h_file (by simp [h_none])
    · split at h
      · cases h
      · cases h

/-- A directory that is there already is left as it is. -/
theorem keeps_allowExisting (place : Place) {error : PathError Errno}
    (h : t.allowExisting cwd path error = .ok t') : Keeps place t t' := by
  unfold allowExisting at h
  split at h
  · cases h
    exact .refl place t
  · cases h

/-- **Directories made on the way to a file** keep all there is. They are made from the last one up,
and only if that fails are those above it made first. -/
theorem keeps_makeSteps (place : Place) {root : String} {steps : List String}
    (h : t.makeSteps cwd root steps = .ok t') : Keeps place t t' := by
  -- on the steps, from the last one up
  induction steps generalizing t t' with
  | nil =>
    cases h
    exact .refl place t
  | cons step above ih =>
    unfold makeSteps at h
    simp only at h
    split at h
    · next made h_made =>
      cases h
      exact keeps_makeDirectory place h_made
    · -- the directories above come first
      cases h_above : t.makeSteps cwd root above with
      | error error => rw [h_above] at h; cases h
      | ok made =>
        rw [h_above] at h
        simp only [bind, Except.bind] at h
        refine (ih h_above).trans ?_
        split at h
        · next last h_last =>
          cases h
          exact keeps_makeDirectory place h_last
        · cases h
        · exact keeps_allowExisting place h
    · exact keeps_allowExisting place h

/-! ### Opening -/

/-- The last name of some segments that no slash follows. -/
theorem eq_append_of_lastName {segments above : List String} {name : String}
    (h : lastName segments = (above, some name, false)) :
    segments = above ++ [name] ∧ name ≠ "" ∧ name ≠ "." ∧ name ≠ ".." := by
  unfold lastName at h
  simp only at h
  -- read backwards, a path is slashes, then the last name, then what is above it
  have h_split := List.takeWhile_append_dropWhile (p := (· == "")) (l := segments.reverse)
  split at h
  · cases h
  · next last before h_drop =>
    split at h
    · cases h
    · next h_dots =>
      obtain ⟨rfl, h_name, h_trailing⟩ := by simpa only [Prod.mk.injEq, Option.some.injEq] using h
      subst h_name
      rw [not_or] at h_dots
      -- no slash follows, so the last name is the last segment
      have h_slashes : segments.reverse.takeWhile (· == "") = [] := by simpa using h_trailing
      rw [h_slashes, h_drop, List.nil_append] at h_split
      have h_head : (last == "") = false := by
        have h_ne : segments.reverse.dropWhile (· == "") ≠ [] := by
          rw [h_drop]
          exact List.cons_ne_nil _ _
        have h_not := List.head_dropWhile_not (· == "") h_ne
        simpa only [h_drop, List.head_cons] using h_not
      have h_segments : segments = before.reverse ++ [last] := by
        rw [← List.reverse_reverse segments, ← h_split, List.reverse_cons]
      exact ⟨h_segments, by simpa using h_head, h_dots⟩

/-- A place for a name is where the name leads. The place is looked for before it is known whether
there is anything at it. -/
theorem follow_of_placeIn {above : List String} {name : String}
    (h_name : name ≠ "" ∧ name ≠ "." ∧ name ≠ "..")
    (h : t.placeIn p above name = .ok q) : t.follow p (above ++ [name]) = .ok q := by
  unfold placeIn at h
  cases h_above : t.follow p above with
  | error errno => rw [h_above] at h; cases h
  | ok directory =>
    rw [h_above] at h
    simp only [bind, Except.bind] at h
    split at h
    · cases h
    · cases h
    · next h_find =>
      have h_next : next directory name = .ok q := by
        rw [next, if_neg (not_or.2 ⟨h_name.1, h_name.2.1⟩), if_neg h_name.2.2]
        exact h
      rw [follow_append h_above, follow_cons h_find, h_next]
      rfl

/-- What a path can be opened for: it leads to the place, where there is no directory. -/
theorem follow_of_target (h : t.target cwd path = .ok place) :
    checkPath path = .ok () ∧ t.follow (origin cwd path) (Path.segments path) = .ok place ∧
      t.find? place ≠ some .directory := by
  unfold target at h
  cases h_check : checkPath path with
  | error errno => rw [h_check] at h; cases h
  | ok u =>
    rw [h_check] at h
    simp only [bind, Except.bind] at h
    split at h
    · next above name slashes h_name =>
      cases h_place : t.placeIn (origin cwd path) above name with
      | error errno => rw [h_place] at h; cases h
      | ok q =>
        rw [h_place] at h
        simp only [Except.mapError] at h
        split at h
        · cases h
        · next h_slashes =>
          split at h
          · cases h
          · -- a directory there would have kept the path from being opened
            next h_free =>
            cases h
            refine ⟨rfl, ?_, h_free⟩
            obtain ⟨h_segments, h_ne⟩ := eq_append_of_lastName (by simpa [h_slashes] using h_name)
            rw [h_segments]
            exact follow_of_placeIn h_ne h_place
    · split at h
      · split at h <;> cases h
      · cases h

/-- What opening comes to: directories are made, and then an empty file is put where the path
leads. -/
theorem exists_of_openFresh (h : t.openFresh cwd path = .ok (t', place)) :
    ∃ made, Keeps place t made ∧ made.target cwd path = .ok place ∧
      t' = made.put place (.file []) := by
  unfold openFresh makeDirectories at h
  -- the directories are made first, and the file is opened in what comes of that
  cases h_made : t.makeSteps cwd (Path.root path) (Path.steps path).reverse.tail with
  | error error => rw [h_made] at h; cases h
  | ok made =>
    rw [h_made] at h
    simp only at h
    split at h
    · next found h_target =>
      cases h
      exact ⟨made, keeps_makeSteps place h_made, h_target, rfl⟩
    · cases h

/-- **Opening a path for output keeps all else.** -/
theorem keeps_openFresh (h : t.openFresh cwd path = .ok (t', place)) : Keeps place t t' := by
  obtain ⟨made, h_made, h_target, rfl⟩ := exists_of_openFresh h
  obtain ⟨-, -, h_free⟩ := follow_of_target h_target
  exact h_made.trans (keeps_put (fun h_directory => absurd h_directory h_free) fun _ _ => rfl)

/-- **A file that could be read still can**, unless it is the one that was opened. -/
theorem read_openFresh {file : String} {bytes : Bytes} (h : t.openFresh cwd path = .ok (t', place))
    (h_apart : t.follow (origin cwd file) (Path.segments file) ≠ .ok place)
    (h_read : t.read cwd file = .ok bytes) : t'.read cwd file = .ok bytes :=
  (keeps_openFresh h).read h_apart h_read

/-- **The path that was opened leads to what was put there.** -/
theorem read_put_openFresh {bytes : Bytes} (h : t.openFresh cwd path = .ok (t', place)) :
    (t'.put place (.file bytes)).read cwd path = .ok bytes := by
  obtain ⟨made, -, h_target, rfl⟩ := exists_of_openFresh h
  obtain ⟨h_check, h_follow, h_free⟩ := follow_of_target h_target
  have h_opened : Keeps place made (made.put place (.file [])) :=
    keeps_put (fun h_directory => absurd h_directory h_free) fun _ _ => rfl
  have h_written : Keeps place (made.put place (.file []))
      ((made.put place (.file [])).put place (.file bytes)) :=
    keeps_put (fun h_directory => absurd (find?_put_self.symm.trans h_directory) (by simp))
      fun _ _ => rfl
  -- neither entry changes where the path leads, and the last one is what is found there
  exact read_eq_ok_iff.2 ⟨h_check, place, (h_opened.trans h_written).follow h_follow,
    find?_put_self⟩

end DeclarationBundle.FileTree
