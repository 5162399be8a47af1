import DeclarationBundle.FileTree.Search
import DeclarationBundle.Proofs.FileTree.Opening
import DeclarationBundle.Proofs.Path.Depth

/-!
# Trees that look alike from a place

Two trees are alike from a place in each if they have the same entries below these places, and also
below the directories above, up to some levels (`Alike`). Segments that do not climb higher than
that lead to places from which the trees are alike again (`Alike.follow`): where a segment leads
depends on the entry that it is followed from, and no step looks at the place itself.

Two paths, one in each tree, are twins if they lead to such places (`Twin`). Unless one of them is
too long to be followed, they lead to the same entry (`Twin.stat_eq`), and so do the paths that the
same steps lead to from there (`Twin.join`).
-/

namespace DeclarationBundle.FileTree

open DeclarationBundle.Path (IsName depthAfter slashes)

variable {t t' : FileTree} {place place' p q : Place} {cwd cwd' name path : String} {levels : Nat}

/-! ### The names in a directory -/

/-- **Every entry has a place of names.** -/
def IsProper (t : FileTree) : Prop :=
  ∀ e ∈ t.entries, ∀ n ∈ e.1, IsName n

instance : DecidablePred IsProper := fun t =>
  inferInstanceAs (Decidable (∀ e ∈ t.entries, ∀ n ∈ e.1, IsName n))

/-- A place has a name below another exactly if it begins with that other place and the name. -/
theorem childName?_eq_some_iff {inner : Place} :
    childName? place inner = some name ↔ place ++ [name] <+: inner := by
  -- on the place, which has to be met name by name
  induction place generalizing inner with
  | nil =>
    cases inner with
    | nil => simp [childName?]
    | cons n inner => simp [childName?, eq_comm]
  | cons n place ih =>
    cases inner with
    | nil => simp [childName?]
    | cons m inner =>
      rw [childName?, List.cons_append, List.cons_prefix_cons]
      split
      · next h => rw [ih, and_iff_right h]
      · next h => exact ⟨nofun, fun h_eq => absurd h_eq.1 h⟩

/-- A directory holds the names with which the entries below it go on. -/
theorem mem_names_iff_exists : name ∈ t.names place ↔ ∃ e ∈ t.entries, place ++ [name] <+: e.1 := by
  unfold names
  rw [List.mem_eraseDups, List.mem_filterMap]
  simp only [childName?_eq_some_iff]

/-- **The names in a directory are those that there is something under.** -/
theorem mem_names_iff : name ∈ t.names place ↔ (t.find? (place ++ [name])).isSome = true := by
  rw [mem_names_iff_exists]
  unfold find?
  cases h_lookup : t.entries.lookup (place ++ [name]) with
  | some entry =>
    obtain ⟨before, after, h_entries, -⟩ := List.lookup_eq_some_iff.1 h_lookup
    have h_mem : (place ++ [name], entry) ∈ t.entries := by simp [h_entries]
    exact iff_of_true ⟨_, h_mem, List.prefix_rfl⟩ rfl
  -- a directory that no entry is of is there by what lies below it
  | none => simp

/-- A list is free of repetitions once they are erased. The induction is on the length, as erasing
an item shortens what is left to look at. -/
theorem nodup_eraseDups (xs : List String) : xs.eraseDups.Nodup := by
  induction h_length : xs.length using Nat.strong_induction_on generalizing xs with
  | _ n ih =>
    cases xs with
    | nil => simp
    | cons x xs =>
      rw [List.eraseDups_cons, List.nodup_cons]
      have h_less : (xs.filter fun b => !b == x).length < n := by
        rw [← h_length, List.length_cons]
        exact Nat.lt_succ_of_le (List.length_filter_le ..)
      exact ⟨by simp, ih _ h_less _ rfl⟩

/-- No directory has a name twice. -/
theorem nodup_names (t : FileTree) (place : Place) : (t.names place).Nodup :=
  nodup_eraseDups _

/-- In a proper tree, whatever a directory holds is a name. -/
theorem IsProper.isName (h : t.IsProper) (h_mem : name ∈ t.names place) : IsName name := by
  obtain ⟨e, h_entry, h_begins⟩ := mem_names_iff_exists.1 h_mem
  exact h e h_entry name (h_begins.subset (by simp))

/-- No entry lies deeper than the longest way down. -/
theorem length_le_depth {e : Place × Entry} (h : e ∈ t.entries) : e.1.length ≤ t.depth := by
  -- the greatest of some lengths is at least each of them, and at least what the count began with
  have h_fold : ∀ (entries : List (Place × Entry)) (least : Nat),
      least ≤ entries.foldl (fun longest e => max longest e.1.length) least ∧
        ∀ e ∈ entries,
          e.1.length ≤ entries.foldl (fun longest e => max longest e.1.length) least := by
    intro entries
    induction entries with
    | nil => exact fun least => ⟨le_rfl, nofun⟩
    | cons first entries ih =>
      intro least
      obtain ⟨h_least, h_rest⟩ := ih (max least first.1.length)
      exact ⟨(le_max_left ..).trans h_least,
        List.forall_mem_cons.2 ⟨(le_max_right ..).trans h_least, h_rest⟩⟩
  exact (h_fold t.entries 0).2 e h

/-- As deep as the longest way down there are no names. -/
theorem names_eq_nil (h : t.depth ≤ place.length) : t.names place = [] := by
  apply List.eq_nil_iff_forall_not_mem.2
  intro n h_mem
  obtain ⟨e, h_entry, h_begins⟩ := mem_names_iff_exists.1 h_mem
  have h_length := h_begins.length_le
  have h_depth := length_le_depth h_entry
  rw [List.length_append, List.length_singleton] at h_length
  omega

/-! ### Following segments one part after the other -/

/-- To follow segments is to follow some of them and then the others, whatever comes of that. -/
theorem follow_append_eq (t : FileTree) (p : Place) (segments more : List String) :
    t.follow p (segments ++ more) = (t.follow p segments).bind fun q => t.follow q more := by
  induction segments generalizing p with
  | nil => rfl
  | cons name rest ih =>
    rw [List.cons_append, follow, follow]
    split
    · rfl
    · rfl
    · split_ifs
      · exact ih p
      · exact ih p.dropLast
      · rfl
      · exact ih (p ++ [name])

/-- An empty segment leads from a directory to itself. -/
theorem follow_empty_cons (h : t.find? p = some .directory) (rest : List String) :
    t.follow p ("" :: rest) = t.follow p rest := by
  rw [follow_cons h]
  rfl

/-- So do any number of them, as between slashes that follow one another. -/
theorem follow_replicate_empty (h : t.find? p = some .directory) (n : Nat) :
    t.follow p (List.replicate n "") = .ok p := by
  induction n with
  | zero => rfl
  | succ n ih => rw [List.replicate_succ, follow_empty_cons h, ih]

/-- An empty segment asks no more than any other one does: that there is a directory to start from,
which the segment behind it asks as well. -/
theorem follow_empty_bind (t : FileTree) (p : Place) {more : List String} (h : more ≠ []) :
    ((t.follow p [""]).bind fun q => t.follow q more) = t.follow p more := by
  obtain ⟨name, rest, rfl⟩ := List.exists_cons_of_ne_nil h
  cases h_find : t.find? p with
  | none => simp [follow, h_find, Except.bind]
  | some entry =>
    cases entry with
    | file bytes => simp [follow, h_find, Except.bind]
    | directory =>
      rw [follow_empty_cons h_find]
      rfl

/-! ### Alike trees -/

/-- **The trees look alike from two places**: they have the same entries below them, and below the
directories above them, up to some levels. -/
def Alike (t t' : FileTree) : Nat → Place → Place → Prop
  | 0, place, place' => ∀ names, t.find? (place ++ names) = t'.find? (place' ++ names)
  | levels + 1, place, place' =>
    (∀ names, t.find? (place ++ names) = t'.find? (place' ++ names)) ∧
      Alike t t' levels place.dropLast place'.dropLast

/-- Whatever the levels, the trees have the same entries below the places. -/
theorem Alike.below (h : Alike t t' levels place place') (names : Place) :
    t.find? (place ++ names) = t'.find? (place' ++ names) := by
  cases levels with
  | zero => exact h names
  | succ levels => exact h.1 names

/-- They have the same entry at the places themselves. -/
theorem Alike.here (h : Alike t t' levels place place') : t.find? place = t'.find? place' := by
  have h_below := h.below []
  rwa [List.append_nil, List.append_nil] at h_below

/-- One step up takes one of the levels. -/
theorem Alike.up (h : Alike t t' (levels + 1) place place') :
    Alike t t' levels place.dropLast place'.dropLast :=
  h.2

/-- One step down adds one. The directory above the new place is the old one, from which the trees
looked alike. -/
theorem Alike.down (h : Alike t t' levels place place') (name : String) :
    Alike t t' (levels + 1) (place ++ [name]) (place' ++ [name]) := by
  refine ⟨fun names => ?_, ?_⟩
  · rw [List.append_assoc, List.append_assoc]
    exact h.below ([name] ++ names)
  · rwa [List.dropLast_concat, List.dropLast_concat]

/-- Trees that look alike up to some level do so up to any lower one. -/
theorem Alike.of_succ (h : Alike t t' (levels + 1) place place') :
    Alike t t' levels place place' := by
  induction levels generalizing place place' with
  | zero => exact h.below
  | succ levels ih => exact ⟨h.below, ih h.up⟩

/-- This goes for any number of levels. -/
theorem Alike.mono (h : Alike t t' levels place place') {fewer : Nat} (h_le : fewer ≤ levels) :
    Alike t t' fewer place place' :=
  Nat.decreasingInduction (fun _ _ h_succ => h_succ.of_succ) h h_le

/-- Neither of the trees comes first. -/
theorem Alike.symm (h : Alike t t' levels place place') : Alike t' t levels place' place := by
  induction levels generalizing place place' with
  | zero => exact fun names => (h.below names).symm
  | succ levels ih => exact ⟨fun names => (h.below names).symm, ih h.up⟩

/-- **The same end of two ways**: the same error, or places from which the trees look alike. -/
inductive Arrive (t t' : FileTree) (levels : Nat) : Except Errno Place → Except Errno Place → Prop
  | place {p p' : Place} (h : Alike t t' levels p p') : Arrive t t' levels (.ok p) (.ok p')
  | error (errno : Errno) : Arrive t t' levels (.error errno) (.error errno)

/-- Neither of the ways comes first. -/
theorem Arrive.symm {r r' : Except Errno Place} (h : Arrive t t' levels r r') :
    Arrive t' t levels r' r := by
  cases h with
  | place h => exact .place h.symm
  | error errno => exact .error errno

/-- Ends that are the same up to some levels are so up to fewer. -/
theorem Arrive.mono {r r' : Except Errno Place} (h : Arrive t t' levels r r') {fewer : Nat}
    (h_le : fewer ≤ levels) : Arrive t t' fewer r r' := by
  cases h with
  | place h => exact .place (h.mono h_le)
  | error errno => exact .error errno

/-- **Segments end alike** from places from which the trees look alike, unless they climb too
high. -/
theorem Alike.follow (h : Alike t t' levels place place') {segments : List String} {reached : Nat}
    (h_depth : depthAfter levels segments = some reached) :
    Arrive t t' reached (t.follow place segments) (t'.follow place' segments) := by
  -- on the segments, for all levels: a step down adds one, a step up takes one
  induction segments generalizing levels place place' with
  | nil =>
    cases h_depth
    exact .place h
  | cons name rest ih =>
    -- both trees have the same entry here, so that either way ends or both go on
    rw [FileTree.follow, FileTree.follow, ← h.here]
    split
    · exact .error .noEntry
    · exact .error .notDirectory
    · by_cases h_skip : name = "" ∨ name = "."
      · rw [if_pos h_skip, if_pos h_skip]
        exact ih h (Path.depthAfter_skip h_skip ▸ h_depth)
      · rw [if_neg h_skip, if_neg h_skip]
        by_cases h_up : name = ".."
        · subst h_up
          rw [if_pos rfl, if_pos rfl]
          -- a step up takes one of the levels
          cases levels with
          | zero => cases h_depth
          | succ levels => exact ih h.up h_depth
        · rw [if_neg h_up, if_neg h_up]
          split
          · exact .error .nameTooLong
          · exact ih (h.down name) (Path.depthAfter_name h_skip h_up ▸ h_depth)

/-- **Ways that end alike can be gone on with**, and end alike again. -/
theorem Arrive.bind {r r' : Except Errno Place} (h : Arrive t t' levels r r')
    {segments : List String} {reached : Nat}
    (h_depth : depthAfter levels segments = some reached) :
    Arrive t t' reached (r.bind fun p => t.follow p segments)
      (r'.bind fun p => t'.follow p segments) := by
  cases h with
  | place h => exact h.follow h_depth
  | error errno => exact .error errno

/-! ### Where paths land -/

/-- The place that a path leads to. -/
def landing (t : FileTree) (cwd path : String) : Except Errno Place :=
  t.follow (origin cwd path) (Path.segments path)

/-- A path that is short enough to be followed. -/
def isShort (path : String) : Bool :=
  decide ((Utf8.encode path).length < maxPathLength)

/-- **A path that the system is asked about**: one without a null character, that is not empty and
not too long. -/
theorem checkPath_eq_ok_iff : checkPath path = .ok () ↔
    Path.hasNull path = false ∧ path ≠ "" ∧ isShort path = true := by
  unfold checkPath isShort
  split
  · next h => simp [h]
  · next h_null =>
    split
    · next h => simp [h]
    · next h => split <;> simp_all

/-- What is known of a path depends on where it lands, if it can be asked about at all. -/
theorem stat_eq (t : FileTree) (cwd : String) (h : checkPath path = .ok ()) :
    t.stat cwd path = ((t.landing cwd path).mapError .system).bind fun place =>
      match t.find? place with
      | none => .error (.system .noEntry)
      | some entry => .ok entry := by
  rw [stat, h]
  rfl

/-- Whatever an entry is known of is a path that the system accepts. -/
theorem checkPath_of_stat {entry : Entry} (h : t.stat cwd path = .ok entry) :
    checkPath path = .ok () := by
  unfold stat at h
  cases h_check : checkPath path with
  | error errno => rw [h_check] at h; cases h
  | ok u => rfl

/-- The two tests, said by what is known of a path. -/
theorem isDirectory_iff : t.isDirectory cwd path = true ↔ t.stat cwd path = .ok .directory := by
  unfold isDirectory
  split <;> simp_all

/-- A file may have any octets. -/
theorem isFile_iff : t.isFile cwd path = true ↔ ∃ bytes, t.stat cwd path = .ok (.file bytes) := by
  unfold isFile
  split <;> simp_all

/-- What a directory is: a path that can be followed, and leads to one. -/
theorem isDirectory_iff_landing : t.isDirectory cwd path = true ↔
    (Path.hasNull path = false ∧ path ≠ "" ∧ isShort path = true) ∧
      ∃ place, t.landing cwd path = .ok place ∧ t.find? place = some .directory := by
  rw [isDirectory_iff, ← checkPath_eq_ok_iff]
  constructor
  · intro h
    have h_check := checkPath_of_stat h
    refine ⟨h_check, ?_⟩
    rw [stat_eq t cwd h_check] at h
    cases h_landing : t.landing cwd path with
    | error errno => rw [h_landing] at h; cases h
    | ok place =>
      rw [h_landing] at h
      cases h_find : t.find? place with
      | none => simp [Except.bind, Except.mapError, h_find] at h
      | some entry =>
        simp only [Except.bind, Except.mapError, h_find, Except.ok.injEq] at h
        exact ⟨place, rfl, h ▸ h_find⟩
  · rintro ⟨h_check, place, h_landing, h_find⟩
    rw [stat_eq t cwd h_check, h_landing]
    simp only [Except.bind, Except.mapError, h_find]

/-- A file has a path that is short enough. -/
theorem isShort_of_isFile (h : t.isFile cwd path = true) : isShort path = true := by
  obtain ⟨bytes, h_stat⟩ := isFile_iff.1 h
  exact (checkPath_eq_ok_iff.1 (checkPath_of_stat h_stat)).2.2

/-- A relative path that is joined to a base is read from where the base is read from. -/
theorem origin_join {base more : String} (h : Path.isAbsolute more = false) :
    origin cwd (Path.join base more) = origin cwd base := by
  unfold origin
  rw [Path.isAbsolute_eq_of_root_eq (Path.root_join h)]

/-- **To follow a joined path** is to follow the base and to go on from there. -/
theorem landing_join (t : FileTree) (cwd base : String) {more : String}
    (h : Path.isAbsolute more = false) :
    t.landing cwd (Path.join base more)
      = (t.landing cwd base).bind fun p => t.follow p (Path.segments more) := by
  obtain ⟨front, h_segments, h_base⟩ := Path.exists_segments_join base h
  unfold landing
  rw [origin_join h, h_segments, follow_append_eq]
  -- a base that ends in a slash goes on at once, and any other has a segment put in between
  obtain h_base | h_base := h_base
  · rw [h_base]
  · rw [h_base, follow_append_eq]
    cases t.follow (origin cwd base) front with
    | error errno => rfl
    | ok p => exact (follow_empty_bind t p (Text.fields_ne_nil '/' more)).symm

/-- Slashes at the end of a path to a directory lead nowhere. -/
theorem landing_append_slashes {m n : Nat} (h_ne : path ++ slashes m ≠ "")
    (h_ne' : path ++ slashes n ≠ "") (h : t.landing cwd (path ++ slashes m) = .ok place)
    (h_find : t.find? place = some .directory) : t.landing cwd (path ++ slashes n) = .ok place := by
  have h_absolute : Path.isAbsolute (path ++ slashes m) = Path.isAbsolute (path ++ slashes n) := by
    -- slashes alone are the root, however many they are
    by_cases h_path : path = ""
    · subst h_path
      obtain ⟨m, rfl⟩ := Nat.exists_eq_succ_of_ne_zero (show m ≠ 0 from fun h => h_ne (h ▸ rfl))
      obtain ⟨n, rfl⟩ := Nat.exists_eq_succ_of_ne_zero (show n ≠ 0 from fun h => h_ne' (h ▸ rfl))
      simp [Path.isAbsolute, Text.startsWith, slashes, List.replicate_succ, List.isPrefixOf]
    · rw [Path.isAbsolute_append_of_ne h_path, Path.isAbsolute_append_of_ne h_path]
  have h_origin : origin cwd (path ++ slashes m) = origin cwd (path ++ slashes n) := by
    unfold origin
    rw [h_absolute]
  unfold landing at h ⊢
  rw [h_origin, Path.segments_append_slashes, follow_append_eq] at h
  rw [Path.segments_append_slashes, follow_append_eq]
  cases h_path : t.follow (origin cwd (path ++ slashes n)) (Path.segments path) with
  | error errno => rw [h_path] at h; cases h
  | ok reached =>
    rw [h_path] at h
    -- the slashes have asked for a directory, if there are any, and this is where they lead
    have h_reached : reached = place := by
      cases m with
      | zero => exact Except.ok.inj h
      | succ m =>
        have h_slash : t.follow reached ("" :: List.replicate m "") = .ok place := h
        have h_directory := find?_of_follow_cons h_slash
        rw [follow_empty_cons h_directory, follow_replicate_empty h_directory] at h_slash
        exact Except.ok.inj h_slash
    subst h_reached
    exact follow_replicate_empty h_find n

/-! ### Twins -/

/-- **Twins**: paths of two trees that lead to places from which the trees look alike, or to the
same error. Neither of them has a null character in it, or both have, when the system is asked about
neither. -/
structure Twin (t t' : FileTree) (cwd cwd' : String) (levels : Nat) (path path' : String) :
    Prop where
  ne_empty : path ≠ ""
  ne_empty' : path' ≠ ""
  hasNull_eq : Path.hasNull path = Path.hasNull path'
  arrive : Arrive t t' levels (t.landing cwd path) (t'.landing cwd' path')

variable {path' : String}

/-- Neither of the paths comes first. -/
theorem Twin.symm (h : Twin t t' cwd cwd' levels path path') :
    Twin t' t cwd' cwd levels path' path :=
  ⟨h.ne_empty', h.ne_empty, h.hasNull_eq.symm, h.arrive.symm⟩

/-- Twins up to some levels are twins up to fewer. -/
theorem Twin.mono (h : Twin t t' cwd cwd' levels path path') {fewer : Nat} (h_le : fewer ≤ levels) :
    Twin t t' cwd cwd' fewer path path' :=
  ⟨h.ne_empty, h.ne_empty', h.hasNull_eq, h.arrive.mono h_le⟩

/-- A path that is not empty stays so with another behind it. -/
theorem join_ne_empty {base : String} (h_ne : base ≠ "") {more : String}
    (h : Path.isAbsolute more = false) : Path.join base more ≠ "" := by
  rw [Path.join_eq_asDirectory_append h]
  unfold Path.asDirectory
  split <;> simp [h_ne]

/-- **The same steps lead twins to twins**, unless they climb too high. -/
theorem Twin.join (h : Twin t t' cwd cwd' levels path path') {more : String}
    (h_more : Path.isAbsolute more = false) {reached : Nat}
    (h_depth : depthAfter levels (Path.segments more) = some reached) :
    Twin t t' cwd cwd' reached (Path.join path more) (Path.join path' more) where
  ne_empty := join_ne_empty h.ne_empty h_more
  ne_empty' := join_ne_empty h.ne_empty' h_more
  hasNull_eq := by
    rw [Path.hasNull_join path h_more, Path.hasNull_join path' h_more, h.hasNull_eq]
  arrive := by
    rw [landing_join t cwd path h_more, landing_join t' cwd' path' h_more]
    exact h.arrive.bind h_depth

/-- **Twins lead to the same entry**, unless one of them is too long. -/
theorem Twin.stat_eq (h : Twin t t' cwd cwd' levels path path') (h_short : isShort path = true)
    (h_short' : isShort path' = true) : t.stat cwd path = t'.stat cwd' path' := by
  cases h_null : Path.hasNull path with
  | true =>
    -- the system is asked about neither
    have h_null' := h.hasNull_eq.symm.trans h_null
    rw [stat, stat, checkPath, checkPath, if_pos h_null, if_pos h_null']
    rfl
  | false =>
    have h_null' := h.hasNull_eq.symm.trans h_null
    rw [FileTree.stat_eq t cwd (checkPath_eq_ok_iff.2 ⟨h_null, h.ne_empty, h_short⟩),
      FileTree.stat_eq t' cwd' (checkPath_eq_ok_iff.2 ⟨h_null', h.ne_empty', h_short'⟩)]
    have h_arrive := h.arrive
    revert h_arrive
    generalize t.landing cwd path = r
    generalize t'.landing cwd' path' = r'
    -- the same error, or places with the same entry
    rintro (h | errno)
    · simp only [Except.bind, Except.mapError, h.here]
    · rfl

end DeclarationBundle.FileTree
