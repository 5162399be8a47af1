import DeclarationBundle.Proofs.FileTree.Search

/-!
# Patterns read from a directory

The files that patterns stand for depend on what lies below the directory that they are read from,
or below those above it if the patterns climb, and on nothing else (`expandAlike_of_alike`): two
directories from which their trees look alike give the same files, in the same order, seen from
either. What a pattern finds is sorted, so that the order of the entries of a tree makes no
difference.

The path of the directory is put before each pattern as it is, and its own characters are not told
from those of the pattern. This is why it must be no pattern itself (`not_expandAlike_bracketed`).

A path that is too long cannot be followed, and that depends on the directory. Either side gives
what is short enough among the same files.
-/

namespace DeclarationBundle

namespace Text

/-! ### Sorted texts -/

/-- Texts that begin alike are in the order of what follows. -/
theorem append_le_append_iff (front a b : String) : front ++ a ≤ front ++ b ↔ a ≤ b := by
  have h_less : ∀ {x y : String}, x < y → front ++ x < front ++ y := by
    intro x y h
    rw [String.lt_iff_toList_lt] at h ⊢
    rw [String.toList_append, String.toList_append]
    exact List.append_left_lt h
  constructor
  · intro h
    -- otherwise they would be in the other order, and still so with the same text before them
    by_contra h_not
    exact absurd h (not_le.2 (h_less (not_le.1 h_not)))
  · intro h
    obtain rfl | h := eq_or_lt_of_le h
    · exact le_rfl
    · exact (h_less h).le

/-- To insert a text adds it and loses none. -/
theorem perm_insertSorted (s : String) (texts : List String) :
    (insertSorted s texts).Perm (s :: texts) := by
  induction texts with
  | nil => exact List.Perm.refl _
  | cons t rest ih =>
    unfold insertSorted
    split
    · exact List.Perm.refl _
    · exact (ih.cons t).trans (List.Perm.swap s t rest)

/-- To sort texts loses none and adds none. -/
theorem perm_sorted (texts : List String) : (sorted texts).Perm texts := by
  induction texts with
  | nil => exact List.Perm.refl _
  | cons s texts ih => exact (perm_insertSorted s (sorted texts)).trans (ih.cons s)

/-- A text is inserted before the first that it does not come after, so texts in order stay so. -/
theorem pairwise_insertSorted (s : String) {texts : List String} (h : texts.Pairwise (· ≤ ·)) :
    (insertSorted s texts).Pairwise (· ≤ ·) := by
  induction texts with
  | nil => exact List.pairwise_singleton ..
  | cons t rest ih =>
    obtain ⟨h_first, h_rest⟩ := List.pairwise_cons.1 h
    unfold insertSorted
    split
    · next h_le =>
      exact List.pairwise_cons.2
        ⟨List.forall_mem_cons.2 ⟨h_le, fun u hu => h_le.trans (h_first u hu)⟩, h⟩
    · next h_le =>
      -- the text goes further back, and all it is put among come after the first
      refine List.pairwise_cons.2 ⟨fun u hu => ?_, ih h_rest⟩
      obtain rfl | hu := List.mem_cons.1 ((perm_insertSorted s rest).mem_iff.1 hu)
      · exact (not_le.1 h_le).le
      · exact h_first u hu

/-- **Sorted texts are in order.** -/
theorem pairwise_sorted (texts : List String) : (sorted texts).Pairwise (· ≤ ·) := by
  induction texts with
  | nil => exact List.Pairwise.nil
  | cons s texts ih => exact pairwise_insertSorted s ih

/-- What stands before all texts does not change their order. -/
theorem sorted_map_append (front : String) (texts : List String) :
    sorted (texts.map (front ++ ·)) = (sorted texts).map (front ++ ·) := by
  have h_insert : ∀ (s : String) (rest : List String),
      insertSorted (front ++ s) (rest.map (front ++ ·))
        = (insertSorted s rest).map (front ++ ·) := by
    intro s rest
    induction rest with
    | nil => rfl
    | cons t rest ih =>
      rw [List.map_cons, insertSorted, insertSorted]
      simp only [append_le_append_iff]
      split
      · rfl
      · rw [ih, List.map_cons]
  induction texts with
  | nil => rfl
  | cons s texts ih =>
    show insertSorted (front ++ s) (sorted (texts.map (front ++ ·))) = _
    rw [ih, h_insert]
    rfl

end Text

namespace FileTree

open DeclarationBundle.Path (Spells Leads asDirectory)

variable {t t' : FileTree} {cwd cwd' base base' e e' : String} {place place' : Place} {levels : Nat}
  {xs xs' ys ys' : List String}

/-! ### The files of one pattern -/

/-- The files that a pattern stands for. -/
def filesOf (t : FileTree) (cwd base pattern : String) : List String :=
  (Text.sorted (t.search cwd (Path.join base pattern))).filter (t.isFile cwd)

/-- Patterns are expanded one by one. -/
theorem expand_eq_flatMap {patterns : List String}
    (h : ∀ p ∈ patterns, Wildcard.isPattern p = true) :
    t.expand cwd base patterns = patterns.flatMap (t.filesOf cwd base) :=
  List.flatMap_congr fun p hp => if_pos (h p hp)

/-- The files among what is found, as they are seen from a directory. -/
def filesFrom (t : FileTree) (cwd e : String) (xs : List String) : List String :=
  (Text.sorted xs).filter fun x => t.isFile cwd (Path.join e x)

/-- To sort what is found and to keep the files is the same from within a directory. -/
theorem filter_sorted_map_join (h : ∀ x ∈ xs, Path.isAbsolute x = false) :
    (Text.sorted (xs.map (Path.join e))).filter (t.isFile cwd)
      = (t.filesFrom cwd e xs).map (Path.join e) := by
  have h_read : ∀ zs : List String, (∀ x ∈ zs, x ∈ xs) →
      zs.map (Path.join e) = zs.map (asDirectory e ++ ·) := fun zs h_mem =>
    List.map_congr_left fun x hx => Path.join_eq_asDirectory_append (h x (h_mem x hx))
  have h_sorted : ∀ x ∈ Text.sorted xs, x ∈ xs := fun x => (Text.perm_sorted xs).mem_iff.1
  rw [h_read xs fun _ hx => hx, Text.sorted_map_append, ← h_read _ h_sorted, List.filter_map]
  rfl

/-- The path of a file that was found is short enough: otherwise it would not be known to be one. -/
theorem isShort_of_mem_filesFrom {x : String} (h : x ∈ t.filesFrom cwd e xs) :
    isShort (Path.join e x) = true :=
  isShort_of_isFile (List.mem_filter.1 h).2

/-- The files are among the findings. -/
theorem mem_of_mem_filesFrom {x : String} (h : x ∈ t.filesFrom cwd e xs) : x ∈ xs :=
  (Text.perm_sorted xs).mem_iff.1 (List.mem_filter.1 h).1

/-- **The same findings have the same files, in the same order.** -/
theorem filter_filesFrom_eq {reached : Nat} (h_twin : Twin t t' cwd cwd' levels e e')
    (h_same : Same e e' xs xs') (h_leads : ∀ x ∈ xs, Leads levels reached x) :
    (t.filesFrom cwd e xs).filter (fits e e') = (t'.filesFrom cwd' e' xs').filter (fits e e') := by
  have h_findings : ((Text.sorted xs).filter (fits e e')).Perm
      ((Text.sorted xs').filter (fits e e')) :=
    ((Text.perm_sorted xs).filter _).trans
      (List.Perm.trans h_same ((Text.perm_sorted xs').filter _).symm)
  have h_files : ∀ x ∈ (Text.sorted xs).filter (fits e e'),
      t.isFile cwd (Path.join e x) = t'.isFile cwd' (Path.join e' x) := by
    intro x hx
    rw [List.mem_filter, fits_iff] at hx
    have h_x := h_leads x ((Text.perm_sorted xs).mem_iff.1 hx.1)
    exact (h_twin.join_of_leads h_x).isFile_eq hx.2.1 hx.2.2
  -- what is found is the same in any order, and so are the files among it
  have h_perm : ((t.filesFrom cwd e xs).filter (fits e e')).Perm
      ((t'.filesFrom cwd' e' xs').filter (fits e e')) := by
    unfold filesFrom
    rw [List.filter_comm, List.filter_comm (fits e e'), List.filter_congr h_files]
    exact h_findings.filter _
  have h_order : ∀ (u : FileTree) (start dir : String) (zs : List String),
      ((u.filesFrom start dir zs).filter (fits e e')).Pairwise (· ≤ ·) := fun u start dir zs =>
    ((Text.pairwise_sorted zs).filter _).filter _
  -- there is only one way to put the same texts in order
  exact h_perm.eq_of_pairwise (fun _ _ _ _ => le_antisymm) (h_order ..) (h_order ..)

/-- Paths as a directory spells them that a pattern is read from, if they are short enough to be
followed. -/
def spelled (base pattern : String) (found : List String) : List String :=
  (found.map (Path.join (spelling base pattern))).filter isShort

/-- Of two lists that agree in what is short enough for both, the one from the directory with the
shorter path makes up the other. -/
theorem filter_map_join_eq (h_same : ys.filter (fits e e') = ys'.filter (fits e e'))
    (h_short : ∀ y ∈ ys, isShort (Path.join e y) = true)
    (h_short' : ∀ y ∈ ys', isShort (Path.join e' y) = true)
    (h_longer : ∀ y ∈ ys', isShort (Path.join e' y) = true → isShort (Path.join e y) = true) :
    (ys.map (Path.join e)).filter isShort = ys.map (Path.join e) ∧
      (ys.map (Path.join e')).filter isShort = ys'.map (Path.join e') := by
  constructor
  · refine List.filter_eq_self.2 fun path h_mem => ?_
    obtain ⟨y, hy, rfl⟩ := List.mem_map.1 h_mem
    exact h_short y hy
  · -- the shorter of the paths decides, since every path on the other side is longer
    have h_fits : ys.filter (isShort ∘ Path.join e') = ys.filter (fits e e') :=
      List.filter_congr fun y hy => by
        rw [Function.comp_apply, fits, h_short y hy, Bool.true_and]
    have h_all : ys'.filter (fits e e') = ys' :=
      List.filter_eq_self.2 fun y hy =>
        fits_iff.2 ⟨h_longer y hy (h_short' y hy), h_short' y hy⟩
    rw [List.filter_map, h_fits, h_same, h_all]

/-- What is short enough behind the longer of two directories is so behind the shorter one. -/
theorem isShort_join_of_le {x : String} (h_x : Path.isAbsolute x = false)
    (h_le : (Utf8.encode (asDirectory e)).length ≤ (Utf8.encode (asDirectory e')).length)
    (h : isShort (Path.join e' x) = true) : isShort (Path.join e x) = true := by
  rw [Path.join_eq_asDirectory_append h_x, isShort, Utf8.encode_append, List.length_append] at h ⊢
  exact decide_eq_true (Nat.lt_of_le_of_lt (Nat.add_le_add_right h_le _) (of_decide_eq_true h))

/-- Two lists that agree in what is short enough for both are made of one list. -/
theorem exists_map_join_eq (h_same : ys.filter (fits e e') = ys'.filter (fits e e'))
    (h_short : ∀ y ∈ ys, isShort (Path.join e y) = true)
    (h_short' : ∀ y ∈ ys', isShort (Path.join e' y) = true)
    (h_relative : ∀ y ∈ ys, Path.isAbsolute y = false)
    (h_relative' : ∀ y ∈ ys', Path.isAbsolute y = false) :
    ∃ found : List String, (∀ x ∈ found, Path.isAbsolute x = false) ∧
      ys.map (Path.join e) = (found.map (Path.join e)).filter isShort ∧
      ys'.map (Path.join e') = (found.map (Path.join e')).filter isShort := by
  -- the directory with the shorter path has all the files, and the other one those of them that fit
  obtain h_le | h_le := Nat.le_total (Utf8.encode (asDirectory e)).length
    (Utf8.encode (asDirectory e')).length
  · obtain ⟨h_all, h_some⟩ := filter_map_join_eq h_same h_short h_short' fun y hy =>
      isShort_join_of_le (h_relative' y hy) h_le
    exact ⟨ys, h_relative, h_all.symm, h_some.symm⟩
  · have h_comm : fits e' e = fits e e' := funext (fits_comm e' e)
    have h_same' : ys'.filter (fits e' e) = ys.filter (fits e' e) := by
      rw [h_comm]
      exact h_same.symm
    obtain ⟨h_all, h_some⟩ := filter_map_join_eq h_same' h_short' h_short fun y hy =>
      isShort_join_of_le (h_relative y hy) h_le
    exact ⟨ys', h_relative', h_some.symm, h_all.symm⟩

/-! ### Two directories -/

/-- Paths that spell two directories are twins if the trees look alike from these. How many slashes
a path ends in makes no difference to where it leads. -/
theorem twin_of_spells (h_base : t.isDirectory cwd base = true)
    (h_base' : t'.isDirectory cwd' base' = true) (h_place : t.landing cwd base = .ok place)
    (h_place' : t'.landing cwd' base' = .ok place') (h_alike : Alike t t' levels place place')
    (h_e : Spells base e) (h_e' : Spells base' e') : Twin t t' cwd cwd' levels e e' := by
  have h_landing : ∀ {u : FileTree} {start dir path : String} {p : Place},
      u.isDirectory start dir = true → u.landing start dir = .ok p → Spells dir path →
        u.landing start path = .ok p := by
    rintro u start dir path p h_directory h_dir ⟨h_ne, n, h_spelled⟩
    obtain ⟨⟨-, h_dir_ne, -⟩, q, h_q, h_find⟩ := isDirectory_iff_landing.1 h_directory
    obtain rfl : p = q := Except.ok.inj (h_dir.symm.trans h_q)
    obtain ⟨m, h_split⟩ := Path.exists_eq_append_slashes dir
    rw [h_split] at h_dir h_dir_ne
    rw [h_spelled] at h_ne ⊢
    exact landing_append_slashes h_dir_ne h_ne h_dir h_find
  have h_null : Path.hasNull e = Path.hasNull e' := by
    -- both directories are there, so that the system could be asked about them
    rw [h_e.hasNull_eq, h_e'.hasNull_eq, (isDirectory_iff_landing.1 h_base).1.1,
      (isDirectory_iff_landing.1 h_base').1.1]
  refine ⟨h_e.1, h_e'.1, h_null, ?_⟩
  rw [h_landing h_base h_place h_e, h_landing h_base' h_place' h_e']
  exact .place h_alike

/-- **The same files in two trees**: the files that the patterns among some paths stand for are the
same, in the same order, as they are seen from the directories that the patterns are read from. -/
def ExpandAlike (t t' : FileTree) (cwd cwd' base base' : String) (paths : List String) : Prop :=
  ∃ found : String → List String, (∀ p, ∀ x ∈ found p, Path.isAbsolute x = false) ∧
    (t.expand cwd base (paths.filter Wildcard.isPattern)
      = (paths.filter Wildcard.isPattern).flatMap fun p => spelled base p (found p)) ∧
    (t'.expand cwd' base' (paths.filter Wildcard.isPattern)
      = (paths.filter Wildcard.isPattern).flatMap fun p => spelled base' p (found p))

section TwoDirectories

variable (h_proper : t.IsProper) (h_proper' : t'.IsProper)
  (h_base : t.isDirectory cwd base = true) (h_base' : t'.isDirectory cwd' base' = true)
  (h_place : t.landing cwd base = .ok place) (h_place' : t'.landing cwd' base' = .ok place')
  (h_alike : Alike t t' levels place place')
  (h_plain : Wildcard.isPattern base = false) (h_plain' : Wildcard.isPattern base' = false)

include h_proper h_proper' h_base h_base' h_place h_place' h_alike h_plain h_plain'

/-- One pattern: its files are the same from both directories. -/
theorem exists_filesOf_eq {pattern : String} (h_pattern : Wildcard.isPattern pattern = true)
    (h_relative : Path.isAbsolute pattern = false)
    (h_stays : Path.staysWithin levels (certain (Path.segments pattern)) = true) :
    ∃ found, (∀ x ∈ found, Path.isAbsolute x = false) ∧
      t.filesOf cwd base pattern = spelled base pattern found ∧
      t'.filesOf cwd' base' pattern = spelled base' pattern found := by
  have h_ne := (isDirectory_iff_landing.1 h_base).1.2.1
  have h_ne' := (isDirectory_iff_landing.1 h_base').1.2.1
  have h_twin := twin_of_spells h_base h_base' h_place h_place' h_alike
    (spells_spelling h_ne pattern) (spells_spelling h_ne' pattern)
  rw [← Path.isSome_depthAfter] at h_stays
  obtain ⟨reached, h_depth⟩ := Option.isSome_iff_exists.1 h_stays
  obtain ⟨xs, xs', h_eq, h_eq', h_same, h_leads, h_leads'⟩ := exists_search_finds h_proper h_proper'
    h_ne h_ne' h_plain h_plain' h_twin h_pattern h_relative h_depth
  -- what the search finds is sorted and sifted, and both can be done from within the directory
  have h_files : t.filesOf cwd base pattern
      = (t.filesFrom cwd (spelling base pattern) xs).map (Path.join (spelling base pattern)) := by
    rw [filesOf, h_eq]
    exact filter_sorted_map_join fun x hx => (h_leads x hx).1
  have h_files' : t'.filesOf cwd' base' pattern
      = (t'.filesFrom cwd' (spelling base' pattern) xs').map
          (Path.join (spelling base' pattern)) := by
    rw [filesOf, h_eq']
    exact filter_sorted_map_join fun x hx => (h_leads' x hx).1
  unfold spelled
  rw [h_files, h_files']
  exact exists_map_join_eq (filter_filesFrom_eq h_twin h_same h_leads)
    (fun _ => isShort_of_mem_filesFrom) (fun _ => isShort_of_mem_filesFrom)
    (fun x hx => (h_leads x (mem_of_mem_filesFrom hx)).1)
    (fun x hx => (h_leads' x (mem_of_mem_filesFrom hx)).1)

/-- **What patterns stand for depends on the tree below the directory that they are read from**, and
on nothing else, if the path of the directory is no pattern itself. For `levels = 0` the patterns
stay below the directory, where `**` counts for no step down; in general they climb out of it by
`levels` steps at most, and the trees are alike from as far up. -/
theorem expandAlike_of_alike {paths : List String}
    (h_paths : ∀ p ∈ paths, Path.isAbsolute p = false ∧
      Path.staysWithin levels (certain (Path.segments p)) = true) :
    ExpandAlike t t' cwd cwd' base base' paths := by
  have h_one : ∀ p, ∃ found : List String, (∀ x ∈ found, Path.isAbsolute x = false) ∧
      (p ∈ paths.filter Wildcard.isPattern → t.filesOf cwd base p = spelled base p found ∧
        t'.filesOf cwd' base' p = spelled base' p found) := by
    intro p
    by_cases h_mem : p ∈ paths.filter Wildcard.isPattern
    · obtain ⟨h_p, h_pattern⟩ := List.mem_filter.1 h_mem
      obtain ⟨found, h_relatives, h_files⟩ := exists_filesOf_eq h_proper h_proper' h_base h_base'
        h_place h_place' h_alike h_plain h_plain' h_pattern (h_paths p h_p).1 (h_paths p h_p).2
      exact ⟨found, h_relatives, fun _ => h_files⟩
    · exact ⟨[], nofun, fun h => absurd h h_mem⟩
  -- one list of findings for each pattern
  choose found h_relatives h_files using h_one
  refine ⟨found, h_relatives, ?_, ?_⟩
  · rw [expand_eq_flatMap fun p hp => (List.mem_filter.1 hp).2]
    exact List.flatMap_congr fun p hp => (h_files p hp).1
  · rw [expand_eq_flatMap fun p hp => (List.mem_filter.1 hp).2]
    exact List.flatMap_congr fun p hp => (h_files p hp).2

end TwoDirectories

/-! ### Moved trees -/

/-- A tree with all of it moved below a place. -/
def planted (t : FileTree) (place : Place) : FileTree :=
  ⟨t.entries.map fun e => (place ++ e.1, e.2)⟩

/-- Below the place that a tree was moved to is what there was in the tree, and its root is a
directory there even if it holds nothing. -/
theorem find?_planted (t : FileTree) (h : place ≠ []) (names : Place) :
    (t.planted place).find? (place ++ names)
      = (t.entries.lookup names <|>
          if t.entries.any fun e => names.isPrefixOf e.1 then some .directory else none) := by
  have h_lookup : ∀ entries : List (Place × Entry),
      (entries.map fun e => (place ++ e.1, e.2)).lookup (place ++ names)
        = entries.lookup names := by
    intro entries
    -- an entry is moved, and so is the place that is asked for, so they meet as before
    induction entries with
    | nil => rfl
    | cons e entries ih =>
      have h_key : (place ++ names == place ++ e.1) = (names == e.1) := by
        rw [Bool.eq_iff_iff]
        simp
      rw [List.map_cons, List.lookup_cons, List.lookup_cons, ih, h_key]
  have h_beneath : ((t.planted place).entries.any fun e => (place ++ names).isPrefixOf e.1)
      = t.entries.any fun e => names.isPrefixOf e.1 := by
    unfold planted
    rw [List.any_map]
    refine congrArg (List.any t.entries) (funext fun e => ?_)
    rw [Bool.eq_iff_iff]
    simp
  have h_entries : (t.planted place).entries.lookup (place ++ names) = t.entries.lookup names :=
    h_lookup t.entries
  unfold find?
  rw [h_beneath, h_entries]
  cases t.entries.lookup names with
  | some entry => rfl
  | none =>
    have h_some : (place ++ names).isEmpty = false := by
      rw [List.isEmpty_eq_false_iff]
      simp [h]
    rw [h_some, Bool.false_or]
    rfl

/-- **A tree looks alike from wherever it is moved to.** -/
theorem alike_planted (t : FileTree) (h : place ≠ []) (h' : place' ≠ []) :
    Alike (t.planted place) (t.planted place') 0 place place' := by
  intro names
  rw [find?_planted t h, find?_planted t h']

/-- A file, and another one in a directory. -/
def twoFiles : FileTree :=
  ⟨[(["x.ts"], .file []), (["sub", "y.ts"], .file [])]⟩

/-- The same tree below two directories, the path of one of which ends in slashes. They stay where
the pattern names a directory first. -/
theorem expandAlike_of_alike_planted :
    (twoFiles.planted ["work", "src"]).expand "/work" "src" ["**/*.ts", "a.ts", "sub/../?.ts"]
        = ["src/sub/y.ts", "src/x.ts", "a.ts", "src/sub/../x.ts"] ∧
      (twoFiles.planted ["b"]).expand "/" "/b//" ["**/*.ts", "a.ts", "sub/../?.ts"]
        = ["/b/sub/y.ts", "/b/x.ts", "a.ts", "/b//sub/../x.ts"] ∧
      ExpandAlike (twoFiles.planted ["work", "src"]) (twoFiles.planted ["b"]) "/work" "/" "src"
        "/b//" ["**/*.ts", "a.ts", "sub/../?.ts"] := by
  have h_base : (twoFiles.planted ["work", "src"]).isDirectory "/work" "src" = true := by
    decide +kernel
  have h_base' : (twoFiles.planted ["b"]).isDirectory "/" "/b//" = true := by decide +kernel
  have h_alike : Alike (twoFiles.planted ["work", "src"]) (twoFiles.planted ["b"]) 0
      ["work", "src"] ["b"] := alike_planted twoFiles (by simp) (by simp)
  exact ⟨by decide +kernel, by decide +kernel,
    expandAlike_of_alike (by decide +kernel) (by decide +kernel) h_base h_base'
      (by decide +kernel) (by decide +kernel) h_alike (by decide +kernel) (by decide +kernel)
      (by decide +kernel)⟩

/-- **The characters of the directory's own path are taken for a pattern.** Below `/work/[a]`
nothing is found, for a name that `[a]` stands for is `a`. -/
theorem not_expandAlike_bracketed :
    (twoFiles.planted ["work", "[a]"]).isDirectory "/work" "/work/[a]" = true ∧
      (twoFiles.planted ["work", "b"]).isDirectory "/work" "/work/b" = true ∧
      Alike (twoFiles.planted ["work", "[a]"]) (twoFiles.planted ["work", "b"]) 0
        ["work", "[a]"] ["work", "b"] ∧
      ¬ ExpandAlike (twoFiles.planted ["work", "[a]"]) (twoFiles.planted ["work", "b"])
        "/work" "/work" "/work/[a]" "/work/b" ["*.ts"] := by
  refine ⟨by decide +kernel, by decide +kernel, alike_planted twoFiles (by simp) (by simp), ?_⟩
  rintro ⟨found, h_relative, h_bracketed, h_plain⟩
  have h_paths : ["*.ts"].filter Wildcard.isPattern = ["*.ts"] := by decide +kernel
  rw [h_paths, List.flatMap_singleton] at h_bracketed h_plain
  have h_none : (twoFiles.planted ["work", "[a]"]).expand "/work" "/work/[a]" ["*.ts"] = [] := by
    decide +kernel
  have h_one : (twoFiles.planted ["work", "b"]).expand "/work" "/work/b" ["*.ts"]
      = ["/work/b/x.ts"] := by decide +kernel
  have h_spelling : spelling "/work/[a]" "*.ts" = "/work/[a]" := by decide +kernel
  have h_spelling' : spelling "/work/b" "*.ts" = "/work/b" := by decide +kernel
  rw [h_none, spelled, h_spelling] at h_bracketed
  rw [h_one, spelled, h_spelling'] at h_plain
  -- what is found below the one is found below the other as well
  have h_mem : "/work/b/x.ts" ∈ ((found "*.ts").map (Path.join "/work/b")).filter isShort := by
    rw [← h_plain]
    exact List.mem_singleton_self _
  obtain ⟨x, hx, h_x⟩ := List.mem_map.1 (List.mem_filter.1 h_mem).1
  rw [Path.join_eq_asDirectory_append (h_relative _ x hx)] at h_x
  obtain rfl : x = "x.ts" := by
    refine (String.append_right_inj (asDirectory "/work/b")).1 (h_x.trans ?_)
    decide +kernel
  have h_found : Path.join "/work/[a]" "x.ts"
      ∈ ((found "*.ts").map (Path.join "/work/[a]")).filter isShort :=
    List.mem_filter.2 ⟨List.mem_map_of_mem hx, by decide +kernel⟩
  rw [← h_bracketed] at h_found
  cases h_found

end FileTree

end DeclarationBundle
