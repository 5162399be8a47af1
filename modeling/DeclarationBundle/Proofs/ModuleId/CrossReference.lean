import DeclarationBundle.ModuleId
import DeclarationBundle.Proofs.Path.Trail

/-!
# References between the modules of a bundle

A relative reference is followed twice: on disk, from the directory of the file that makes it, and
in the bundle, from the id of its module. `ModuleId.join_ofFile_eq_ofFile_iff` says that the two
lead to the same module, for a reference that stays within the base directory.

Both walks begin with the directories between the base directory and the file
(`IsDeclarationBelow.exists_names`). Under these lie the names of the base directory in one walk,
and those of the bundle in the other; a reference that never climbs out of the base directory
touches neither (`Path.foldl_push_append`), so both walks arrive by the same names.
-/

namespace DeclarationBundle.ModuleId

/-- **A declaration file strictly below a directory**, named by something more than its suffix. -/
structure IsDeclarationBelow (file base : String) : Prop where
  below : Path.IsBelow file base
  noBackslash : '\\' ∉ file.toList
  declares : isDeclarationFile file = true
  /-- What remains of the file's name without its suffix. -/
  named : Path.fileName (stripSuffix file) ∉ ["", ".", ".."]

/-! ### Suffixes and separators -/

/-- The name of a declaration file is something and one of the suffixes. -/
theorem exists_suffix {file : String} (h : isDeclarationFile file = true) :
    ∃ front suffix, suffix ∈ declarationSuffixes ∧ file = front ++ suffix := by
  obtain ⟨suffix, h_mem, h_ends⟩ := List.any_eq_true.1 h
  obtain ⟨front, h_file⟩ := Text.endsWith_iff.1 h_ends
  exact ⟨front, suffix, h_mem, h_file⟩

/-- Anything with one of the suffixes is a declaration file. -/
theorem isDeclarationFile_append_suffix {suffix : String} (h : suffix ∈ declarationSuffixes)
    (front : String) : isDeclarationFile (front ++ suffix) = true :=
  List.any_eq_true.2 ⟨suffix, h, Text.endsWith_iff.2 ⟨front, rfl⟩⟩

/-- No declaration suffix has a slash in it. -/
theorem notMem_of_mem_declarationSuffixes {suffix : String} (h : suffix ∈ declarationSuffixes) :
    '/' ∉ suffix.toList := by
  revert suffix
  decide

/-- No declaration suffix ends another. -/
theorem suffix_eq_of_isSuffix {a b : String} (ha : a ∈ declarationSuffixes)
    (hb : b ∈ declarationSuffixes) (h : a.toList <:+ b.toList) : a = b := by
  have h_all : ∀ a ∈ declarationSuffixes, ∀ b ∈ declarationSuffixes, a.toList <:+ b.toList →
      a = b := by
    decide
  exact h_all a ha b hb h

/-- The suffix that a file was given is the one that is cut off: if another were found first, one of
the two would end the other. -/
theorem stripSuffix_append {front suffix : String} (h : suffix ∈ declarationSuffixes) :
    stripSuffix (front ++ suffix) = front := by
  have h_ends : Text.endsWith (front ++ suffix) suffix = true := Text.endsWith_iff.2 ⟨front, rfl⟩
  cases h_find : declarationSuffixes.find? (Text.endsWith (front ++ suffix)) with
  | none => exact absurd h_ends (by simpa using List.find?_eq_none.1 h_find suffix h)
  | some found =>
    have h_found : Text.endsWith (front ++ suffix) found = true := List.find?_some h_find
    have h_mem := List.mem_of_find?_eq_some h_find
    rw [Text.endsWith, List.isSuffixOf_iff_suffix] at h_found h_ends
    -- two endings of one text, so one of them ends the other
    have h_eq : found = suffix := by
      rcases List.suffix_or_suffix_of_suffix h_found h_ends with h_shorter | h_shorter
      · exact suffix_eq_of_isSuffix h_mem h h_shorter
      · exact (suffix_eq_of_isSuffix h h_mem h_shorter).symm
    unfold stripSuffix
    simp only [h_find, h_eq]
    apply String.toList_inj.1
    simp [← String.length_toList]

/-- A path without backslashes is left as it is. -/
theorem withSlashes_of_notMem {path : String} (h : '\\' ∉ path.toList) :
    withSlashes path = path := by
  apply String.toList_inj.1
  unfold withSlashes
  rw [Text.toList_mapChars]
  have h_same : ∀ c ∈ path.toList, (if c = '\\' then '/' else c) = c := by
    intro c hc
    rw [if_neg]
    rintro rfl
    exact h hc
  rw [List.map_congr_left h_same, List.map_id']

/-- A reference that begins with a dot is no absolute path. -/
theorem isAbsolute_of_isRelative {reference : String} (h : isRelative reference = true) :
    Path.isAbsolute reference = false := by
  obtain ⟨rest, rfl⟩ := Text.startsWith_iff.1 h
  have h_toList : ("." ++ rest).toList = '.' :: rest.toList := by simp
  exact Path.isAbsolute_of_toList h_toList (by decide)

/-- The name of a file is what stands behind the last slash. -/
theorem fileName_append {front last : String} (h : '/' ∉ last.toList) :
    Path.fileName (front ++ "/" ++ last) = last := by
  have h_last : ∀ c ∈ last.toList.reverse, (c != '/') = true := by
    intro c hc
    rw [bne_iff_ne]
    rintro rfl
    exact h (List.mem_reverse.1 hc)
  unfold Path.fileName
  apply String.toList_inj.1
  simp [List.takeWhile_append_of_pos h_last]

/-- A suffix without a slash belongs to the last segment. -/
theorem split_last_segment {front last stem suffix : String} (h_suffix : '/' ∉ suffix.toList)
    (h : front ++ "/" ++ last = stem ++ suffix) :
    ∃ name, last = name ++ suffix ∧ stem = front ++ "/" ++ name := by
  have h_chars := congrArg String.toList h
  rw [String.toList_append, String.toList_append (s := stem)] at h_chars
  rcases List.append_eq_append_iff.1 h_chars with ⟨mid, h_stem, h_last⟩ | ⟨mid, h_front, h_mid⟩
  · refine ⟨String.ofList mid, ?_, ?_⟩
    · apply String.toList_inj.1
      simp [h_last]
    · apply String.toList_inj.1
      simpa using h_stem
  · -- the slash lies in `stem`, so nothing is left between
    have h_nil : mid = [] := by
      rcases List.eq_nil_or_concat mid with h_mid' | ⟨init, c, rfl⟩
      · exact h_mid'
      · have h_front' : front.toList ++ ['/'] = (stem.toList ++ init) ++ [c] := by
          simpa using h_front
        have h_c : '/' = c := List.singleton_inj.1 (List.append_inj' h_front' rfl).2
        refine absurd ?_ h_suffix
        rw [h_mid, ← h_c]
        simp
    subst h_nil
    refine ⟨"", ?_, ?_⟩
    · apply String.toList_inj.1
      simpa using h_mid.symm
    · apply String.toList_inj.1
      simpa using h_front.symm

/-! ### The two views of a declaration file -/

/-- Backslashes at the end of a base directory would be trimmed as well, but there are none. -/
theorem dropEndWhile_separator {base : String} (h : '\\' ∉ base.toList) :
    Text.dropEndWhile (fun c => c == '/' || c == '\\') base
      = Text.dropEndWhile (· == '/') base := by
  have h_same : ∀ chars : List Char, '\\' ∉ chars →
      chars.dropWhile (fun c => c == '/' || c == '\\') = chars.dropWhile (· == '/') := by
    intro chars h_chars
    induction chars with
    | nil => rfl
    | cons c chars ih =>
      obtain ⟨h_c, h_chars⟩ := not_or.1 (mt List.mem_cons.2 h_chars)
      have h_c : (c == '\\') = false := beq_eq_false_iff_ne.2 (Ne.symm h_c)
      rw [List.dropWhile_cons, List.dropWhile_cons, ih h_chars, h_c, Bool.or_false]
  apply String.toList_inj.1
  rw [Text.toList_dropEndWhile, Text.toList_dropEndWhile, h_same _ (by simpa using h)]

/-- What is cut off is as long as the base directory without the separators at its end. -/
theorem beneath_append {base front : String}
    (h : front = Text.dropEndWhile (fun c => c == '/' || c == '\\') base) (path : String) :
    beneath (front ++ path) base = path := by
  unfold beneath
  rw [← h]
  apply String.toList_inj.1
  simp [← String.length_toList]

/-- The id of a file, when the base directory is written with slashes at its end. -/
theorem ofFile_append {base front more suffix : String} {n : Nat}
    (h_front : front = Text.dropEndWhile (· == '/') base ++ Path.slashes n)
    (h_suffix : suffix ∈ declarationSuffixes)
    (h_back : '\\' ∉ (front ++ "/" ++ more ++ suffix).toList) (name : String) :
    ofFile (front ++ "/" ++ more ++ suffix) base name
      = name ++ Path.slashes n ++ "/" ++ more := by
  have h_parts := h_back
  rw [h_front] at h_parts
  simp only [String.toList_append, List.mem_append, not_or] at h_parts
  obtain ⟨⟨⟨⟨h_base, h_slashes⟩, h_slash⟩, h_more⟩, -⟩ := h_parts
  -- what is trimmed from the base directory are slashes, so it has no backslash either
  have h_baseBack : '\\' ∉ base.toList := by
    obtain ⟨m, h_split⟩ := Path.exists_eq_append_slashes base
    rw [h_split, String.toList_append, List.mem_append]
    rintro (h_mem | h_mem)
    · exact h_base h_mem
    · rw [Path.slashes, String.toList_ofList] at h_mem
      exact absurd (List.mem_replicate.1 h_mem).2 (by decide)
  -- what lies beneath the base directory begins with those of its slashes that `front` still has
  have h_beneath : beneath (front ++ "/" ++ more ++ suffix) base
      = Path.slashes n ++ "/" ++ more ++ suffix := by
    simp only [h_front, String.append_assoc]
    exact beneath_append (dropEndWhile_separator h_baseBack).symm _
  have h_path : withSlashes (Path.slashes n ++ "/" ++ more) = Path.slashes n ++ "/" ++ more :=
    withSlashes_of_notMem (by simp [h_slashes, h_more])
  -- it begins with a slash, so none is put in between
  have h_starts : Text.startsWith (Path.slashes n ++ "/" ++ more) "/" = true := by
    refine Text.startsWith_iff.2 ?_
    cases n with
    | zero => exact ⟨more, by rw [show Path.slashes 0 = "" from rfl, String.empty_append]⟩
    | succ n =>
      refine ⟨Path.slashes n ++ "/" ++ more, ?_⟩
      apply String.toList_inj.1
      simp [Path.slashes, List.replicate_succ]
  unfold ofFile
  simp only [h_beneath, stripSuffix_append h_suffix, h_path, if_pos h_starts]
  simp only [String.append_assoc]

/-- **The directories on the way down to a declaration file**, and its name with the suffix and
without. `front` is what the path of the base directory and those below it begin with. -/
theorem exists_names {file base front : String} {n : Nat}
    (h_front : front = Text.dropEndWhile (· == '/') base ++ Path.slashes n)
    (h_join : ∀ more, Path.isAbsolute more = false →
      Path.join base more = front ++ "/" ++ more)
    (h_below : Path.IsBelow file base) (h_back : '\\' ∉ file.toList)
    (h_declares : isDeclarationFile file = true) :
    ∃ dirs stem suffix, (∀ n ∈ dirs, Path.IsName n) ∧ Path.IsName (stem ++ suffix) ∧
      file = Path.placed front dirs (stem ++ suffix) ∧
      stripSuffix file = Path.placed front dirs stem ∧
      ∀ name, ofFile file base name = Path.placed (name ++ Path.slashes n) dirs stem := by
  obtain ⟨names, h_ne, h_names, h_file⟩ := h_below
  obtain ⟨dirs, last, rfl⟩ := (List.eq_nil_or_concat' names).resolve_left h_ne
  have h_dirs : ∀ n ∈ dirs, Path.IsName n := fun n hn => h_names n (List.mem_append_left _ hn)
  have h_last : Path.IsName last := h_names last (by simp)
  have h_relative : Path.isAbsolute ("/".intercalate (dirs ++ [last])) = false := by
    rw [← String.append_empty (s := "/".intercalate _)]
    exact Path.isAbsolute_intercalate_append h_names h_ne ""
  rw [h_join _ h_relative] at h_file
  -- the suffix belongs to the name of the file
  obtain ⟨start, suffix, h_suffix, h_split⟩ := exists_suffix h_declares
  obtain ⟨parent, -, -, h_parent⟩ := Path.exists_parent front h_dirs
  -- the last segment is parted in front of the suffix, and so is the whole path
  obtain ⟨stem, rfl, h_start⟩ := split_last_segment (notMem_of_mem_declarationSuffixes h_suffix)
    ((h_parent last).symm.trans (h_file.symm.trans h_split))
  rw [← h_parent] at h_start
  rw [h_split, h_start] at h_back
  refine ⟨dirs, stem, suffix, h_dirs, h_last, h_file, ?_, fun name => ?_⟩
  · rw [h_split, stripSuffix_append h_suffix, h_start]
  · rw [h_split, h_start]
    exact ofFile_append h_front h_suffix h_back name

/-- What the paths below an absolute path in normal form begin with. -/
theorem exists_rooted_append_eq {above : List String} (h_above : ∀ n ∈ above, Path.IsName n) :
    ∃ front, front = Text.dropEndWhile (· == '/') (Path.rooted above) ++ Path.slashes 0 ∧
      (∀ more, Path.isAbsolute more = false →
        Path.join (Path.rooted above) more = front ++ "/" ++ more) ∧
      ∀ dirs last, Path.placed front dirs last = Path.rooted (above ++ (dirs ++ [last])) := by
  by_cases h_nil : above = []
  · subst h_nil
    refine ⟨"", by decide, fun more h_more => ?_, fun _ _ => rfl⟩
    unfold Path.join
    rw [if_neg (by simp [h_more]), if_pos (by decide)]
    rfl
  · have h_ends := Path.endsInName_rooted h_above h_nil
    refine ⟨Path.rooted above, ?_, fun more h_more => h_ends.join_eq h_more, fun dirs last => ?_⟩
    · rw [h_ends.dropEndWhile_slash]
      exact String.append_empty.symm
    · rw [Path.placed, Path.rooted_append h_nil (by simp)]

/-- The same below an absolute directory in normal form. -/
theorem IsDeclarationBelow.exists_names {file : String} {above : List String}
    (h_above : ∀ n ∈ above, Path.IsName n) (h : IsDeclarationBelow file (Path.rooted above)) :
    ∃ dirs stem, (∀ n ∈ dirs ++ [stem], Path.IsName n) ∧
      Path.directory file = Path.rooted (above ++ dirs) ∧
      stripSuffix file = Path.rooted (above ++ (dirs ++ [stem])) ∧
      ∀ name, ofFile file (Path.rooted above) name
          = name ++ "/" ++ "/".intercalate (dirs ++ [stem]) := by
  obtain ⟨front, h_front, h_join, h_rooted⟩ := exists_rooted_append_eq h_above
  obtain ⟨dirs, stem, suffix, h_dirs, h_name, h_file, h_strip, h_id⟩ :=
    ModuleId.exists_names h_front h_join h.below h.noBackslash h.declares
  have h_stem : Path.IsName stem := by
    -- no slash, as in the name it begins; the rest is said of what remains without the suffix
    have h_slash : '/' ∉ stem.toList := fun h_mem => h_name.2.2.2 (by simp [h_mem])
    obtain ⟨parent, -, -, h_parent⟩ := Path.exists_parent front h_dirs
    have h_named := h.named
    rw [h_strip, h_parent, fileName_append h_slash] at h_named
    simp only [List.mem_cons, List.not_mem_nil, or_false, not_or] at h_named
    exact ⟨h_named.1, h_named.2.1, h_named.2.2, h_slash⟩
  refine ⟨dirs, stem, ?_, ?_, ?_, fun name => ?_⟩
  · exact List.forall_mem_append.2 ⟨h_dirs, List.forall_mem_singleton.2 h_stem⟩
  · rw [h_file, h_rooted, ← List.append_assoc]
    exact Path.directory_rooted (List.forall_mem_append.2 ⟨h_above, h_dirs⟩) h_name.2.2.2
  · rw [h_strip, h_rooted]
  · rw [h_id, Path.placed, show Path.slashes 0 = "" from rfl, String.append_empty]

/-- The depth of a directory below another. -/
theorem length_names_rooted {names : List String} (h : ∀ n ∈ names, Path.IsName n) :
    (Path.names (Path.rooted names)).length = names.length := by
  rw [Path.names_rooted h]

/-- The id of a module stands in the bundle as the path of its file stands in the base directory. -/
theorem join_append_intercalate {bundle dirs : List String} {stem reference : String}
    (h_bundle : ∀ n ∈ bundle, Path.IsName n) (h_ne : bundle ≠ [])
    (h_names : ∀ n ∈ dirs ++ [stem], Path.IsName n) (h_relative : isRelative reference = true)
    (h_back : '\\' ∉ reference.toList)
    (h_stays : Path.staysWithin dirs.length (Path.segments reference) = true) :
    join ("/".intercalate bundle ++ "/" ++ "/".intercalate (dirs ++ [stem])) reference
      = "/".intercalate (bundle ++ Path.walk dirs reference) := by
  have h_dirs : ∀ n ∈ dirs, Path.IsName n := fun n hn => h_names n (List.mem_append_left _ hn)
  have h_all : ∀ n ∈ bundle ++ dirs, Path.IsName n := List.forall_mem_append.2 ⟨h_bundle, h_dirs⟩
  -- the directory of an id is the id of the directory
  have h_parent : Path.directory ("/".intercalate bundle ++ "/" ++ "/".intercalate (dirs ++ [stem]))
      = "/".intercalate (bundle ++ dirs) := by
    rw [← String.intercalate_append_of_ne_nil h_ne (by simp), ← List.append_assoc,
      String.intercalate_append_of_ne_nil (by simp [h_ne]) (by simp), String.intercalate_singleton]
    exact (Path.endsInName_intercalate h_all (by simp [h_ne])).directory_append
      (h_names stem (by simp)).2.2.2
  unfold join
  rw [h_parent, withSlashes_of_notMem h_back,
    Path.normalise_join_intercalate_append h_bundle h_dirs h_stays h_ne
      (isAbsolute_of_isRelative h_relative)]

/-- **References lead to the right module.** A relative reference that stays within the base
directory leads to the module of a file exactly if it leads to that file on disk. -/
theorem join_ofFile_eq_ofFile_iff {base name file target reference : String}
    (h_base : Path.IsRooted base) (h_name : ∀ s ∈ Path.segments name, s ∉ ["", ".", ".."])
    (h_file : IsDeclarationBelow file base) (h_target : IsDeclarationBelow target base)
    (h_relative : isRelative reference = true) (h_back : '\\' ∉ reference.toList)
    (h_stays : Path.staysWithin
      ((Path.names (Path.directory file)).length - (Path.names base).length)
      (Path.segments reference) = true) :
    join (ofFile file base name) reference = ofFile target base name ↔
      Path.normalise (Path.join (Path.directory file) reference) = stripSuffix target := by
  obtain ⟨above, h_above, rfl⟩ := h_base.exists_eq_rooted
  obtain ⟨dirs, stem, h_names, h_directory, -, h_id⟩ := h_file.exists_names h_above
  obtain ⟨dirs', stem', h_names', -, h_strip, h_id'⟩ := h_target.exists_names h_above
  -- the name of the bundle is a relative path of at least one name
  obtain ⟨bundle, h_ne, h_bundle, rfl⟩ : ∃ bundle, bundle ≠ [] ∧ (∀ n ∈ bundle, Path.IsName n) ∧
      name = "/".intercalate bundle := by
    refine ⟨Path.segments name, Text.fields_ne_nil '/' name, ?_,
      (Path.intercalate_segments name).symm⟩
    intro n hn
    have h_n := h_name n hn
    simp only [List.mem_cons, List.not_mem_nil, or_false, not_or] at h_n
    exact ⟨h_n.1, h_n.2.1, h_n.2.2, Path.notMem_of_mem_segments hn⟩
  have h_dirs : ∀ n ∈ dirs, Path.IsName n := fun n hn => h_names n (List.mem_append_left _ hn)
  have h_walk := Path.isName_of_mem_walk h_dirs reference
  -- the file lies as many directories below the base as its path has names more
  have h_depth : Path.staysWithin dirs.length (Path.segments reference) = true := by
    rw [h_directory, length_names_rooted (List.forall_mem_append.2 ⟨h_above, h_dirs⟩),
      length_names_rooted h_above, List.length_append, Nat.add_sub_cancel_left] at h_stays
    exact h_stays
  -- both sides say that the walk from `dirs` arrives at the target, under `bundle` or `above`
  rw [h_id, h_id', h_directory, h_strip,
    join_append_intercalate h_bundle h_ne h_names h_relative h_back h_depth,
    Path.normalise_join_rooted_append h_above h_dirs h_depth (isAbsolute_of_isRelative h_relative),
    ← String.intercalate_append_of_ne_nil h_ne (by simp),
    Path.intercalate_inj (List.forall_mem_append.2 ⟨h_bundle, h_walk⟩)
      (List.forall_mem_append.2 ⟨h_bundle, h_names'⟩),
    Path.rooted_inj (List.forall_mem_append.2 ⟨h_above, h_walk⟩)
      (List.forall_mem_append.2 ⟨h_above, h_names'⟩),
    List.append_right_inj, List.append_right_inj]

/-- A reference that wanders about below the base directory before it arrives. -/
theorem join_ofFile_eq_ofFile_wandering :
    join (ofFile "/src/sub/deep/a.d.ts" "/src" "lib/core") "./..//x/.././../b" = "lib/core/b" ∧
      Path.normalise (Path.join (Path.directory "/src/sub/deep/a.d.ts") "./..//x/.././../b")
          = "/src/b" := by
  have h_base : Path.IsRooted "/src" := ⟨by decide, by decide⟩
  have h_file : IsDeclarationBelow "/src/sub/deep/a.d.ts" "/src" :=
    ⟨⟨["sub", "deep", "a.d.ts"], by decide, by decide, by decide⟩, by decide, by decide, by decide⟩
  have h_target : IsDeclarationBelow "/src/b.d.mts" "/src" :=
    ⟨⟨["b.d.mts"], by decide, by decide, by decide⟩, by decide, by decide, by decide⟩
  have h_name : ∀ s ∈ Path.segments "lib/core", s ∉ ["", ".", ".."] := by decide
  have h_relative : isRelative "./..//x/.././../b" = true := by decide
  have h_iff := join_ofFile_eq_ofFile_iff h_base h_name h_file h_target h_relative (by decide)
    (by decide)
  have h_disk : Path.normalise
      (Path.join (Path.directory "/src/sub/deep/a.d.ts") "./..//x/.././../b")
      = stripSuffix "/src/b.d.mts" := by decide
  exact ⟨(h_iff.2 h_disk).trans (by decide), h_disk.trans (by decide)⟩

end DeclarationBundle.ModuleId
