import DeclarationBundle.Compiler.Layout
import DeclarationBundle.Proofs.ModuleId.CrossReference

/-!
# Where the declaration of a source is laid out

The sources of a program have a common root, and the declaration file of each lies below it
(`Layout.sourceRoot_cases`). So there is one way down from the root to the declaration file, and the
place that it is looked for at is just that way: `Layout.key_of_join`.

The root is above a source since it is what the directories of all of them begin with
(`Path.foldl_sharedStart_isPrefix`); the declaration file of a source lies beside it, for only the
end of its name is another (`Layout.exists_declarationName_eq`).
-/

namespace DeclarationBundle

/-- To drop as many characters as a text has, behind which they stand, leaves what stands before
it. -/
theorem Text.dropEnd_append (front tail : String) :
    dropEnd (front ++ tail) tail.length = front := by
  apply String.toList_inj.1
  simp [← String.length_toList]

/-! ### Common ancestors -/

namespace Path

variable {names : List String}

/-- What two lists begin with alike is a beginning of each. -/
theorem sharedStart_isPrefix (xs ys : List String) :
    sharedStart xs ys <+: xs ∧ sharedStart xs ys <+: ys := by
  induction xs generalizing ys with
  | nil => exact ⟨List.prefix_rfl, List.nil_prefix⟩
  | cons x xs ih =>
    cases ys with
    | nil => exact ⟨List.nil_prefix, List.prefix_rfl⟩
    | cons y ys =>
      rw [sharedStart]
      split
      · next h_eq =>
        subst h_eq
        exact ⟨(List.prefix_cons_inj x).2 (ih ys).1, (List.prefix_cons_inj x).2 (ih ys).2⟩
      · exact ⟨List.nil_prefix, List.nil_prefix⟩

/-- Nothing longer is shared. -/
theorem isPrefix_sharedStart {xs ys : List String} (hx : names <+: xs) (hy : names <+: ys) :
    names <+: sharedStart xs ys := by
  induction names generalizing xs ys with
  | nil => exact List.nil_prefix
  | cons n names ih =>
    obtain ⟨xs', rfl, h_left⟩ := List.cons_prefix_iff.1 hx
    obtain ⟨ys', rfl, h_right⟩ := List.cons_prefix_iff.1 hy
    rw [sharedStart, if_pos rfl]
    exact (List.prefix_cons_inj n).2 (ih h_left h_right)

/-- A beginning of a list is all that it has in common with the list. -/
theorem sharedStart_append (xs ys : List String) : sharedStart xs (xs ++ ys) = xs := by
  induction xs with
  | nil => cases ys <;> rfl
  | cons x xs ih => rw [List.cons_append, sharedStart, if_pos rfl, ih]

/-- What some paths begin with is a beginning of each. -/
theorem foldl_sharedStart_isPrefix (start : List String) (paths : List String) :
    paths.foldl (fun shared path => sharedStart shared (steps path)) start <+: start ∧
      ∀ path ∈ paths,
        paths.foldl (fun shared path => sharedStart shared (steps path)) start <+: steps path := by
  induction paths generalizing start with
  | nil => exact ⟨List.prefix_rfl, fun _ h => absurd h List.not_mem_nil⟩
  | cons path paths ih =>
    obtain ⟨h_start, h_paths⟩ := ih (sharedStart start (steps path))
    obtain ⟨h_left, h_right⟩ := sharedStart_isPrefix start (steps path)
    exact ⟨h_start.trans h_left, List.forall_mem_cons.2 ⟨h_start.trans h_right, h_paths⟩⟩

/-- Whatever all of some paths begin with, what is found begins with it too. So the ancestor that is
found is the lowest. -/
theorem isPrefix_foldl_sharedStart {start : List String} {paths : List String}
    (h_start : names <+: start) (h : ∀ path ∈ paths, names <+: steps path) :
    names <+: paths.foldl (fun shared path => sharedStart shared (steps path)) start := by
  induction paths generalizing start with
  | nil => exact h_start
  | cons path paths ih =>
    obtain ⟨h_path, h_paths⟩ := List.forall_mem_cons.1 h
    exact ih (isPrefix_sharedStart h_start h_path) h_paths

/-- **Absolute paths have a common ancestor.** Each of them begins as it does, and it with whatever
all of them begin with. -/
theorem exists_commonAncestor {first : String} {others : List String}
    (h : ∀ path ∈ first :: others, isAbsolute path = true) :
    ∃ above, commonAncestor first others = .ok (rooted above) ∧
      (∀ path ∈ first :: others, above <+: steps path) ∧
      ∀ names, (∀ path ∈ first :: others, names <+: steps path) → names <+: above := by
  obtain ⟨h_first, h_others⟩ := List.forall_mem_cons.1 h
  refine ⟨others.foldl (fun shared path => sharedStart shared (steps path)) (steps first), ?_, ?_,
    fun names h_names => ?_⟩
  · -- all of the paths are absolute, so none is mixed with another kind
    have h_all : others.all (isAbsolute · == isAbsolute first) = true :=
      List.all_eq_true.2 fun path h_mem => by simp [h_first, h_others path h_mem]
    unfold commonAncestor
    rw [if_pos h_all]
    simp only [h_first, if_true]
    rfl
  · obtain ⟨h_start, h_paths⟩ := foldl_sharedStart_isPrefix (steps first) others
    exact List.forall_mem_cons.2 ⟨h_start, h_paths⟩
  · obtain ⟨h_start, h_paths⟩ := List.forall_mem_cons.1 h_names
    exact isPrefix_foldl_sharedStart h_start h_paths

/-- A relative path that is made of names is in normal form. -/
theorem normalise_intercalate (h : ∀ n ∈ names, IsName n) (h_ne : names ≠ []) :
    normalise ("/".intercalate names) = "/".intercalate names := by
  have h_root : root ("/".intercalate names) = "" := by
    refine root_of_isAbsolute_eq_false ?_
    rw [← String.append_empty (s := "/".intercalate names)]
    exact isAbsolute_intercalate_append h h_ne ""
  unfold normalise resolve
  simp only [h_root, foldl_push_intercalate h, List.append_nil, List.reverse_reverse,
    String.empty_append]
  rw [if_neg (endsInName_intercalate h h_ne).ne_empty]

/-- So is an absolute one, and it makes no difference where it is read from. -/
theorem absolute_rooted (h : ∀ n ∈ names, IsName n) (cwd : String) :
    absolute cwd (rooted names) = rooted names := by
  unfold absolute join
  rw [if_pos (isAbsolute_rooted names), normalise_rooted h]

/-- The way down from a directory. -/
theorem relative_rooted {above : List String} (h_above : ∀ n ∈ above, IsName n)
    (h : ∀ n ∈ names, IsName n) (h_ne : names ≠ []) (cwd : String) :
    relative cwd (rooted (above ++ names)) (rooted above) = "/".intercalate names := by
  have h_all := List.forall_mem_append.2 ⟨h_above, h⟩
  unfold relative
  -- the directory is all that the two have in common, so no step up is needed
  simp only [absolute_rooted h_above, absolute_rooted h_all, names_rooted h_above,
    names_rooted h_all, sharedStart_append, List.drop_left, Nat.sub_self, List.replicate_zero,
    List.nil_append]
  rw [if_neg h_ne]

/-- The extension of a name is the end of it. -/
theorem extensionOf_isSuffix (name : List Char) : extensionOf name <:+ name := by
  unfold extensionOf
  simp only
  generalize h_dots : name.dropWhile (· == '.') = rest
  have h_rest : rest <:+ name := h_dots ▸ List.dropWhile_suffix _
  split
  · next h_shorter =>
    refine List.IsSuffix.trans ?_ h_rest
    have h_whole : rest = (rest.reverse.dropWhile (· != '.')).reverse ++
        (rest.reverse.takeWhile (· != '.')).reverse := by
      rw [← List.reverse_append, List.takeWhile_append_dropWhile, List.reverse_reverse]
    -- not all of it is without dots, so a dot stands before what is
    cases h_drop : rest.reverse.dropWhile (· != '.') with
    | nil =>
      rw [h_drop, List.reverse_nil, List.nil_append] at h_whole
      rw [← h_whole] at h_shorter
      exact absurd h_shorter (Nat.lt_irrefl _)
    | cons dot before =>
      have h_ne : rest.reverse.dropWhile (· != '.') ≠ [] := by simp [h_drop]
      have h_dot : dot = '.' := by simpa [h_drop] using List.head_dropWhile_not (· != '.') h_ne
      rw [h_drop, h_dot, List.reverse_cons, List.append_assoc] at h_whole
      exact ⟨before.reverse, h_whole.symm⟩
  · exact List.nil_suffix

/-- A path without its extension lies beside the path. -/
theorem exists_stem_eq {name : String} (h : '/' ∉ name.toList) (parent : String) :
    ∃ front, '/' ∉ front.toList ∧ stem (parent ++ "/" ++ name) = parent ++ "/" ++ front := by
  obtain ⟨front, h_front⟩ := extensionOf_isSuffix name.toList
  have h_name : name = String.ofList front ++ String.ofList (extensionOf name.toList) :=
    String.toList_inj.1 (by simp [h_front])
  refine ⟨String.ofList front, fun h_mem => h ?_, ?_⟩
  · rw [h_name, String.toList_append]
    exact List.mem_append_left _ h_mem
  · unfold stem extension
    rw [ModuleId.fileName_append h]
    generalize extensionOf name.toList = ending at h_name
    rw [h_name, ← String.append_assoc, Text.dropEnd_append]

end Path

namespace Layout

/-! ### Declaration files -/

/-- Whatever extension a source has, its declaration file gets one of the declaration suffixes. -/
theorem getD_lookup_mem_declarationSuffixes (extension : String) :
    (declarationExtensions.lookup extension).getD ".d.ts" ∈ ModuleId.declarationSuffixes := by
  have h_all : ∀ pair ∈ declarationExtensions, pair.2 ∈ ModuleId.declarationSuffixes := by decide
  cases h_lookup : declarationExtensions.lookup extension with
  | none => decide
  | some suffix =>
    obtain ⟨before, after, h_split, -⟩ := List.lookup_eq_some_iff.1 h_lookup
    exact h_all (extension, suffix) (by simp [h_split])

/-- A suffix is too long to leave a segment that could be mistaken for none, or for a step that is
not down. -/
theorem isName_append_suffix {stem suffix : String} (h_stem : '/' ∉ stem.toList)
    (h_suffix : suffix ∈ ModuleId.declarationSuffixes) : Path.IsName (stem ++ suffix) := by
  have h_all : ∀ suffix ∈ ModuleId.declarationSuffixes, 2 < suffix.length := by decide
  have h_length : 2 < (stem ++ suffix).length := by
    rw [String.length_append]
    exact Nat.lt_of_lt_of_le (h_all suffix h_suffix) (Nat.le_add_left _ _)
  have h_ne : ∀ text : String, text.length ≤ 2 → stem ++ suffix ≠ text := by
    rintro text h_text rfl
    omega
  refine ⟨h_ne "" (by decide), h_ne "." (by decide), h_ne ".." (by decide), ?_⟩
  rw [String.toList_append, List.mem_append, not_or]
  exact ⟨h_stem, ModuleId.notMem_of_mem_declarationSuffixes h_suffix⟩

/-- Whether a path leads to a declaration file can be seen at its last segment. -/
theorem isDeclarationFile_intercalate {suffix : String}
    (h : suffix ∈ ModuleId.declarationSuffixes) (dirs : List String) (stem : String) :
    ModuleId.isDeclarationFile ("/".intercalate (dirs ++ [stem ++ suffix])) = true := by
  by_cases h_nil : dirs = []
  · rw [h_nil, List.nil_append, String.intercalate_singleton]
    exact ModuleId.isDeclarationFile_append_suffix h stem
  · rw [String.intercalate_append_of_ne_nil h_nil (by simp), String.intercalate_singleton,
      ← String.append_assoc]
    exact ModuleId.isDeclarationFile_append_suffix h _

/-- **The declaration file of a source lies beside it.** -/
theorem exists_declarationName_eq {dirs : List String} {name : String} (h_name : Path.IsName name)
    (h_kind : ModuleId.isDeclarationFile (Path.rooted (dirs ++ [name])) = false) :
    ∃ stem suffix, suffix ∈ ModuleId.declarationSuffixes ∧ Path.IsName (stem ++ suffix) ∧
      declarationName (Path.rooted (dirs ++ [name])) = Path.rooted (dirs ++ [stem ++ suffix]) := by
  -- both paths are written as their directory, a slash and the name
  obtain ⟨parent, h_parent⟩ := Path.exists_rooted_concat_eq dirs
  obtain ⟨front, h_slash, h_stem⟩ := Path.exists_stem_eq h_name.2.2.2 parent
  rw [← h_parent] at h_stem
  have h_suffix :=
    getD_lookup_mem_declarationSuffixes (Path.extension (Path.rooted (dirs ++ [name])))
  refine ⟨front, _, h_suffix, isName_append_suffix h_slash h_suffix, ?_⟩
  unfold declarationName
  rw [if_neg (by simp [h_kind]), h_stem, h_parent (front ++ _)]
  exact String.append_assoc ..

/-! ### Places -/

/-- **What is below the root is looked for at the way down from there.** -/
theorem key_of_join {above place : List String} (h_above : ∀ n ∈ above, Path.IsName n)
    (h_place : ∀ n ∈ place, Path.IsName n) (h_ne : place ≠ []) (cwd : String) :
    key cwd (Path.rooted above) (Path.join (Path.rooted above) ("/".intercalate place))
      = "/".intercalate place := by
  unfold key
  rw [Path.join_rooted_intercalate h_above h_place h_ne,
    Path.relative_rooted h_above h_place h_ne, Path.normalise_intercalate h_place h_ne]

/-- A source lies in a directory. -/
theorem exists_rooted_concat_of_isSource {file : String} (h : Path.IsRooted file)
    (h_source : isSource file = true) :
    ∃ dirs name, (∀ n ∈ dirs, Path.IsName n) ∧ Path.IsName name ∧
      file = Path.rooted (dirs ++ [name]) ∧ Path.directory file = Path.rooted dirs := by
  obtain ⟨names, h_names, rfl⟩ := h.exists_eq_rooted
  rcases List.eq_nil_or_concat' names with rfl | ⟨dirs, name, rfl⟩
  · -- the root has the ending of no source
    exact absurd h_source (by decide)
  · obtain ⟨h_dirs, h_name⟩ := List.forall_mem_append.1 h_names
    rw [List.forall_mem_singleton] at h_name
    exact ⟨dirs, name, h_dirs, h_name, rfl, Path.directory_rooted h_dirs h_name.2.2.2⟩

/-- The declaration file of a source that lies below a directory is below it as well. -/
theorem exists_place {above dirs : List String} {name : String}
    (h_dirs : ∀ n ∈ above ++ dirs, Path.IsName n) (h_name : Path.IsName name)
    (h_kind : ModuleId.isDeclarationFile (Path.rooted (above ++ dirs ++ [name])) = false) :
    ∃ place, place ≠ [] ∧ (∀ n ∈ place, Path.IsName n) ∧
      ModuleId.isDeclarationFile ("/".intercalate place) = true ∧
      declarationName (Path.rooted (above ++ dirs ++ [name]))
        = Path.join (Path.rooted above) ("/".intercalate place) := by
  obtain ⟨stem, suffix, h_suffix, h_declared, h_declaration⟩ :=
    exists_declarationName_eq h_name h_kind
  obtain ⟨h_above, h_dirs⟩ := List.forall_mem_append.1 h_dirs
  have h_place : ∀ n ∈ dirs ++ [stem ++ suffix], Path.IsName n :=
    List.forall_mem_append.2 ⟨h_dirs, List.forall_mem_singleton.2 h_declared⟩
  refine ⟨dirs ++ [stem ++ suffix], by simp, h_place,
    isDeclarationFile_intercalate h_suffix dirs stem, ?_⟩
  rw [h_declaration, Path.join_rooted_intercalate h_above h_place (by simp), List.append_assoc]

/-- The directories of some sources have a common ancestor. Each source lies below it, and it at or
below whatever all the directories lie at or below. -/
theorem exists_commonAncestor_directory {first : String} {others : List String}
    (h : ∀ file ∈ first :: others, Path.IsRooted file ∧ isSource file = true) :
    ∃ above, (∀ n ∈ above, Path.IsName n) ∧
      Path.commonAncestor (Path.directory first) (others.map Path.directory)
        = .ok (Path.rooted above) ∧
      (∀ file ∈ first :: others, ∃ dirs name, (∀ n ∈ above ++ dirs, Path.IsName n) ∧
        Path.IsName name ∧ file = Path.rooted (above ++ dirs ++ [name])) ∧
      ∀ names, (∀ file ∈ first :: others, names <+: Path.steps (Path.directory file)) →
        names <+: above := by
  have h_absolute : ∀ path ∈ Path.directory first :: others.map Path.directory,
      Path.isAbsolute path = true := by
    rw [← List.map_cons]
    intro path h_path
    obtain ⟨file, h_mem, rfl⟩ := List.mem_map.1 h_path
    obtain ⟨dirs, name, -, -, -, h_directory⟩ :=
      exists_rooted_concat_of_isSource (h file h_mem).1 (h file h_mem).2
    rw [h_directory]
    exact Path.isAbsolute_rooted dirs
  obtain ⟨above, h_ancestor, h_above, h_greatest⟩ := Path.exists_commonAncestor h_absolute
  rw [← List.map_cons] at h_above h_greatest
  -- the ancestor is a beginning of the directory of each source; the rest of it leads down
  have h_beneath : ∀ file ∈ first :: others, ∃ dirs name, (∀ n ∈ above ++ dirs, Path.IsName n) ∧
      Path.IsName name ∧ file = Path.rooted (above ++ dirs ++ [name]) := by
    intro file h_mem
    obtain ⟨names, name, h_names, h_name, h_file, h_directory⟩ :=
      exists_rooted_concat_of_isSource (h file h_mem).1 (h file h_mem).2
    have h_prefix := h_above (Path.directory file) (List.mem_map_of_mem h_mem)
    rw [h_directory, Path.steps_rooted h_names] at h_prefix
    obtain ⟨dirs, rfl⟩ := h_prefix
    exact ⟨dirs, name, h_names, h_name, h_file⟩
  -- it lies above the first source, so it is made of names
  obtain ⟨dirs, -, h_dirs, -⟩ := h_beneath first (List.mem_cons_self ..)
  exact ⟨above, (List.forall_mem_append.1 h_dirs).1, h_ancestor, h_beneath,
    fun names h_names => h_greatest names (List.forall_mem_map.2 h_names)⟩

/-- **The sources among some files have a common root, and the declaration file of each lies below
it.** -/
theorem sourceRoot_cases {files : List String} (h : ∀ file ∈ files, Path.IsRooted file)
    (default : String) :
    ((∀ file ∈ files, isSource file = false) ∧ sourceRoot files default = .ok default) ∨
      ∃ above, (∀ n ∈ above, Path.IsName n) ∧ sourceRoot files default = .ok (Path.rooted above) ∧
        ∀ file ∈ files, isSource file = true → ∃ place, place ≠ [] ∧ (∀ n ∈ place, Path.IsName n) ∧
          ModuleId.isDeclarationFile ("/".intercalate place) = true ∧
          declarationName file = Path.join (Path.rooted above) ("/".intercalate place) := by
  unfold sourceRoot
  cases h_sources : files.filter isSource with
  | nil =>
    refine .inl ⟨fun file h_mem => ?_, rfl⟩
    simpa using List.filter_eq_nil_iff.1 h_sources file h_mem
  | cons first others =>
    -- the files whose directories are compared are the sources among all
    have h_mem_iff : ∀ file, file ∈ first :: others ↔ file ∈ files ∧ isSource file = true :=
      fun file => h_sources ▸ List.mem_filter
    obtain ⟨above, h_above, h_ancestor, h_beneath, -⟩ :=
      exists_commonAncestor_directory fun file h_mem =>
        ⟨h file ((h_mem_iff file).1 h_mem).1, ((h_mem_iff file).1 h_mem).2⟩
    refine .inr ⟨above, h_above, h_ancestor, fun file h_mem h_source => ?_⟩
    obtain ⟨dirs, name, h_dirs, h_name, rfl⟩ :=
      h_beneath file ((h_mem_iff file).2 ⟨h_mem, h_source⟩)
    unfold isSource at h_source
    exact exists_place h_dirs h_name (by simpa using (Bool.and_eq_true_iff.1 h_source).2)

end Layout

end DeclarationBundle
