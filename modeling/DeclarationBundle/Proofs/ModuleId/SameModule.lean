import DeclarationBundle.Proofs.Bundle.BlockNames

/-!
# Two ways to one module

A bundle comes to the id of a module in more than one way, and they must agree.

* The id of a source is that of the declaration file made for it. The file is named by exchanging
  the last extension of the source, and the id leaves out a declaration suffix, or the last
  extension where there is none. Both depend on the last segment of a path only, so they can be
  compared beneath the base directory (`declarationName_append`, `stripSuffix_declarationName`).
* The module that the bundle's own name stands for is the one that the same reference leads to from
  the top of the bundle. It is read from the name in the first case and from the directory of an id
  in the second, and these differ by slashes at the end at most (`root_append_slash`).
-/

namespace DeclarationBundle

namespace Path

/-! ### Extensions -/

/-- The name of a file is the end of its path. -/
theorem fileName_isSuffix (path : String) : (fileName path).toList <:+ path.toList := by
  unfold fileName
  rw [String.toList_ofList, ← List.reverse_prefix, List.reverse_reverse]
  exact List.takeWhile_prefix _

/-- **A path is its stem and its extension.** -/
theorem stem_append_extension (path : String) : stem path ++ extension path = path := by
  -- the extension ends the name of the file, which ends the path
  obtain ⟨front, h_front⟩ :=
    (extensionOf_isSuffix (fileName path).toList).trans (fileName_isSuffix path)
  have h_path : path = String.ofList front ++ extension path :=
    String.toList_inj.1 (by simp [extension, h_front])
  have h_stem : stem path = String.ofList front := by
    unfold stem
    generalize extension path = ending at h_path ⊢
    rw [h_path, Text.dropEnd_append]
  rw [h_stem, ← h_path]

/-- A path with a slash in it has a last segment behind one. -/
theorem exists_eq_append_slash {path : String} (h : '/' ∈ path.toList) :
    ∃ parent last, '/' ∉ last.toList ∧ path = parent ++ "/" ++ last :=
  (exists_last_segment path).resolve_left (not_not_intro h)

/-- The extension of a path is that of its last segment, so what stands before a slash has no part
in it. -/
theorem extension_append {path : String} (h : '/' ∈ path.toList) (front : String) :
    extension (front ++ path) = extension path := by
  obtain ⟨parent, last, h_last, rfl⟩ := exists_eq_append_slash h
  have h_front : front ++ (parent ++ "/" ++ last) = front ++ parent ++ "/" ++ last := by
    simp only [String.append_assoc]
  unfold extension
  rw [h_front, ModuleId.fileName_append h_last, ModuleId.fileName_append h_last]

/-- What stands before a path with a slash in it is left alone. -/
theorem stem_append {path : String} (h : '/' ∈ path.toList) (front : String) :
    stem (front ++ path) = front ++ stem path := by
  rw [← String.append_left_inj (extension path)]
  -- written with their extensions, both sides are the whole path
  calc stem (front ++ path) ++ extension path
      = stem (front ++ path) ++ extension (front ++ path) := by rw [extension_append h]
    _ = front ++ path := stem_append_extension _
    _ = front ++ (stem path ++ extension path) := by rw [stem_append_extension]
    _ = front ++ stem path ++ extension path := String.append_assoc.symm

end Path

namespace ModuleId

open Layout (declarationName)

/-! ### The declaration file of a file -/

/-- Whether a file is one of declarations can be seen at its last segment. -/
theorem isDeclarationFile_append {path : String} (h : '/' ∈ path.toList) (front : String) :
    isDeclarationFile (front ++ path) = isDeclarationFile path := by
  rw [Bool.eq_iff_iff]
  constructor
  · intro h_declares
    obtain ⟨stem, suffix, h_suffix, h_split⟩ := exists_suffix h_declares
    obtain ⟨parent, last, -, rfl⟩ := Path.exists_eq_append_slash h
    rw [← String.append_assoc, ← String.append_assoc] at h_split
    -- the suffix has no slash, so it belongs to the last segment
    obtain ⟨name, rfl, -⟩ :=
      split_last_segment (notMem_of_mem_declarationSuffixes h_suffix) h_split
    rw [← String.append_assoc]
    exact isDeclarationFile_append_suffix h_suffix _
  · intro h_declares
    obtain ⟨stem, suffix, h_suffix, rfl⟩ := exists_suffix h_declares
    rw [← String.append_assoc]
    exact isDeclarationFile_append_suffix h_suffix _

/-- A file that is none of declarations is given a suffix in place of its extension. -/
theorem exists_declarationName_eq_stem_append {path : String}
    (h : isDeclarationFile path = false) :
    ∃ suffix ∈ declarationSuffixes, declarationName path = Path.stem path ++ suffix := by
  refine ⟨_, Layout.getD_lookup_mem_declarationSuffixes (Path.extension path), ?_⟩
  unfold declarationName
  rw [if_neg (by simp [h])]

/-- A declaration file is its own. -/
theorem declarationName_of_isDeclarationFile {path : String} (h : isDeclarationFile path = true) :
    declarationName path = path :=
  if_pos h

/-- What a declaration file is named is a declaration file. -/
theorem isDeclarationFile_declarationName (path : String) :
    isDeclarationFile (declarationName path) = true := by
  cases h : isDeclarationFile path with
  | true => rwa [declarationName_of_isDeclarationFile h]
  | false =>
    obtain ⟨suffix, h_suffix, h_name⟩ := exists_declarationName_eq_stem_append h
    rw [h_name]
    exact isDeclarationFile_append_suffix h_suffix _

/-- **Both ways to tell the ending of a name leave the same of it**: the declaration file has a
suffix, which is cut off, and any other file an extension, which the suffix has taken the place
of. -/
theorem stripSuffix_declarationName (path : String) :
    stripSuffix (declarationName path) = stripSuffix path := by
  cases h : isDeclarationFile path with
  | true => rw [declarationName_of_isDeclarationFile h]
  | false =>
    obtain ⟨suffix, h_suffix, h_name⟩ := exists_declarationName_eq_stem_append h
    -- no suffix is found, so what is cut off is the extension
    have h_none : declarationSuffixes.find? (Text.endsWith path) = none := by
      rw [List.find?_eq_none]
      exact List.any_eq_false.1 h
    rw [h_name, stripSuffix_append h_suffix, stripSuffix, h_none]

/-- **The declaration file of a file stands beside it**, whatever path leads there. -/
theorem declarationName_append {path : String} (h : '/' ∈ path.toList) (front : String) :
    declarationName (front ++ path) = front ++ declarationName path := by
  unfold declarationName
  rw [isDeclarationFile_append h, Path.stem_append h, Path.extension_append h, String.append_assoc]
  split <;> rfl

/-! ### A source and its declaration file -/

/-- What lies strictly below a directory has a slash where the directory ends without the separators
at its end. -/
theorem exists_eq_append_of_isUnder {file base : String} (h_base : Path.normalise base = base)
    (h_file : Path.normalise file = file) (h_under : Path.isUnder file base = true)
    (h_ne : file ≠ base) :
    ∃ path, '/' ∈ path.toList ∧
      file = Text.dropEndWhile (fun c => c == '/' || c == '\\') base ++ path := by
  have h_starts : Text.startsWith file (Text.dropEndWhile (· == '/') base ++ "/") = true := by
    unfold Path.isUnder at h_under
    simpa [h_base, h_file, h_ne] using h_under
  obtain ⟨below, h_below⟩ := Text.startsWith_iff.1 h_starts
  -- the id is cut off behind the slashes and the backslashes, which leaves no more of the base
  obtain ⟨tail, -, h_tail⟩ := Text.exists_dropEndWhile_eq
    (p := (· == '/')) (q := fun c => c == '/' || c == '\\') (by simp +contextual) base
  refine ⟨tail ++ "/" ++ below, by simp, ?_⟩
  rw [h_below, h_tail]
  simp only [String.append_assoc]

/-- **A source and its declaration file are one module.** The declaration file of a file strictly
below the base directory is its own declaration file, and has the id of the file. The name may have
any extension or none, and dots elsewhere: the extension that is taken off begins at the last dot of
the last segment, unless that segment begins with it. -/
theorem ofFile_declarationName {file base : String} (h_base : Path.normalise base = base)
    (h_file : Path.normalise file = file) (h_under : Path.isUnder file base = true)
    (h_ne : file ≠ base) (name : String) :
    isDeclarationFile (declarationName file) = true ∧
      declarationName (declarationName file) = declarationName file ∧
      ofFile (declarationName file) base name = ofFile file base name := by
  have h_declares := isDeclarationFile_declarationName file
  refine ⟨h_declares, declarationName_of_isDeclarationFile h_declares, ?_⟩
  obtain ⟨path, h_slash, rfl⟩ := exists_eq_append_of_isUnder h_base h_file h_under h_ne
  unfold ofFile
  rw [declarationName_append h_slash, beneath_append rfl, beneath_append rfl,
    stripSuffix_declarationName]

/-- A hidden file, below a directory whose name ends in a backslash. -/
theorem ofFile_declarationName_hidden :
    let file := "/src\\/.rc.test.tsx"
    Path.isUnder file "/src\\" = true ∧ declarationName file = "/src\\/.rc.test.d.ts" ∧
      ofFile (declarationName file) "/src\\" "pkg" = ofFile file "/src\\" "pkg" := by
  intro file
  have h_under : Path.isUnder file "/src\\" = true := by decide
  exact ⟨h_under, by decide, (ofFile_declarationName (by decide) (by decide) h_under (by decide)
    "pkg").2.2⟩

/-! ### The main module -/

/-- A reference stays relative with slashes for separators. -/
theorem isAbsolute_withSlashes {reference : String} (h : isRelative reference = true) :
    Path.isAbsolute (withSlashes reference) = false := by
  obtain ⟨rest, rfl⟩ := Text.startsWith_iff.1 h
  rw [withSlashes_append]
  exact isAbsolute_of_isRelative (Text.startsWith_iff.2 ⟨withSlashes rest, rfl⟩)

/-- Slashes after a path with something else in it are not at its beginning. -/
theorem root_append_slash {path : String} (h : ∃ c ∈ path.toList, c ≠ '/') :
    Path.root (path ++ "/") = Path.root path := by
  obtain ⟨n, h_split⟩ := Path.exists_eq_append_slashes path
  have h_ne : Text.dropEndWhile (· == '/') path ≠ "" := by
    intro h_empty
    obtain ⟨c, hc, h_c⟩ := h
    rw [h_split, h_empty, String.empty_append, Path.slashes, String.toList_ofList] at hc
    exact h_c (List.mem_replicate.1 hc).2
  have h_ends := Path.endsInName_dropEndWhile h_ne
  rw [h_split, String.append_assoc, h_ends.root_append, h_ends.root_append]

/-- **The main module of a bundle is what its reference leads to from the top of the bundle**, from
whatever module there. The name of the bundle need not be in normal form, and the reference may
climb out of it: two paths are compared by where they start and where they lead, which joining and
tidying leave alone. -/
theorem ofMain_eq_join {name main x : String} (h_name : ∃ c ∈ name.toList, c ≠ '/')
    (h_main : isRelative main = true) (h_x : '/' ∉ x.toList) :
    ofMain name main = join (name ++ "/" ++ x) main := by
  have h_relative := isAbsolute_withSlashes h_main
  have h_top := root_append_slash h_name
  have h_root : Path.root (Path.directory (name ++ "/" ++ x)) = Path.root name :=
    (Path.root_directory h_x).trans h_top
  have h_trail : Path.trail (Path.directory (name ++ "/" ++ x)) = Path.trail name :=
    (Path.trail_directory h_x).trans
      (Path.trail_append_slash (Path.isAbsolute_eq_of_root_eq h_top))
  unfold ofMain join
  -- both are normal forms, so the roots and the trails are compared
  rw [if_pos h_main, Path.normalise_eq_iff]
  constructor
  · rw [Path.root_join h_relative, Path.root_join h_relative, h_root]
  · rw [Path.trail_join h_relative, Path.trail_join h_relative, h_trail,
      Path.isAbsolute_eq_of_root_eq h_root]

/-- A main module outside the bundle. -/
theorem ofMain_eq_join_climbing :
    ofMain "//pkg//./sub/" "..\\../x/./main" = "//x/main" ∧
      join ("//pkg//./sub/" ++ "/" ++ "index") "..\\../x/./main" = "//x/main" := by
  have h_main : ofMain "//pkg//./sub/" "..\\../x/./main" = "//x/main" := by decide
  have h_join := @ofMain_eq_join "//pkg//./sub/" "..\\../x/./main" "index"
    ⟨'p', by decide, by decide⟩ (by decide) (by decide)
  exact ⟨h_main, h_join.symm.trans h_main⟩

-- of slashes alone, one more may make another root
example : ofMain "//" "./a" = "//a" ∧ join "///x" "./a" = "/a" := by
  decide

end ModuleId

end DeclarationBundle
