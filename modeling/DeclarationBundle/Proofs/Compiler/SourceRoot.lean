import DeclarationBundle.Compiler.Program
import DeclarationBundle.Proofs.Compiler.Layout

/-!
# The root of the sources, and what is found from it

A compiler lays declarations out from the deepest directory above all the sources, whichever these
are. `Layout.exists_deepest_sourceRoot` says that this directory is found, and that the declaration
file of each source is looked for at the way down from there: what lies at the place is the text of
that declaration file and of no other.

* `Layout.isDeepestAbove_of_sourceRoot_eq`: no deeper directory would do.
* `Layout.IsLocated` is what is known of the place of a source's declaration file.
-/

namespace DeclarationBundle

namespace Layout

/-- **The deepest directory above some files**: each file lies below it, and it is any other
directory that they lie below or is below that in turn. -/
structure IsDeepestAbove (root : String) (files : List String) : Prop where
  isRooted : Path.IsRooted root
  isBelow : ∀ file ∈ files, Path.IsBelow file root
  deepest : ∀ directory, Path.IsRooted directory → (∀ file ∈ files, Path.IsBelow file directory) →
    directory = root ∨ Path.IsBelow root directory

/-- **Declarations are laid out from `root`**: at each place is the text that was written for the
declaration file there, if any was. -/
def AreLaidOut (root : String) (texts : String → Option String)
    (declared : List (String × String)) : Prop :=
  ∀ place, place ≠ [] → (∀ n ∈ place, Path.IsName n) →
    declared.lookup ("/".intercalate place) = texts (Path.join root ("/".intercalate place))

/-- **The declaration file of a source has its place below the root.** -/
structure IsLocated (cwd root file : String) : Prop where
  /-- The place leads down all the way: it has no `..` segment, and no `.` or empty one either. -/
  isName : ∀ s ∈ Path.segments (key cwd root (declarationName file)), Path.IsName s
  join_key : Path.join root (key cwd root (declarationName file)) = declarationName file
  /-- What is emitted for the source is the text of its own declaration file. -/
  declaration_eq : ∀ texts declared, AreLaidOut root texts declared → ∀ parse diagnostics,
    (Program.emissionOf parse cwd root diagnostics declared file).declaration
      = (texts (declarationName file)).map (.parsed parse (declarationName file))

variable {files : List String} {default root file : String}

/-- The directory of a file that lies below another lies at or below that one too. -/
theorem isPrefix_steps_directory_of_isBelow {names : List String}
    (h_names : ∀ n ∈ names, Path.IsName n) (h : Path.IsBelow file (Path.rooted names)) :
    names <+: Path.steps (Path.directory file) := by
  obtain ⟨below, h_ne, h_below, rfl⟩ := (Path.isBelow_rooted_iff h_names).1 h
  -- of the names that lead to the file, the last is not in its directory
  obtain ⟨dirs, last, rfl⟩ := (List.eq_nil_or_concat' below).resolve_left h_ne
  obtain ⟨h_dirs, h_last⟩ := List.forall_mem_append.1 h_below
  have h_above : ∀ n ∈ names ++ dirs, Path.IsName n := List.forall_mem_append.2 ⟨h_names, h_dirs⟩
  rw [← List.append_assoc, Path.directory_rooted h_above (h_last last (by simp)).2.2.2,
    Path.steps_rooted h_above]
  exact List.prefix_append ..

/-- **The root of the sources is the deepest directory above them.** -/
theorem isDeepestAbove_of_sourceRoot_eq (h : ∀ file ∈ files, Path.IsRooted file)
    (h_some : files.filter isSource ≠ []) (h_root : sourceRoot files default = .ok root) :
    IsDeepestAbove root (files.filter isSource) := by
  obtain ⟨first, others, h_sources⟩ := List.exists_cons_of_ne_nil h_some
  -- the files whose directories were compared are the sources
  have h_each : ∀ file ∈ first :: others, Path.IsRooted file ∧ isSource file = true := by
    rw [← h_sources]
    intro file h_mem
    obtain ⟨h_file, h_source⟩ := List.mem_filter.1 h_mem
    exact ⟨h file h_file, h_source⟩
  obtain ⟨above, h_above, h_ancestor, h_beneath, h_greatest⟩ :=
    exists_commonAncestor_directory h_each
  obtain rfl : Path.rooted above = root := by
    unfold sourceRoot at h_root
    rw [h_sources, List.map_cons] at h_root
    exact Except.ok.inj (h_ancestor.symm.trans h_root)
  rw [h_sources]
  refine ⟨Path.isRooted_rooted h_above, fun file h_mem => ?_,
    fun directory h_directory h_files => ?_⟩
  · -- a source lies below the root, by the directories in between and its name
    obtain ⟨dirs, name, h_dirs, h_name, rfl⟩ := h_beneath file h_mem
    refine (Path.isBelow_rooted_iff h_above).2 ⟨dirs ++ [name], by simp, ?_, ?_⟩
    · exact List.forall_mem_append.2
        ⟨(List.forall_mem_append.1 h_dirs).2, List.forall_mem_singleton.2 h_name⟩
    · rw [List.append_assoc]
  · -- what all the files lie below is a beginning of the root
    obtain ⟨names, h_names, rfl⟩ := h_directory.exists_eq_rooted
    obtain ⟨more, rfl⟩ := h_greatest names fun file h_mem =>
      isPrefix_steps_directory_of_isBelow h_names (h_files file h_mem)
    by_cases h_more : more = []
    · exact .inl (by rw [h_more, List.append_nil])
    · refine .inr ((Path.isBelow_rooted_iff h_names).2 ⟨more, h_more, ?_, rfl⟩)
      exact (List.forall_mem_append.1 h_above).2

/-- What lies below the root is looked for at the way down from there, and nothing else is. -/
theorem isLocated {above place : List String} (h_above : ∀ n ∈ above, Path.IsName n)
    (h_place : ∀ n ∈ place, Path.IsName n) (h_ne : place ≠ [])
    (h : declarationName file = Path.join (Path.rooted above) ("/".intercalate place))
    (cwd : String) : IsLocated cwd (Path.rooted above) file := by
  have h_key : key cwd (Path.rooted above) (declarationName file) = "/".intercalate place := by
    rw [h, key_of_join h_above h_place h_ne]
  refine ⟨?_, by rw [h_key, h], fun texts declared h_laid parse diagnostics => ?_⟩
  · rw [h_key, Path.segments_intercalate (fun n hn => (h_place n hn).2.2.2) h_ne]
    exact h_place
  · -- what was written at the place is the text of the file that has this place
    have h_lookup := h_laid place h_ne h_place
    rw [← h, ← h_key] at h_lookup
    unfold Program.emissionOf
    simp only [h_lookup]
    cases texts (declarationName file) <;> rfl

/-- **Emitted declarations are found.** Among files given by absolute paths in normal form, the
sources have a deepest directory above them, which is what declarations are laid out from, or
`default` is where there are no sources. The declaration file of each source is looked for at its
place below, and no two declaration files at one place. -/
theorem exists_deepest_sourceRoot (h : ∀ file ∈ files, Path.IsRooted file) (default cwd : String) :
    ∃ root, sourceRoot files default = .ok root ∧
      (files.filter isSource = [] → root = default) ∧
      (files.filter isSource ≠ [] → IsDeepestAbove root (files.filter isSource)) ∧
      (∀ file ∈ files.filter isSource, IsLocated cwd root file) ∧
      ∀ a ∈ files.filter isSource, ∀ b ∈ files.filter isSource,
        key cwd root (declarationName a) = key cwd root (declarationName b) ↔
          declarationName a = declarationName b := by
  rcases sourceRoot_cases h default with ⟨h_none, h_root⟩ | ⟨above, h_above, h_root, h_places⟩
  · have h_nil : files.filter isSource = [] :=
      List.filter_eq_nil_iff.2 fun file h_mem => by simp [h_none file h_mem]
    exact ⟨default, h_root, fun _ => rfl, fun h_some => absurd h_nil h_some, by simp [h_nil],
      by simp [h_nil]⟩
  · have h_located : ∀ file ∈ files.filter isSource, IsLocated cwd (Path.rooted above) file := by
      intro file h_mem
      obtain ⟨h_file, h_source⟩ := List.mem_filter.1 h_mem
      obtain ⟨place, h_ne, h_place, -, h_join⟩ := h_places file h_file h_source
      exact isLocated h_above h_place h_ne h_join cwd
    refine ⟨Path.rooted above, h_root, fun h_nil => ?_, fun h_some =>
      isDeepestAbove_of_sourceRoot_eq h h_some h_root, h_located, fun a ha b hb => ⟨fun h_key => ?_,
        congrArg _⟩⟩
    · unfold sourceRoot at h_root
      rw [h_nil] at h_root
      exact (Except.ok.inj h_root).symm
    · -- a place leads to one file only, namely from the root
      rw [← (h_located a ha).join_key, h_key, (h_located b hb).join_key]

/-- Whatever has places below a directory is laid out from there. -/
theorem areLaidOut_lookup_key {above : List String} (h_above : ∀ n ∈ above, Path.IsName n)
    (declared : List (String × String)) (cwd : String) :
    AreLaidOut (Path.rooted above) (fun path => declared.lookup (key cwd (Path.rooted above) path))
      declared := by
  intro place h_ne h_place
  simp only [key_of_join h_above h_place h_ne]

/-- Two directories of which one name begins as the other does, and files that count for nothing. -/
theorem exists_deepest_sourceRoot_siblings :
    let files := ["/lib/lib.d.ts", "/work/src/a.ts", "/work/src/sub/b.mts", "/work/src-gen/c.tsx",
      "/data.json"]
    let declared := [("src/a.d.ts", "A"), ("src/sub/b.d.mts", "B"), ("src-gen/c.d.ts", "C")]
    sourceRoot files "/none" = .ok "/work" ∧ IsDeepestAbove "/work" (files.filter isSource) ∧
      ∀ parse,
        (Program.emissionOf parse "/tmp" "/work" [] declared "/work/src/sub/b.mts").declaration
        = some (.parsed parse "/work/src/sub/b.d.mts" "B") := by
  intro files declared
  have h_files : ∀ file ∈ files, Path.IsRooted file := by
    unfold Path.IsRooted
    decide +kernel
  obtain ⟨root, h_root, -, h_deepest, h_located, -⟩ :=
    exists_deepest_sourceRoot h_files "/none" "/tmp"
  obtain rfl : Path.rooted ["work"] = root := by
    have h_work : sourceRoot files "/none" = .ok (Path.rooted ["work"]) := by decide +kernel
    exact Except.ok.inj (h_work.symm.trans h_root)
  refine ⟨h_root, h_deepest (by decide +kernel), fun parse => ?_⟩
  have h_b := (h_located "/work/src/sub/b.mts" (by decide +kernel)).declaration_eq _ declared
    (areLaidOut_lookup_key (by decide) declared "/tmp") parse []
  have h_name : declarationName "/work/src/sub/b.mts" = "/work/src/sub/b.d.mts" := by
    decide +kernel
  have h_text : declared.lookup (key "/tmp" "/work" "/work/src/sub/b.d.mts") = some "B" := by
    decide +kernel
  rw [h_name] at h_b
  exact h_b.trans (congrArg _ h_text)

/-- Sources without a directory in common but the root. -/
example : sourceRoot ["/a.ts", "/b/c.cts", "/b/d.js"] "/none" = .ok "/" := by
  decide +kernel

end Layout

end DeclarationBundle
