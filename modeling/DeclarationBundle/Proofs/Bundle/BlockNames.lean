import DeclarationBundle.Proofs.Bundle.Refinement
import DeclarationBundle.Proofs.Bundle.Success

/-!
# The names of blocks

A module stands in a block under its id, and an id keeps of the path of a source all but its last
extension and the kind of its separators (`ModuleId.outline`). Two modules share a block name
exactly if the outlines of their sources are one: `Bundle.nodup_modules_iff`.

What is cut off in front is the same for all sources, since they lie strictly below the base
directory (`ModuleId.exists_ofFile_eq`). At the base directory itself nothing is left to cut, and
the name of its declaration file is cut in the middle.
-/

namespace DeclarationBundle

namespace Text

/-- What is dropped under a weaker condition ends what is dropped under a stronger one. -/
theorem exists_dropEndWhile_eq {p q : Char → Bool} (h : ∀ c, p c = true → q c = true) (s : String) :
    ∃ tail : String, (∀ c ∈ tail.toList, q c = true) ∧
      dropEndWhile p s = dropEndWhile q s ++ tail := by
  have h_chars : ∀ chars : List Char, ∃ front, (∀ c ∈ front, q c = true) ∧
      chars.dropWhile p = front ++ chars.dropWhile q := by
    intro chars
    induction chars with
    | nil => exact ⟨[], by simp, rfl⟩
    | cons c chars ih =>
      by_cases h_c : p c = true
      · rw [List.dropWhile_cons_of_pos h_c, List.dropWhile_cons_of_pos (h c h_c)]
        exact ih
      · -- from here on the weaker condition may go on, over a front of what is left
        rw [List.dropWhile_cons_of_neg h_c]
        exact ⟨_, fun d => List.mem_takeWhile_imp, List.takeWhile_append_dropWhile.symm⟩
  obtain ⟨front, h_front, h_eq⟩ := h_chars s.toList.reverse
  refine ⟨String.ofList front.reverse, by simpa using h_front, String.toList_inj.1 ?_⟩
  simp [h_eq]

end Text

namespace Path

/-- A path strictly below a directory stays there without its extension. -/
theorem exists_stem_eq_of_startsWith {file above : String}
    (h : Text.startsWith file (above ++ "/") = true) :
    ∃ more, stem file = above ++ "/" ++ more := by
  obtain ⟨below, rfl⟩ := Text.startsWith_iff.1 h
  rcases exists_last_segment below with h_last | ⟨parent, last, h_last, rfl⟩
  · obtain ⟨front, -, h_stem⟩ := exists_stem_eq h_last above
    exact ⟨front, h_stem⟩
  · -- the extension belongs to the last segment, which lies below the parent
    obtain ⟨front, -, h_stem⟩ := exists_stem_eq h_last (above ++ "/" ++ parent)
    refine ⟨parent ++ "/" ++ front, ?_⟩
    simpa only [String.append_assoc] using h_stem

end Path

namespace ModuleId

/-- **What an id keeps of the path of a source**: neither the last extension nor which of its
separators are backslashes. -/
def outline (source : String) : String :=
  withSlashes (Path.stem source)

/-- Separators are turned one by one. -/
theorem withSlashes_append (a b : String) :
    withSlashes (a ++ b) = withSlashes a ++ withSlashes b := by
  apply String.toList_inj.1
  simp [withSlashes]

/-- The separators at the end of a directory and the slash that follows them begin a path. -/
theorem startsWith_withSlashes {tail : String}
    (h : ∀ c ∈ tail.toList, (c == '/' || c == '\\') = true) (more : String) :
    Text.startsWith (withSlashes (tail ++ "/" ++ more)) "/" = true := by
  -- the first character is a separator, be it one of the directory or the slash itself
  cases h_tail : tail.toList with
  | nil => simp [Text.startsWith, withSlashes, h_tail]
  | cons c rest =>
    have h_c : (if c = '\\' then '/' else c) = '/' := by
      have h_mem := h c (h_tail ▸ List.mem_cons_self ..)
      grind
    simp [Text.startsWith, withSlashes, h_tail, h_c]

/-- **The id of a module is the name of the bundle, then what its outline has after that of the base
directory.** -/
theorem exists_ofFile_eq {file base : String} (h_kind : isDeclarationFile file = false)
    (h_below : Text.startsWith file (Text.dropEndWhile (· == '/') base ++ "/") = true) :
    ∃ rest, outline file
        = withSlashes (Text.dropEndWhile (fun c => c == '/' || c == '\\') base) ++ rest ∧
      ∀ name, ofFile (Layout.declarationName file) base name = name ++ rest := by
  obtain ⟨more, h_stem⟩ := Path.exists_stem_eq_of_startsWith h_below
  -- backslashes at the end of the base directory are cut off with the slashes
  obtain ⟨tail, h_tail, h_base⟩ := Text.exists_dropEndWhile_eq
    (p := (· == '/')) (q := fun c => c == '/' || c == '\\') (by simp +contextual) base
  generalize h_front : Text.dropEndWhile (fun c => c == '/' || c == '\\') base = front at h_base ⊢
  rw [h_base] at h_stem
  refine ⟨withSlashes (tail ++ "/" ++ more), ?_, fun name => ?_⟩
  · rw [← withSlashes_append, outline, h_stem]
    simp only [String.append_assoc]
  · have h_suffix := Layout.getD_lookup_mem_declarationSuffixes (Path.extension file)
    unfold Layout.declarationName
    rw [if_neg (by simp [h_kind]), h_stem]
    -- any of the suffixes is stripped again, whichever the compiler has put on
    generalize (Layout.declarationExtensions.lookup (Path.extension file)).getD ".d.ts" = suffix
      at h_suffix ⊢
    have h_beneath : beneath (front ++ tail ++ "/" ++ more ++ suffix) base
        = tail ++ "/" ++ more ++ suffix := by
      simp only [String.append_assoc]
      exact beneath_append h_front.symm _
    unfold ofFile
    rw [h_beneath, stripSuffix_append h_suffix]
    simp only [startsWith_withSlashes h_tail, if_true]

/-- **Two modules share a block name exactly if their sources have one outline.** -/
theorem ofFile_declarationName_inj {a b base : String} (ha : isDeclarationFile a = false)
    (hb : isDeclarationFile b = false)
    (ha_below : Text.startsWith a (Text.dropEndWhile (· == '/') base ++ "/") = true)
    (hb_below : Text.startsWith b (Text.dropEndWhile (· == '/') base ++ "/") = true)
    (name : String) :
    ofFile (Layout.declarationName a) base name = ofFile (Layout.declarationName b) base name ↔
      outline a = outline b := by
  obtain ⟨rest, h_outline, h_id⟩ := exists_ofFile_eq ha ha_below
  obtain ⟨rest', h_outline', h_id'⟩ := exists_ofFile_eq hb hb_below
  rw [h_id, h_id', h_outline, h_outline', String.append_right_inj, String.append_right_inj]

-- a source at the place of the base directory
example : outline "/src.ts" ≠ outline "/src.ts/ts.ts" ∧
    ofFile (Layout.declarationName "/src.ts") "/src.ts" "pkg"
      = ofFile (Layout.declarationName "/src.ts/ts.ts") "/src.ts" "pkg" := by
  decide +kernel

end ModuleId

namespace Bundle

variable {s : Surroundings} {config : Config} {compile : List String → Compilation}
  {program : Program} {summary : Summary}

/-! ### The modules of a run -/

/-- Whether a file is a source whose declaration is a module. -/
def isModuleSource (program : Program) (file : String) : Bool :=
  !ModuleId.isDeclarationFile file &&
    (program.emit file).declaration.any (·.isExternalModule)

/-- **The sources that stand in blocks**, in the order of the program. -/
def moduleSources (cwd : String) (config : Config) (program : Program) : List String :=
  ((bundled cwd config program).map (·.name)).filter (isModuleSource program)

/-- A run that ends well has a script without a failure, and its summary is that of the script. -/
theorem summary_eq_of_perform {output : Output} {script : Script}
    (h : (perform config output script).2 = .ok summary) :
    script.failure = none ∧ script.summary config = summary := by
  unfold perform at h
  split at h
  · cases h
  · cases h
  · next h_failure =>
    split at h
    · cases h
    · cases h
      exact ⟨h_failure, rfl⟩

/-- **A run that ends well has found every bundled file to contribute**, and lists what they do. -/
theorem exists_summary_eq (h_program : (compile (roots s.cwd config)).program = .ok program)
    (h_ok : (generate s config compile).outcome = .ok summary) :
    ∃ host pieces, pieces.map Prod.fst = bundled s.cwd config program ∧
      (∀ piece ∈ pieces, Contribution config program host piece.1 piece.2) ∧
      summary = (Script.ofSteps (plan config pieces)).summary config := by
  -- a run that ends well has opened its output
  cases h_open : openOutput s config.out with
  | error error =>
    unfold generate at h_ok
    simp only [h_program, h_open] at h_ok
    cases h_ok
  | ok opened =>
    rw [outcome_of_openOutput h_program h_open] at h_ok
    obtain ⟨h_failure, h_summary⟩ := summary_eq_of_perform h_ok
    obtain ⟨pieces, h_pieces⟩ :=
      exists_arePieces s.cwd config program (hostOf s opened.1)
    rcases Script.ofProgram_cases h_pieces with
      ⟨h_all, h_script⟩ | ⟨before, source, piece, after, failure, -, -, -, h_script⟩
    · exact ⟨_, pieces, h_pieces.files, h_all, by rw [← h_summary, h_script]⟩
    · -- the script would have stopped at the file that is at fault
      rw [h_script] at h_failure
      cases h_failure

/-- A file contributes a block exactly if it is a source whose declaration is a module, and then
under the id of its declaration file. -/
theorem Contribution.blockId?_eq {host : Script.Host} {source : SourceFile} {piece : Section}
    (h_named : ∀ file d, (program.emit file).declaration = some d →
      d.fileName = Layout.declarationName file)
    (h : Contribution config program host source piece) :
    piece.blockId? = if isModuleSource program source.name then
        some (ModuleId.ofFile (Layout.declarationName source.name) config.baseDir config.name)
      else none := by
  unfold isModuleSource
  cases h with
  | copied h_kind h_text => simp [h_kind, Section.blockId?]
  | script h_kind h_emits h_script =>
    simp [h_kind, h_emits.declaration, h_script, Section.blockId?]
  | block h_kind h_emits h_module =>
    simp [h_kind, h_emits.declaration, h_module, Section.blockId?,
      h_named _ _ h_emits.declaration]

/-- **The modules that a run lists** are the ids of the sources that stand in blocks. -/
theorem modules_eq (h_named : ∀ file d, (program.emit file).declaration = some d →
      d.fileName = Layout.declarationName file)
    (h_program : (compile (roots s.cwd config)).program = .ok program)
    (h_ok : (generate s config compile).outcome = .ok summary) :
    summary.modules = (moduleSources s.cwd config program).map fun file =>
      ModuleId.ofFile (Layout.declarationName file) config.baseDir config.name := by
  obtain ⟨host, pieces, h_files, h_pieces, rfl⟩ := exists_summary_eq h_program h_ok
  -- the summary of a plan lists the blocks among the sections
  rw [summary_plan h_pieces]
  unfold moduleSources
  rw [← h_files]
  clear h_files h_ok
  show (pieces.map Prod.snd).filterMap Section.blockId? = _
  -- one file after the other, with its contribution
  induction pieces with
  | nil => rfl
  | cons piece pieces ih =>
    obtain ⟨h_piece, h_pieces⟩ := List.forall_mem_cons.1 h_pieces
    rw [List.map_cons, List.filterMap_cons, h_piece.blockId?_eq h_named, ih h_pieces,
      List.map_cons, List.map_cons, List.filter_cons]
    cases isModuleSource program piece.1.name <;> rfl

/-- A bundled source lies strictly below the base directory, unless it is that directory: a normal
path is its own normal form, so the test of what is bundled compares the paths as they are. -/
theorem startsWith_of_mem_bundled {cwd : String} {source : SourceFile}
    (h_base : Path.normalise config.baseDir = config.baseDir)
    (h_normal : Path.normalise source.name = source.name) (h_ne : source.name ≠ config.baseDir)
    (h_mem : source ∈ bundled cwd config program) :
    Text.startsWith source.name (Text.dropEndWhile (· == '/') config.baseDir ++ "/") = true := by
  have h_under := (Bool.and_eq_true_iff.1 (List.mem_filter.1 h_mem).2).1
  unfold Path.isUnder at h_under
  simpa [h_base, h_normal, h_ne] using h_under

/-- **No two blocks of a bundle have one name exactly if no two sources of them have one outline.**
The base directory and the sources are in normal form and none of these is the base directory, and
the compiler names what it emits for a source as the declaration file of the source. -/
theorem nodup_modules_iff (h_base : Path.normalise config.baseDir = config.baseDir)
    (h_sources : ∀ source ∈ program.files, ModuleId.isDeclarationFile source.name = false →
      Path.normalise source.name = source.name ∧ source.name ≠ config.baseDir)
    (h_named : ∀ file d, (program.emit file).declaration = some d →
      d.fileName = Layout.declarationName file)
    (h_program : (compile (roots s.cwd config)).program = .ok program)
    (h_ok : (generate s config compile).outcome = .ok summary) :
    summary.modules.Nodup ↔
      ((moduleSources s.cwd config program).map ModuleId.outline).Nodup := by
  have h_below : ∀ file ∈ moduleSources s.cwd config program,
      ModuleId.isDeclarationFile file = false ∧
        Text.startsWith file (Text.dropEndWhile (· == '/') config.baseDir ++ "/") = true := by
    intro file h_file
    obtain ⟨h_mem, h_module⟩ := List.mem_filter.1 h_file
    obtain ⟨source, h_source, rfl⟩ := List.mem_map.1 h_mem
    have h_kind : ModuleId.isDeclarationFile source.name = false := by
      simpa using (Bool.and_eq_true_iff.1 h_module).1
    obtain ⟨h_normal, h_ne⟩ := h_sources source (List.mem_of_mem_filter h_source) h_kind
    exact ⟨h_kind, startsWith_of_mem_bundled h_base h_normal h_ne h_source⟩
  rw [modules_eq h_named h_program h_ok]
  unfold List.Nodup
  rw [List.pairwise_map, List.pairwise_map]
  -- pair by pair, the names differ as the outlines do
  refine List.Pairwise.iff_of_mem fun {a b} ha hb => ?_
  rw [Ne, Ne, ModuleId.ofFile_declarationName_inj (h_below a ha).1 (h_below b hb).1 (h_below a ha).2
    (h_below b hb).2]

/-- The run of the small configuration on a program in memory, which the runnable parser reads. -/
def generateInMemory (files : List String) : Report :=
  generate (smallSurroundings .faultless) smallConfig
    fun _ => ⟨.ok (.inMemory Syntax.parse files smallTexts), [], none⟩

/-- Two sources with different outlines, one of them in a directory below the other. -/
theorem nodup_modules_iff_small :
    ∃ summary, (generateInMemory ["/work/src/a.ts", "/work/src/sub/b.mts"]).outcome = .ok summary ∧
      summary.modules.Nodup := by
  have h_ok : (generateInMemory ["/work/src/a.ts", "/work/src/sub/b.mts"]).outcome = .ok
      { out := "bundle.d.ts", name := "pkg", externs := ["node.d.ts"],
        modules := ["pkg/a", "pkg/sub/b"], passthrough := [], ambient := [],
        mainAlias := some "pkg/a" } := by
    decide +kernel
  have h_outlines : ((moduleSources "/work" smallConfig
      (.inMemory Syntax.parse ["/work/src/a.ts", "/work/src/sub/b.mts"] smallTexts)).map
        ModuleId.outline).Nodup := by
    decide +kernel
  refine ⟨_, h_ok, (nodup_modules_iff (by decide) (by decide +kernel) ?_ rfl h_ok).2 h_outlines⟩
  -- a declaration that was parsed has the name that it was parsed under
  rintro file d ⟨⟩
  rfl

/-- **Distinct sources with distinct declaration files can share a block name.** -/
theorem not_forall_nodup_modules :
    ¬ ∀ (s : Surroundings) (config : Config) (compile : List String → Compilation)
      (program : Program) (summary : Summary), Path.normalise config.baseDir = config.baseDir →
      (∀ source ∈ program.files, ModuleId.isDeclarationFile source.name = false →
        Path.normalise source.name = source.name) →
      (program.files.map (·.name)).Nodup →
      (program.files.map fun source => Layout.declarationName source.name).Nodup →
      (∀ file d, (program.emit file).declaration = some d →
        d.fileName = Layout.declarationName file) →
      (compile (roots s.cwd config)).program = .ok program →
      (generate s config compile).outcome = .ok summary → summary.modules.Nodup := by
  intro h
  -- the declaration files are `a.d.ts` and `a.d.mts`, and both suffixes are stripped
  have h_ok : (generateInMemory ["/work/src/a.ts", "/work/src/a.mts"]).outcome = .ok
      { out := "bundle.d.ts", name := "pkg", externs := ["node.d.ts"],
        modules := ["pkg/a", "pkg/a"], passthrough := [], ambient := [],
        mainAlias := some "pkg/a" } := by
    decide +kernel
  refine absurd (h _ _ _ (.inMemory Syntax.parse ["/work/src/a.ts", "/work/src/a.mts"] smallTexts)
    _ (by decide) (by decide +kernel) (by decide) (by decide +kernel) ?_ rfl h_ok) (by decide)
  rintro file d ⟨⟩
  rfl

end Bundle

end DeclarationBundle
