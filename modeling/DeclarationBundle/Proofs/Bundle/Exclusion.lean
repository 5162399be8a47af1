import DeclarationBundle.Proofs.Bundle.Agreement
import DeclarationBundle.Proofs.Path.Ascent

/-!
# Files that are left out

A path that is given twice, as an input and as a file to leave out, is resolved twice: as an input
it is kept as it is read from the working directory, if it leads into the base directory from there,
and otherwise it is read from the base directory, as it always is among the files to leave out.

* `Selection.root_mem_excluded_iff` says when the two readings agree (`Selection.Agree`): the path
  is absolute, or it does not lead into the base directory from the working directory, or it climbs
  far enough for it to make no difference which of the two it is read from. A file whose readings
  disagree is bundled (`Selection.isBundled_root_iff`).
* `Bundle.LeavesOut` is what it means for a run that a file is left out. It is a run without the
  file, since a script is that of the bundled files (`Script.ofProgram_filter`), and neither emits
  nor announces it, since it does so for bundled files alone (`Bundle.exists_bundled`).
-/

namespace DeclarationBundle

namespace Selection

/-- **The readings of a path agree**: it means the same as an input and among the files to leave
out. -/
def Agree (cwd base path : String) : Prop :=
  Path.isAbsolute path = true ∨ Path.isUnder (Path.absolute cwd path) base = false ∨
    Path.ancestor (Path.climb 0 (Path.segments path)) cwd
      = Path.ancestor (Path.climb 0 (Path.segments path)) (Path.join cwd base)

/-- A path is found again among the files to leave out exactly if its readings agree. The last case
of agreement is an equation of places: two directories that a relative path climbs out of lead to
one place if what is left of them is the same. -/
theorem root_mem_excluded_iff {cwd base path : String} :
    root cwd base path ∈ excluded cwd base [path] ↔ Agree cwd base path := by
  have h_mem : root cwd base path ∈ excluded cwd base [path] ↔
      root cwd base path = Path.absolute cwd (Path.join base path) := List.mem_singleton
  rw [h_mem]
  unfold root Agree
  cases h_absolute : Path.isAbsolute path with
  | true =>
    have h_join : Path.join base path = path := if_pos h_absolute
    simp [h_join]
  | false =>
    cases h_under : Path.isUnder (Path.absolute cwd path) base with
    | false => simp [h_under]
    | true =>
      -- the input is kept as it is read from the working directory
      simp only [h_under, if_true, Bool.false_eq_true, Bool.true_eq_false, false_or]
      unfold Path.absolute
      rw [Path.join_assoc]
      exact Path.normalise_join_eq_iff h_absolute

/-- An input is in normal form from whichever directory it was read. -/
theorem normalise_root (cwd base path : String) :
    Path.normalise (root cwd base path) = root cwd base path := by
  unfold root
  dsimp only
  -- both readings are made absolute, and that is normal
  split <;> exact Path.normalise_normalise _

/-- A file whose readings disagree is bundled, though it is to be left out: it lies under the base
directory, and what is left out is another path. -/
theorem isBundled_root_iff {cwd base path : String} :
    isBundled base (excluded cwd base [path]) (root cwd base path) = true ↔
      ¬ Agree cwd base path := by
  unfold isBundled
  rw [normalise_root, Bool.and_eq_true, Bool.not_eq_true', ← Bool.not_eq_true,
    List.contains_iff_mem, root_mem_excluded_iff]
  -- readings that disagree are those of a path that leads into the base directory
  refine and_iff_right_of_imp fun h_disagree => ?_
  cases h_under : Path.isUnder (Path.absolute cwd path) base with
  | false => exact absurd (.inr (.inl h_under)) h_disagree
  | true =>
    unfold root
    simp only [h_under, if_true]

end Selection

/-- **A step that can be seen** to have been carried out. -/
def Step.IsSeen (messages : List Message) (emitted : List String) : Step → Prop
  | .announce text => ∃ m ∈ messages, m.text = text
  | .emit file => file ∈ emitted
  | .write _ => False

namespace Progress

variable {p : Progress} {style : Style} {seen : Step}

/-- A step makes nothing seen but itself. -/
theorem isSeen_step {step : Step}
    (h : seen.IsSeen (p.step style step).1.messages (p.step style step).1.emitted) :
    seen.IsSeen p.messages p.emitted ∨ seen = step := by
  cases step with
  | write s => exact .inl h
  | announce message =>
    cases seen with
    | write s => exact .inl h
    | emit file => exact .inl h
    | announce text =>
      obtain ⟨m, h_mem, rfl⟩ := h
      rcases List.mem_append.1 h_mem with h_mem | h_mem
      · exact .inl ⟨m, h_mem, rfl⟩
      · exact .inr (by rw [List.mem_singleton.1 h_mem])
  | emit file =>
    cases seen with
    | write s => exact .inl h
    | announce text => exact .inl h
    | emit other =>
      rcases List.mem_append.1 h with h | h
      · exact .inl h
      · exact .inr (by rw [List.mem_singleton.1 h])

/-- What is seen of some steps was among them. -/
theorem isSeen_carryOut {steps : List Step}
    (h : seen.IsSeen (p.carryOut style steps).1.messages (p.carryOut style steps).1.emitted) :
    seen.IsSeen p.messages p.emitted ∨ seen ∈ steps := by
  induction steps generalizing p with
  | nil => exact .inl h
  | cons step steps ih =>
    -- seen of the first step, or of those behind it if the first did not fail
    have h_later : seen.IsSeen (p.step style step).1.messages (p.step style step).1.emitted ∨
        seen ∈ steps := by
      unfold carryOut at h
      rcases h_step : p.step style step with ⟨q, _ | error⟩ <;> rw [h_step] at h
      · exact ih h
      · exact .inl h
    rcases h_later with h | h
    · exact (isSeen_step h).imp id fun h => List.mem_cons.2 (.inl h)
    · exact .inr (List.mem_cons_of_mem _ h)

end Progress

namespace Script

variable {config : Config} {program : Program} {host : Host}

/-- **A script is that of the files that are bundled.** Others may be missing from the program. -/
theorem ofProgram_filter {excluded : List String} {keep : SourceFile → Bool}
    (h : ∀ source ∈ program.files,
      Selection.isBundled config.baseDir excluded source.name = true → keep source = true) :
    ofProgram config excluded { program with files := program.files.filter keep } host
      = ofProgram config excluded program host := by
  have h_same : ofBundled config { program with files := program.files.filter keep } host
      = ofBundled config program host := rfl
  have h_files : (program.files.filter keep).filter
      (fun source => Selection.isBundled config.baseDir excluded source.name)
        = program.files.filter
          fun source => Selection.isBundled config.baseDir excluded source.name := by
    -- the filter takes no file away that is bundled
    rw [List.filter_filter]
    refine List.filter_congr fun source h_mem => ?_
    cases h_bundled : Selection.isBundled config.baseDir excluded source.name with
    | false => rfl
    | true => rw [h source h_mem h_bundled, Bool.and_self]
  unfold ofProgram
  rw [sequence_ofFile, sequence_ofFile, h_same, h_files]

/-- A step that has to do with one file: it is announced, or emitted. -/
def IsAbout (file : String) (step : Step) : Prop :=
  step = .announce (processing file) ∨ step = .emit file

variable {file : String} {step : Step}

/-- The message about a file ends in its name. -/
theorem eq_of_processing_eq {other : String} (h : processing file = processing other) :
    file = other :=
  (String.append_right_inj _).1 h

/-- No other message begins like the one about a file. The first letters differ, which is all that
need be looked at. -/
theorem processing_ne {start text : String} (h : start.toList.head?.any (· != 'P') = true) :
    processing file ≠ start ++ text := by
  intro h_eq
  have h_eq : "Processing " ++ file = start ++ text := h_eq
  have h_first := congrArg (fun text : String => text.toList.head?) h_eq
  cases h_start : start.toList with
  | nil => simp [h_start] at h
  | cons c rest =>
    simp [h_start] at h h_first
    exact h h_first.symm

/-- What is done about a file before it contributes is about that file. -/
theorem eq_of_mem_leadSteps {other : String} (h_about : IsAbout file step)
    (h : step ∈ Bundle.leadSteps other) : other = file := by
  unfold Bundle.leadSteps at h
  rcases List.mem_cons.1 h with rfl | h
  · rcases h_about with h_eq | h_eq
    · exact eq_of_processing_eq (Step.announce.inj h_eq)
    · cases h_eq
  · split at h
    · cases h
    · obtain rfl := List.mem_singleton.1 h
      rcases h_about with h_eq | h_eq
      · cases h_eq
      · exact Step.emit.inj h_eq

/-- The references are about no file. Their messages begin otherwise than the one about a file
does. -/
theorem notMem_externSteps (h_about : IsAbout file step) : step ∉ Bundle.externSteps config := by
  intro h
  obtain ⟨path, -, h⟩ := List.mem_flatMap.1 h
  rcases List.mem_cons.1 h with rfl | h
  · rcases h_about with h_eq | h_eq
    · exact processing_ne (by decide) (Step.announce.inj h_eq).symm
    · cases h_eq
  · obtain rfl := List.mem_singleton.1 h
    rcases h_about with h_eq | h_eq <;> cases h_eq

/-- Nor is the alias. -/
theorem notMem_mainSteps (h_about : IsAbout file step) : step ∉ Bundle.mainSteps config := by
  intro h
  unfold Bundle.mainSteps at h
  cases h_main : mainModule? config with
  | none =>
    rw [h_main] at h
    cases h
  | some main =>
    rw [h_main] at h
    rcases List.mem_cons.1 h with rfl | h
    · rcases h_about with h_eq | h_eq <;> cases h_eq
    · obtain rfl := List.mem_singleton.1 h
      rcases h_about with h_eq | h_eq
      · have h_text := (Step.announce.inj h_eq).symm
        rw [String.append_assoc, String.append_assoc] at h_text
        exact processing_ne (by decide) h_text
      · cases h_eq

/-- **Every file that a script announces or emits is bundled.** -/
theorem exists_bundled_of_mem_steps {cwd : String} (h_about : IsAbout file step)
    (h : step ∈ (ofProgram config (Bundle.excluded cwd config) program host).steps) :
    ∃ source ∈ Bundle.bundled cwd config program, source.name = file := by
  obtain ⟨pieces, h_pieces⟩ := Bundle.exists_arePieces cwd config program host
  -- said for some of the pieces, since the script may end before it comes to the others
  have h_fileSteps : ∀ some ⊆ pieces, step ∈ Bundle.fileSteps some →
      ∃ source ∈ Bundle.bundled cwd config program, source.name = file := by
    intro some h_some h_step
    obtain ⟨piece, h_mem, h_step⟩ := List.mem_flatMap.1 h_step
    refine ⟨piece.1, h_pieces.files ▸ List.mem_map_of_mem (h_some h_mem), ?_⟩
    rcases List.mem_append.1 h_step with h_step | h_step
    · exact eq_of_mem_leadSteps h_about h_step
    · rcases h_about with rfl | rfl <;> simp at h_step
  rcases ofProgram_cases h_pieces with
    ⟨-, h_script⟩ | ⟨before, source, piece, after, failure, rfl, -, -, h_script⟩
  · rw [h_script] at h
    rcases List.mem_append.1 h with h | h
    · exact absurd h (notMem_externSteps h_about)
    · rcases List.mem_append.1 h with h | h
      · exact h_fileSteps pieces (List.Subset.refl _) h
      · exact absurd h (notMem_mainSteps h_about)
  · rw [h_script] at h
    rcases List.mem_append.1 h with h | h
    · exact absurd h (notMem_externSteps h_about)
    · rcases List.mem_append.1 h with h | h
      · exact h_fileSteps before (List.subset_append_left ..) h
      · -- the file that something is at fault with is announced as well
        refine ⟨source, ?_, eq_of_mem_leadSteps h_about h⟩
        rw [← h_pieces.files]
        simp

end Script

namespace Bundle

variable {s : Surroundings} {config : Config} {compile : List String → Compilation}
  {program : Program}

/-- **A run leaves a file out**: it does not emit or announce it, and it is the same run if the file
is not in the program. -/
structure LeavesOut (s : Surroundings) (config : Config) (compile : List String → Compilation)
    (program : Program) (file : String) : Prop where
  notEmitted : file ∉ (generate s config compile).emitted
  notAnnounced : ∀ m ∈ (generate s config compile).messages, m.text ≠ Script.processing file
  without : generate s config compile = generate s config fun files =>
    { compile files with
      program := .ok { program with files := program.files.filter (·.name != file) } }

/-- What is seen once the output is closed was seen before: to close an output sends no message. -/
theorem isSeen_perform {output : Output} {script : Script} {step : Step}
    (h : step.IsSeen (perform config output script).1.messages
      (perform config output script).1.emitted) :
    step.IsSeen [] [] ∨ step ∈ script.steps := by
  have h_same : (perform config output script).1.messages
        = ((Progress.start output).carryOut (styleOf config) script.steps).1.messages ∧
      (perform config output script).1.emitted
        = ((Progress.start output).carryOut (styleOf config) script.steps).1.emitted := by
    unfold perform
    rcases (Progress.start output).carryOut (styleOf config) script.steps with ⟨p, _ | error⟩
    · cases script.failure with
      | some failure => exact ⟨rfl, rfl⟩
      | none =>
        dsimp only
        rcases p.output.close with ⟨closed, _ | error⟩ <;> exact ⟨rfl, rfl⟩
    · exact ⟨rfl, rfl⟩
  rw [h_same.1, h_same.2] at h
  exact Progress.isSeen_carryOut h

/-- **Every file that a run announces or emits is bundled.** -/
theorem exists_bundled (h_program : (compile (roots s.cwd config)).program = .ok program)
    {file : String} {step : Step} (h_about : Script.IsAbout file step)
    (h : step.IsSeen (generate s config compile).messages (generate s config compile).emitted) :
    ∃ source ∈ bundled s.cwd config program, source.name = file := by
  -- at the beginning nothing has been seen
  have h_nothing : ¬ step.IsSeen [] [] := by
    rcases h_about with rfl | rfl <;> simp [Step.IsSeen]
  unfold generate at h
  simp only [h_program] at h
  cases h_open : openOutput s config.out with
  | error error =>
    rw [h_open] at h
    exact absurd h h_nothing
  | ok opened =>
    simp only [h_open] at h
    exact Script.exists_bundled_of_mem_steps h_about
      ((isSeen_perform h).resolve_left h_nothing)

/-- A file that is left out is not bundled, so nothing is announced or emitted of it, and the script
is the same if the program does not list it. -/
theorem leavesOut_of_mem_excluded
    (h_program : (compile (roots s.cwd config)).program = .ok program) {file : String}
    (h : Path.normalise file ∈ excluded s.cwd config) :
    LeavesOut s config compile program file := by
  have h_not : Selection.isBundled config.baseDir (excluded s.cwd config) file = false := by
    unfold Selection.isBundled
    rw [List.contains_iff_mem.2 h, Bool.not_true, Bool.and_false]
  -- so whatever is announced or emitted is another file
  have h_none : ¬ ∃ source ∈ bundled s.cwd config program, source.name = file := by
    rintro ⟨source, h_mem, rfl⟩
    have h_bundled := (List.mem_filter.1 h_mem).2
    rw [h_not] at h_bundled
    cases h_bundled
  refine ⟨fun h_mem => h_none ?_, fun m h_mem h_text => h_none ?_, ?_⟩
  · have h_about : Script.IsAbout file (.emit file) := .inr rfl
    exact exists_bundled h_program h_about h_mem
  · exact exists_bundled h_program (.inl rfl) ⟨m, h_mem, h_text⟩
  · have h_script : ∀ host, Script.ofProgram config (excluded s.cwd config)
        { program with files := program.files.filter (·.name != file) } host
          = Script.ofProgram config (excluded s.cwd config) program host := fun host =>
      Script.ofProgram_filter fun source _ h_bundled => by
        rw [bne_iff_ne]
        rintro rfl
        rw [h_not] at h_bundled
        cases h_bundled
    unfold generate
    simp only [h_program, h_script]
    rfl

/-- **A file that is given as an input and to be left out under one name** is left out by every run
if the two readings of the name agree. If they do not, it is bundled all the same. -/
theorem mem_excluded_iff_and_leavesOut (s : Surroundings) (config : Config) (path : String) :
    (Selection.root s.cwd config.baseDir path ∈ Selection.excluded s.cwd config.baseDir [path] ↔
      Selection.Agree s.cwd config.baseDir path) ∧
    (Selection.isBundled config.baseDir (Selection.excluded s.cwd config.baseDir [path])
        (Selection.root s.cwd config.baseDir path) = true ↔
      ¬ Selection.Agree s.cwd config.baseDir path) ∧
    (Selection.Agree s.cwd config.baseDir path → path ∈ config.files → path ∈ config.excludes →
      ∀ (compile : List String → Compilation) (program : Program),
        (compile (roots s.cwd config)).program = .ok program →
          LeavesOut s config compile program (Selection.root s.cwd config.baseDir path)) := by
  refine ⟨Selection.root_mem_excluded_iff, Selection.isBundled_root_iff, ?_⟩
  intro h_agree _ h_exclude compile program h_program
  refine leavesOut_of_mem_excluded h_program ?_
  -- the path is among the inputs in its own right, and its reading among the files to leave out
  rw [Selection.normalise_root,
    List.mem_singleton.1 (Selection.root_mem_excluded_iff.2 h_agree)]
  exact List.mem_map_of_mem h_exclude

/-- A path that climbs out of the working directory, and so leads to the same file from the base
directory beside it. -/
def besideConfig : Config :=
  { smallConfig with files := ["../src/a.ts"], excludes := ["../src/a.ts"] }

/-- Both directories have one parent, and the path begins by climbing there. -/
theorem leavesOut_beside :
    LeavesOut { smallSurroundings .faultless with cwd := "/work/lib" } besideConfig
      (fun _ => ⟨.ok (smallProgram []), [], none⟩) (smallProgram []) "/work/src/a.ts" := by
  have h_root : Selection.root "/work/lib" "/work/src" "../src/a.ts" = "/work/src/a.ts" := by
    decide +kernel
  have h_agree : Selection.Agree "/work/lib" "/work/src" "../src/a.ts" :=
    .inr (.inr (by decide +kernel))
  have h_out := (mem_excluded_iff_and_leavesOut
    { smallSurroundings .faultless with cwd := "/work/lib" } besideConfig "../src/a.ts").2.2 h_agree
    (List.mem_singleton_self _) (List.mem_singleton_self _)
    (fun _ => ⟨.ok (smallProgram []), [], none⟩) (smallProgram []) rfl
  rw [← h_root]
  exact h_out

/-- A path that leads into the base directory from the directory above it. -/
def insideConfig : Config :=
  { smallConfig with files := ["src/a.ts"], excludes := ["src/a.ts"] }

/-- **The readings need not agree**, and then a file is emitted though it is to be left out. -/
theorem not_forall_leavesOut :
    (¬ ∀ cwd base path, Selection.root cwd base path ∈ Selection.excluded cwd base [path]) ∧
    ¬ ∀ (s : Surroundings) (config : Config) (compile : List String → Compilation)
      (program : Program) (path : String),
      (compile (roots s.cwd config)).program = .ok program → path ∈ config.files →
      path ∈ config.excludes →
        Selection.root s.cwd config.baseDir path ∉ (generate s config compile).emitted := by
  constructor
  · intro h
    exact absurd (h "/work" "/work/src" "src/a.ts") (by decide +kernel)
  · intro h
    -- as an input the path leads to `/work/src/a.ts`, and among the files to leave out to
    -- `/work/src/src/a.ts`
    have h_emitted : Selection.root "/work" "/work/src" "src/a.ts" ∈
        (generate (smallSurroundings .faultless) insideConfig fun _ =>
          ⟨.ok (smallProgram []), [], none⟩).emitted := by
      decide +kernel
    exact h (smallSurroundings .faultless) insideConfig _ (smallProgram []) "src/a.ts" rfl
      (List.mem_singleton_self _) (List.mem_singleton_self _) h_emitted

end Bundle

end DeclarationBundle
