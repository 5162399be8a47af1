import DeclarationBundle.Proofs.Bundle.Agreement
import DeclarationBundle.Proofs.Bundle.Cut
import DeclarationBundle.Proofs.Compiler.Concatenation
import DeclarationBundle.Proofs.Compiler.Layout

/-!
# Failures that a run does not report

A run reports most of what can go wrong with it, but not all (`Failure.isReported`). What is left is
this (`Bundle.outcome_unreported_iff`), in the order in which a run comes to it:

* something about the compiler that nobody is prepared for, from the directory that it is to write
  to up to the declarations that it wrote (`Compiler.Stumbles`),
* an output path with a null character in it, or one that lies too deep, and
* a bundled file that something else is at fault with than what the compiler says against it, if the
  run comes to that file at all (`Bundle.ComesTo`).

The theorem is about any output: a sink that refuses a write, or that fails in closing, is reported,
and only the writes before a file decide whether the run comes to it.

One more failure that is not foreseen never comes about. The sources always have a common directory,
since a compiler that runs in an absolute directory lists absolute files
(`Layout.exists_sourceRoot_eq_ok`).
-/

namespace DeclarationBundle

/-- **Absolute sources have a common directory.** -/
theorem Layout.exists_sourceRoot_eq_ok {files : List String}
    (h : ∀ file ∈ files, Path.isAbsolute file = true) (default : String) :
    ∃ root, sourceRoot files default = .ok root := by
  unfold sourceRoot
  cases h_sources : files.filter isSource with
  | nil => exact ⟨default, rfl⟩
  | cons first others =>
    -- the directory of an absolute file is absolute, and such directories have the root in common
    -- at least
    have h_directories : ∀ path ∈ Path.directory first :: others.map Path.directory,
        Path.isAbsolute path = true := by
      rw [← List.map_cons, ← h_sources]
      intro path h_path
      obtain ⟨file, h_file, rfl⟩ := List.mem_map.1 h_path
      exact Path.isAbsolute_directory (h file (List.mem_of_mem_filter h_file))
    obtain ⟨above, h_above, -⟩ := Path.exists_commonAncestor h_directories
    exact ⟨_, h_above⟩

/-! ### Compilers -/

namespace Compiler

variable {parse : Parser} {machine : Machine} {cwd base printed : String} {config : Config}
  {files : List String} {failure : Failure} {error : CompileError}

/-- **What nobody is prepared for about a compiler.** There is no directory for it to write to, or
that directory cannot be taken away in the end, which hides whatever else there was; the system does
not take the words of its command; what it printed is no text, or has a number in it that is too
long; or a declaration that it wrote cannot be read. -/
inductive Stumbles (machine : Machine) (config : Config) (files : List String) :
    CompileError → Prop where
  | scratch {word found : String} {words : List String} {error : SystemError}
      (h_compiler : config.compiler = word :: words) (h_locate : machine.locate word = some found)
      (h_path : machine.scratchPath = .error error) :
      Stumbles machine config files (.noScratch error)
  | removal {word : String} {invocation : Invocation} {obstacle : Obstacle}
      (h_asks : Asks machine config files word invocation)
      (h_removal : machine.removal invocation = some obstacle) :
      Stumbles machine config files (.notRemoved obstacle)
  | nullWord {word : String} {invocation : Invocation}
      (h_asks : Asks machine config files word invocation)
      (h_removal : machine.removal invocation = none) (h_null : invocation.hasNull = true) :
      Stumbles machine config files .nullWord
  | garbled {invocation : Invocation} {completion : Completion} {error : Utf8.DecodeError}
      (h_run : Completes machine config files invocation completion)
      (h_printed : completion.printed = .error error) :
      Stumbles machine config files (.garbled error)
  | listing {invocation : Invocation} {completion : Completion} {printed : String}
      {stop : Interruption} (h_run : Completes machine config files invocation completion)
      (h_printed : completion.printed = .ok printed)
      (h_read : Listing.read config.baseDir printed = .error stop) :
      Stumbles machine config files (.tooManyDigits stop.error.count)
  | declaration {invocation : Invocation} {completion : Completion} {printed : String}
      {listing : Listing} {error : CompileError}
      (h_run : Completes machine config files invocation completion)
      (h_printed : completion.printed = .ok printed)
      (h_read : Listing.read config.baseDir printed = .ok listing)
      (h_declarations : declarations completion.written = .error error) :
      Stumbles machine config files error

/-- What is wrong with a declaration that a compiler wrote is never reported. The entries are read
one after the other, so the first that is wrong gives the error. -/
theorem isReported_of_declarationsAmong {refuses : Place → Option SystemError}
    {entries : List (Place × Entry)} (h : declarationsAmong refuses entries = .error error) :
    (Failure.compiling error).isReported = false := by
  fun_induction declarationsAmong refuses entries with
  | case1 => cases h
  | case2 place bytes entries path h_kind refused =>
    cases h
    rfl
  -- an entry that can be opened: its octets may be no text, or an entry behind it may be wrong
  | case3 place bytes entries path h_kind h_opens ih =>
    cases h_text : Utf8.decodeMarked bytes with
    | error garbled =>
      rw [h_text] at h
      cases h
      rfl
    | ok text =>
      cases h_rest : declarationsAmong refuses entries with
      | error later =>
        simp only [h_text, h_rest] at h
        cases h
        exact ih h_rest
      | ok rest =>
        simp only [h_text, h_rest] at h
        cases h
  | case4 place bytes entries path h_kind ih => exact ih h
  | case5 place entries ih => exact ih h

/-- Whatever a compiler stumbles over is why there is no program, and it is not reported. -/
theorem Stumbles.program_eq (h : Stumbles machine config files error) :
    (compile parse machine cwd config files).program = .error (.compiling error) ∧
      (Failure.compiling error).isReported = false := by
  cases h with
  | scratch h_compiler h_locate h_path =>
    refine ⟨?_, rfl⟩
    unfold compile
    rw [h_compiler]
    simp only [h_locate, h_path]
  -- whatever came of the compiler, the error is that of the removal
  | removal h_asks h_removal =>
    refine ⟨?_, rfl⟩
    rw [h_asks.compile_eq, h_removal]
    rfl
  | nullWord h_asks h_removal h_null =>
    refine ⟨?_, rfl⟩
    rw [h_asks.compile_eq, h_removal, attempt, Machine.start, if_pos h_null]
    rfl
  | garbled h_run h_printed =>
    refine ⟨?_, rfl⟩
    rw [h_run.compile_eq, complete, h_printed]
  | listing h_run h_printed h_read =>
    refine ⟨?_, rfl⟩
    rw [h_run.compile_eq, complete, h_printed]
    simp only [h_read]
  | declaration h_run h_printed h_read h_declarations =>
    refine ⟨?_, isReported_of_declarationsAmong h_declarations⟩
    rw [compile_of_completes h_run h_printed h_read, programOf, h_declarations]

/-- A compiler that came to its end leaves no program only by what it left behind. The error about
sources without a common directory is not among these, since the files that it lists are
absolute. -/
theorem exists_stumbles_of_complete (h_base : Path.isAbsolute config.baseDir = true)
    {invocation : Invocation} {completion : Completion}
    (h_run : Completes machine config files invocation completion)
    (h : (complete parse cwd config.baseDir invocation completion).program = .error failure) :
    ∃ error, Stumbles machine config files error ∧ failure = .compiling error := by
  -- what was printed is decoded, then read, and then the written declarations are read
  unfold complete at h
  split at h
  · next error h_printed =>
    cases h
    exact ⟨_, .garbled h_run h_printed, rfl⟩
  next printed h_printed =>
  split at h
  · next stop h_read =>
    cases h
    exact ⟨_, .listing h_run h_printed h_read, rfl⟩
  next listing h_read =>
  dsimp only at h
  unfold programOf at h
  split at h
  · next error h_declarations =>
    cases h
    exact ⟨_, .declaration h_run h_printed h_read h_declarations, rfl⟩
  · have h_files : ∀ file ∈ listing.files, Path.isAbsolute file = true := fun file h_file =>
      ((Listing.accounts_of_read_eq_ok h_read).isAbsolute h_base file
        (List.mem_append_left _ h_file)).1
    obtain ⟨root, h_root⟩ := Layout.exists_sourceRoot_eq_ok h_files config.baseDir
    rw [h_root] at h
    cases h

/-- A command that was put together gives no program, without a report, only where the compiler
stumbles. What becomes of the directory is asked first, as it comes last and hides the rest. -/
theorem exists_stumbles_of_asks (h_base : Path.isAbsolute config.baseDir = true) {word : String}
    {invocation : Invocation} (h_asks : Asks machine config files word invocation)
    (h : (compile parse machine cwd config files).program = .error failure)
    (h_reported : failure.isReported = false) :
    ∃ error, Stumbles machine config files error ∧ failure = .compiling error := by
  rw [h_asks.compile_eq] at h
  cases h_removal : machine.removal invocation with
  | some obstacle =>
    rw [h_removal] at h
    cases h
    exact ⟨_, .removal h_asks h_removal, rfl⟩
  | none =>
    rw [h_removal] at h
    change (attempt parse machine cwd config.baseDir word invocation).program = _ at h
    unfold attempt at h
    split at h
    · next h_start =>
      cases h
      have h_null : invocation.hasNull = true := by
        unfold Machine.start at h_start
        split at h_start
        · assumption
        · cases h_run : machine.run invocation <;> rw [h_run] at h_start <;> cases h_start
      exact ⟨_, .nullWord h_asks h_removal h_null, rfl⟩
    · -- a command that the system does not start is reported
      cases h
      cases h_reported
    · next completion h_start =>
      exact exists_stumbles_of_complete h_base ⟨⟨word, h_asks⟩, h_start, h_removal⟩ h

/-- **The failures of a compiler that are not reported** are those that it stumbles over. -/
theorem program_unreported_iff (h_base : Path.isAbsolute config.baseDir = true) :
    (compile parse machine cwd config files).program = .error failure ∧
        failure.isReported = false ↔
      ∃ error, Stumbles machine config files error ∧ failure = .compiling error := by
  constructor
  · rintro ⟨h_program, h_reported⟩
    have h_compile := h_program
    -- the stages up to a command: a compiler is configured, found, and given a directory
    unfold compile at h_program
    split at h_program
    · cases h_program
      cases h_reported
    next word words h_compiler =>
    split at h_program
    · cases h_program
      cases h_reported
    next found h_locate =>
    split at h_program
    · next error h_path =>
      cases h_program
      exact ⟨_, .scratch h_compiler h_locate h_path, rfl⟩
    · next outDir h_path =>
      have h_asks : Asks machine config files word
          ⟨found :: words ++ arguments config outDir files, config.baseDir⟩ :=
        ⟨words, found, outDir, h_compiler, h_locate, h_path, rfl⟩
      exact exists_stumbles_of_asks h_base h_asks h_compile h_reported
  · rintro ⟨error, h_stumbles, rfl⟩
    exact h_stumbles.program_eq

end Compiler

/-! ### Scripts -/

namespace Script

open DeclarationBundle.Bundle

variable {config : Config} {program : Program} {host : Host} {source : SourceFile}
  {failure : Failure}

/-- Some files that contribute, one that something is at fault with, and whatever follows it: the
fault ends the script. The induction is on the files before. -/
theorem sequence_ofBundled_of_fault {before : List (SourceFile × Section)} {after : List SourceFile}
    (h_before : ∀ piece ∈ before, Contribution config program host piece.1 piece.2)
    (h_fault : Fault config program host source failure) :
    sequence ((before.map Prod.fst ++ source :: after).map (ofBundled config program host))
      = ⟨fileSteps before ++ leadSteps source.name, some failure⟩ := by
  induction before with
  | nil =>
    -- a script that fails is not followed by another
    rw [List.map_nil, List.nil_append, List.map_cons, sequence, ofBundled_of_fault h_fault]
    rfl
  | cons first before ih =>
    obtain ⟨h_first, h_rest⟩ := List.forall_mem_cons.1 h_before
    rw [List.map_cons, List.cons_append, List.map_cons, sequence, ih h_rest,
      ofBundled_of_contribution h_first, andThen_ofSteps]
    simp [fileSteps]

/-- So the script of a program ends at its first file that something is at fault with. -/
theorem ofProgram_of_fault {cwd : String} {before : List (SourceFile × Section)}
    {after : List SourceFile}
    (h_files : bundled cwd config program = before.map Prod.fst ++ source :: after)
    (h_before : ∀ piece ∈ before, Contribution config program host piece.1 piece.2)
    (h_fault : Fault config program host source failure) :
    ofProgram config (excluded cwd config) program host
      = ⟨externSteps config ++ (fileSteps before ++ leadSteps source.name), some failure⟩ := by
  have h_externs : sequence (config.externs.map ofExtern) = ofSteps (externSteps config) :=
    sequence_map_ofSteps _ _
  have h_sequence : sequence (program.files.map (ofFile config (excluded cwd config) program host))
      = ⟨fileSteps before ++ leadSteps source.name, some failure⟩ := by
    rw [sequence_ofFile, ← sequence_ofBundled_of_fault h_before h_fault, ← h_files]
    rfl
  unfold ofProgram
  rw [h_externs, h_sequence, andThen_ofSteps]
  rfl

end Script

namespace Bundle

variable {s : Surroundings} {config : Config} {compile : List String → Compilation}
  {program : Program} {host : Script.Host} {source : SourceFile} {failure : Failure}

/-! ### Runs -/

/-- **A run comes to a file**: those before it contribute, and the output takes all that is written
up to there. -/
structure ComesTo (behaviour : Behaviour) (cwd : String) (config : Config) (program : Program)
    (host : Script.Host) (before : List (SourceFile × Section)) (source : SourceFile) : Prop where
  files : ∃ after, bundled cwd config program = before.map Prod.fst ++ source :: after
  each : ∀ piece ∈ before, Contribution config program host piece.1 piece.2
  takes : behaviour.TakesAll 0 (leadingTo config before source)

/-- A script whose texts a fresh output takes ends in its own failure. -/
theorem perform_of_failure {behaviour : Behaviour} {script : Script} (path : Option String)
    (h_takes : behaviour.TakesAll 0 (Step.allActions (styleOf config) script.steps))
    (h_failure : script.failure = some failure) :
    (perform config (.fresh behaviour path) script).2 = .error failure := by
  unfold perform
  simp only [carryOut_of_takesAll h_takes, h_failure]

/-- What is at fault in closing an output is reported. -/
theorem isReported_of_close {behaviour : Behaviour} {path : Option String} {steps : List Step}
    (h_takes : behaviour.TakesAll 0 (Step.allActions (styleOf config) steps))
    (h : (perform config (.fresh behaviour path) (.ofSteps steps)).2 = .error failure) :
    failure.isReported = true := by
  unfold perform Script.ofSteps at h
  simp only [carryOut_of_takesAll h_takes] at h
  split at h
  · next output error h_close =>
    cases h
    -- the sink of an open output may fail in closing, and that is an error of writing
    unfold Output.close at h_close
    split at h_close
    · cases h_close
    · split at h_close <;> cases h_close
      rfl
  · cases h

/-- **A script fails without a report** only by its own failure, and only if the output takes all
that is written before. -/
theorem perform_unreported_iff {behaviour : Behaviour} {path : Option String} {script : Script} :
    (perform config (.fresh behaviour path) script).2 = .error failure ∧
        failure.isReported = false ↔
      behaviour.TakesAll 0 (Step.allActions (styleOf config) script.steps) ∧
        script.failure = some failure ∧ failure.isReported = false := by
  constructor
  · rintro ⟨h_outcome, h_reported⟩
    rcases perform_of_stop behaviour path script with
      ⟨h_takes, h_none⟩ | ⟨done, rest, failure', p, h_steps, h_takes, h_run, -, h_why⟩
    · -- nothing is left that could go wrong but the closing
      obtain ⟨steps, stop⟩ := script
      cases h_none
      rw [isReported_of_close h_takes h_outcome] at h_reported
      cases h_reported
    · rw [h_run] at h_outcome
      cases h_outcome
      rcases h_why with ⟨rfl, h_failure⟩ | ⟨text, more, errno, -, -, rfl⟩
      · rw [List.append_nil] at h_steps
        rw [h_steps]
        exact ⟨h_takes, h_failure, h_reported⟩
      · -- a write that is refused is reported
        cases h_reported
  · rintro ⟨h_takes, h_failure, h_reported⟩
    exact ⟨perform_of_failure path h_takes h_failure, h_reported⟩

/-- **The script of a program comes to a failure of its own** where the run comes to a file that
something is at fault with. -/
theorem takesAll_and_failure_iff {behaviour : Behaviour} {cwd : String} :
    behaviour.TakesAll 0 (Step.allActions (styleOf config)
          (Script.ofProgram config (excluded cwd config) program host).steps) ∧
        (Script.ofProgram config (excluded cwd config) program host).failure = some failure ↔
      ∃ before source, ComesTo behaviour cwd config program host before source ∧
        Fault config program host source failure := by
  constructor
  · rintro ⟨h_takes, h_failure⟩
    -- the failure is that of the first file at fault, and its place in the program is where the
    -- pieces are cut
    obtain ⟨pieces, h_pieces⟩ := exists_arePieces cwd config program host
    rcases Script.ofProgram_cases h_pieces with
      ⟨-, h_script⟩ | ⟨before, source, piece, after, found, rfl, h_before, h_fault, h_script⟩
    · rw [h_script] at h_failure
      cases h_failure
    · rw [h_script] at h_takes h_failure
      cases h_failure
      refine ⟨before, source, ⟨⟨after.map Prod.fst, ?_⟩, h_before, h_takes⟩, h_fault⟩
      rw [← h_pieces.files, List.map_append, List.map_cons]
  · rintro ⟨before, source, ⟨⟨after, h_files⟩, h_before, h_takes⟩, h_fault⟩
    rw [Script.ofProgram_of_fault h_files h_before h_fault]
    exact ⟨h_takes, rfl⟩

/-- What a tree answers about a file is not foreseen. -/
theorem isReported_of_readText {t : FileTree} {cwd path : String}
    (h : readText t cwd path = .error failure) : failure.isReported = false := by
  unfold readText at h
  split at h
  · next error _ =>
    cases h
    -- a file that is missing and a null character in its name are unforeseen alike
    cases error <;> rfl
  · next bytes _ =>
    cases h_text : Utf8.decodeMarked bytes with
    | ok text =>
      rw [h_text] at h
      cases h
    | error error =>
      rw [h_text] at h
      cases h
      rfl

/-- **Of the faults of a file only one is reported**: what the compiler says against it. -/
theorem Fault.isReported_eq_false_iff {tree : FileTree}
    (h : Fault config program (hostOf s tree) source failure) :
    failure.isReported = false ↔ ∀ diagnostics, failure ≠ .rejected diagnostics := by
  cases h with
  | unreadable h_kind h_text =>
    have h_reported : failure.isReported = false := by
      unfold Script.textOf at h_text
      split at h_text
      · cases h_text
      · exact isReported_of_readText h_text
    refine iff_of_true h_reported ?_
    rintro diagnostics rfl
    cases h_reported
  | rejected h_kind h_emission => exact iff_of_false nofun fun h_not => h_not _ rfl
  | overflow => exact iff_of_true rfl nofun
  | unmoved => exact iff_of_true rfl nofun

/-- An output that cannot be opened ends a run that has a program. -/
theorem outcome_of_openOutput_eq_error
    (h_program : (compile (roots s.cwd config)).program = .ok program)
    (h_open : openOutput s config.out = .error failure) :
    (generate s config compile).outcome = .error failure := by
  unfold generate
  simp only [h_program, h_open]
  rfl

/-- **An output that cannot be opened is reported**, unless the directories above it are too many
for the stack, or its path has a null character in it and is not refused for anything else before
that comes out. -/
theorem openOutput_unreported_iff {out : String} :
    openOutput s out = .error failure ∧ failure.isReported = false ↔
      s.stack.overflows (.directories out) = true ∧ failure = .overflow ∨
        s.stack.overflows (.directories out) = false ∧
          s.tree.openFresh s.cwd out = .error .null ∧ failure = .nullPath := by
  unfold openOutput
  cases h_stack : s.stack.overflows (.directories out) with
  | true =>
    rw [if_pos rfl]
    constructor
    · rintro ⟨h, -⟩
      cases h
      exact .inl ⟨rfl, rfl⟩
    · rintro (⟨-, rfl⟩ | ⟨h, -⟩)
      · exact ⟨rfl, rfl⟩
      · cases h
  | false =>
    rw [if_neg Bool.false_ne_true]
    cases h_open : s.tree.openFresh s.cwd out with
    | ok opened => simp [Except.mapError]
    | error error =>
      cases error with
      | null =>
        simp only [Except.mapError, Failure.ofPathError, Except.error.injEq]
        constructor
        · rintro ⟨rfl, -⟩
          exact .inr ⟨trivial, trivial, rfl⟩
        · rintro (⟨h, -⟩ | ⟨-, -, rfl⟩)
          · cases h
          · exact ⟨rfl, rfl⟩
      -- an error of the system is an error of the output, which has a message
      | system error =>
        simp only [Except.mapError, Failure.ofPathError, Except.error.injEq]
        constructor
        · rintro ⟨rfl, h⟩
          cases h
        · rintro (⟨h, -⟩ | ⟨-, h, -⟩)
          · cases h
          · cases h

/-- **The failures of a run that are not reported.** -/
theorem outcome_unreported_iff :
    (generate s config compile).outcome = .error failure ∧ failure.isReported = false ↔
      ((compile (roots s.cwd config)).program = .error failure ∧ failure.isReported = false) ∨
      ∃ program, (compile (roots s.cwd config)).program = .ok program ∧
        ((openOutput s config.out = .error failure ∧ failure.isReported = false) ∨
          ∃ tree place before source, openOutput s config.out = .ok (tree, place) ∧
            ComesTo s.behaviour s.cwd config program (hostOf s tree) before source ∧
            Fault config program (hostOf s tree) source failure ∧
            ∀ diagnostics, failure ≠ .rejected diagnostics) := by
  cases h_program : (compile (roots s.cwd config)).program with
  -- without a program nothing else can happen
  | error error =>
    rw [(generate_of_no_program h_program).1]
    simp
  | ok program =>
    cases h_open : openOutput s config.out with
    | error error =>
      rw [outcome_of_openOutput_eq_error h_program h_open]
      simp
    | ok opened =>
      obtain ⟨tree, place⟩ := opened
      -- with an open output the run ends as its script does
      rw [outcome_of_openOutput h_program h_open, perform_unreported_iff, ← and_assoc,
        takesAll_and_failure_iff]
      constructor
      · rintro ⟨⟨before, source, h_comes, h_fault⟩, h_reported⟩
        exact .inr ⟨program, rfl, .inr ⟨tree, place, before, source, rfl, h_comes, h_fault,
          h_fault.isReported_eq_false_iff.1 h_reported⟩⟩
      · rintro (⟨h_error, -⟩ | ⟨_, h_ok, ⟨h_error, -⟩ | ⟨_, _, before, source, h_opened, h_comes,
          h_fault, h_other⟩⟩)
        · cases h_error
        · cases h_error
        · cases h_ok
          cases h_opened
          exact ⟨⟨before, source, h_comes, h_fault⟩, h_fault.isReported_eq_false_iff.2 h_other⟩

end Bundle

end DeclarationBundle
