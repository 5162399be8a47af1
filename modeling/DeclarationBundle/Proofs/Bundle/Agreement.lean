import DeclarationBundle.Compiler.Run
import DeclarationBundle.Proofs.Bundle.Plan

/-!
# Programs that a run cannot tell apart

A run asks a program for its files, and whether those pass that are bundled and are to be emitted.
Programs that answer alike (`Program.Agrees`) have the same script, so the runs with them show the
same (`Bundle.generate_of_agrees`).

`Compiler.Completes` says of a compiler that it was run and came to its end, which is the case where
what it printed and wrote decides: `Compiler.compile_of_completes`.
-/

namespace DeclarationBundle

variable {s : Surroundings} {config : Config} {program program' : Program}

/-- **Two programs answer a run alike**: they have the same files, and of those that are bundled and
are to be emitted the same pass, with the same declarations, and the same is said against the
others. -/
structure Program.Agrees (cwd : String) (config : Config) (p p' : Program) : Prop where
  files : p.files = p'.files
  check : ∀ source ∈ Bundle.bundled cwd config p, ModuleId.isDeclarationFile source.name = false →
    p.check (p.emit source.name) source.name = p'.check (p'.emit source.name) source.name

namespace Script

variable {host : Host} {source : SourceFile}

/-- What is done about a file depends on the program only if the file is to be emitted, and then on
the answer for it. -/
theorem ofBundled_of_check
    (h : ModuleId.isDeclarationFile source.name = false →
      program.check (program.emit source.name) source.name
        = program'.check (program'.emit source.name) source.name) :
    ofBundled config program host source = ofBundled config program' host source := by
  unfold ofBundled
  cases h_kind : ModuleId.isDeclarationFile source.name with
  | true => rfl
  | false =>
    unfold ofEmission
    rw [h h_kind]

/-- **A script depends on what a program answers, and on nothing else.** -/
theorem ofProgram_of_agrees {cwd : String} (h : program.Agrees cwd config program') :
    ofProgram config (Bundle.excluded cwd config) program host
      = ofProgram config (Bundle.excluded cwd config) program' host := by
  have h_files : ∀ source ∈ program.files,
      ofFile config (Bundle.excluded cwd config) program host source
        = ofFile config (Bundle.excluded cwd config) program' host source := by
    intro source h_mem
    unfold ofFile
    split
    · next h_bundled =>
      exact ofBundled_of_check (h.check source (List.mem_filter.2 ⟨h_mem, h_bundled⟩))
    · -- nothing is asked about a file that is not bundled
      rfl
  unfold ofProgram
  rw [List.map_congr_left h_files, h.files]

/-- A script ends in a failure if something is at fault with a file that is bundled. -/
theorem exists_failure_of_fault {cwd : String} {failure : Failure}
    (h_mem : source ∈ Bundle.bundled cwd config program)
    (h_fault : Bundle.Fault config program host source failure) :
    ∃ failure,
      (ofProgram config (Bundle.excluded cwd config) program host).failure = some failure := by
  obtain ⟨pieces, h_pieces⟩ := Bundle.exists_arePieces cwd config program host
  rcases ofProgram_cases h_pieces with ⟨h_all, -⟩ | ⟨_, _, _, _, failure, -, -, -, h_script⟩
  · -- a script without a failure has a contribution of every file, of this one as well
    rw [← h_pieces.files] at h_mem
    obtain ⟨piece, h_piece, rfl⟩ := List.mem_map.1 h_mem
    exact absurd h_fault ((h_all piece h_piece).not_fault failure)
  · -- the script may fail at an earlier file, and with another failure
    exact ⟨failure, by rw [h_script]⟩

end Script

namespace Bundle

variable {compile compile' : List String → Compilation}

/-- The files of a compiler run that are bundled. -/
theorem mem_bundled_ofListing {parse : Parser} {cwd root : String} {files : List String}
    {diagnostics : List Diagnostic} {declarations : List (String × String)} {source : SourceFile} :
    source ∈ bundled cwd config (.ofListing parse cwd root files diagnostics declarations) ↔
      ∃ file ∈ files, Selection.isBundled config.baseDir (excluded cwd config) file = true ∧
        source = ⟨file, none⟩ := by
  unfold bundled
  rw [List.mem_filter]
  -- a listing has its files without texts
  show source ∈ files.map (⟨·, none⟩) ∧ _ ↔ _
  rw [List.mem_map]
  constructor
  · rintro ⟨⟨file, h_mem, rfl⟩, h_bundled⟩
    exact ⟨file, h_mem, h_bundled, rfl⟩
  · rintro ⟨file, h_mem, h_bundled, rfl⟩
    exact ⟨⟨file, h_mem, rfl⟩, h_bundled⟩

/-- A run asks for one compilation only, that of its own files. What the compiler would do with
others makes no difference. -/
theorem generate_of_compile_eq (h : compile (roots s.cwd config) = compile' (roots s.cwd config)) :
    generate s config compile = generate s config compile' := by
  unfold generate
  rw [h]

/-- A report names the command that was run to have the program. -/
theorem invocation_generate :
    (generate s config compile).invocation = (compile (roots s.cwd config)).invocation := by
  unfold generate
  cases h_program : (compile (roots s.cwd config)).program with
  | error failure => simp only [h_program, stopped]
  | ok program =>
    simp only [h_program]
    -- with a program, the report takes the command over whether the output can be opened or not
    cases openOutput s config.out <;> rfl

/-- **Runs with programs that answer alike show the same**, but for the commands that were run to
have the programs. -/
theorem generate_of_agrees (h_program : (compile (roots s.cwd config)).program = .ok program)
    (h_program' : (compile' (roots s.cwd config)).program = .ok program')
    (h_agrees : program.Agrees s.cwd config program')
    (h_warnings : (compile (roots s.cwd config)).warnings
      = (compile' (roots s.cwd config)).warnings) :
    generate s config compile = { generate s config compile' with
      invocation := (compile (roots s.cwd config)).invocation } := by
  unfold generate
  simp only [h_program, h_program', h_warnings]
  cases openOutput s config.out with
  | error error => simp only [stopped, h_warnings]
  -- the files are read in the tree with the opened output, which is the same for both
  | ok opened => simp only [Script.ofProgram_of_agrees h_agrees]

/-- If the commands are the same as well, so are the runs. -/
theorem generate_eq_of_agrees (h_program : (compile (roots s.cwd config)).program = .ok program)
    (h_program' : (compile' (roots s.cwd config)).program = .ok program')
    (h_agrees : program.Agrees s.cwd config program')
    (h_warnings : (compile (roots s.cwd config)).warnings
      = (compile' (roots s.cwd config)).warnings)
    (h_invocation : (compile (roots s.cwd config)).invocation
      = (compile' (roots s.cwd config)).invocation) :
    generate s config compile = generate s config compile' := by
  rw [generate_of_agrees h_program h_program' h_agrees h_warnings, h_invocation,
    ← invocation_generate]

/-- A run does not end well if its script fails, whatever the output does. Which failure it ends
with depends on the output, which may refuse a write before the script comes to its own. -/
theorem exists_perform_eq_error {output : Output} {script : Script} {failure : Failure}
    (h : script.failure = some failure) :
    ∃ failure, (perform config output script).2 = .error failure := by
  unfold perform
  rw [h]
  -- a write may be refused before the script fails, and then that is the error
  split
  · exact ⟨_, rfl⟩
  · exact ⟨_, rfl⟩
  · next h_none => cases h_none

/-- **A run does not end well if something is at fault with a file that is bundled.** -/
theorem exists_outcome_eq_error (h_program : (compile (roots s.cwd config)).program = .ok program)
    {source : SourceFile} (h_mem : source ∈ bundled s.cwd config program)
    (h_fault : ∀ host, ∃ failure, Fault config program host source failure) :
    ∃ failure, (generate s config compile).outcome = .error failure := by
  unfold generate
  simp only [h_program]
  cases openOutput s config.out with
  | error error => exact ⟨_, rfl⟩
  | ok opened =>
    -- the files are known only now, so the fault must be one in any of them
    obtain ⟨failure, h_failure⟩ := h_fault (hostOf s opened.1)
    obtain ⟨failure, h_script⟩ := Script.exists_failure_of_fault h_mem h_failure
    exact exists_perform_eq_error h_script

end Bundle

namespace Compiler

/-- **A command is put together**: a compiler is configured and found, and there is a directory for
it to write to. `word` is the first word of the configuration. -/
structure Asks (machine : Machine) (config : Config) (files : List String) (word : String)
    (invocation : Invocation) : Prop where
  command : ∃ words found outDir, config.compiler = word :: words ∧
    machine.locate word = some found ∧ machine.scratchPath = .ok outDir ∧
    invocation = ⟨found :: words ++ arguments config outDir files, config.baseDir⟩

/-- **A compiler is run over some files and comes to its end**: the machine carries the command out,
and takes its directory away in the end. -/
structure Completes (machine : Machine) (config : Config) (files : List String)
    (invocation : Invocation) (completion : Completion) : Prop where
  asks : ∃ word, Asks machine config files word invocation
  run : machine.start invocation = .ok completion
  removal : machine.removal invocation = none

variable {parse : Parser} {machine : Machine} {cwd printed : String} {files : List String}
  {invocation : Invocation} {completion : Completion} {listing : Listing}

/-- A command that is put together is carried out, and then its directory is taken away. -/
theorem Asks.compile_eq {word : String} (h : Asks machine config files word invocation) :
    compile parse machine cwd config files
      = (attempt parse machine cwd config.baseDir word invocation).settled
          (machine.removal invocation) := by
  obtain ⟨words, found, outDir, h_compiler, h_locate, h_path, rfl⟩ := h.command
  unfold compile
  rw [h_compiler]
  simp only [h_locate, h_path]

/-- What comes of a compiler that has run is read off what it left behind. Nothing is added when its
directory is taken away, since that succeeds. -/
theorem Completes.compile_eq (h : Completes machine config files invocation completion) :
    compile parse machine cwd config files
      = complete parse cwd config.baseDir invocation completion := by
  obtain ⟨word, h_asks⟩ := h.asks
  rw [h_asks.compile_eq, h.removal, attempt, h.run]
  rfl

/-- What comes of a compiler whose output could be read is decided by the directory that it left. -/
theorem compile_of_completes (h : Completes machine config files invocation completion)
    (h_printed : completion.printed = .ok printed)
    (h_read : Listing.read config.baseDir printed = .ok listing) :
    compile parse machine cwd config files
      = ⟨programOf parse cwd config.baseDir listing completion.written, listing.warnings,
          some invocation⟩ := by
  rw [h.compile_eq]
  unfold complete
  simp only [h_printed, h_read]

/-- There is a program if what was written can be read and the sources have a common root. What the
compiler said is handed on and decides nothing here. -/
theorem programOf_eq_ok_iff {base : String} {written : Scratch} :
    programOf parse cwd base listing written = .ok program ↔
      ∃ declared root, declarations written = .ok declared ∧
        Layout.sourceRoot listing.files base = .ok root ∧
        program = .ofListing parse cwd root listing.files listing.diagnostics declared := by
  unfold programOf
  cases declarations written with
  | error error => simp
  | ok declared =>
    cases Layout.sourceRoot listing.files base with
    | error error => simp
    | ok root => simp [eq_comm]

/-- That there is no program has nothing to do with what the compiler said. -/
theorem programOf_eq_error {base : String} {written : Scratch} {failure : Failure}
    (h : programOf parse cwd base listing written = .error failure)
    (diagnostics : List Diagnostic) :
    programOf parse cwd base { listing with diagnostics } written = .error failure := by
  -- the written declarations are read first, then the root is sought, and neither looks at the
  -- diagnostics
  unfold programOf at h ⊢
  cases h_written : declarations written with
  | error found =>
    rw [h_written] at h
    exact h
  | ok declared =>
    rw [h_written] at h
    simp only at h ⊢
    cases h_root : Layout.sourceRoot listing.files base with
    | error error =>
      rw [h_root] at h
      exact h
    | ok root =>
      rw [h_root] at h
      cases h

/-- The program of a compiler that came to its end. -/
theorem program_compile_of_completes
    (h : Completes machine config files invocation completion)
    (h_printed : completion.printed = .ok printed)
    (h_read : Listing.read config.baseDir printed = .ok listing)
    {declared : List (String × String)} {root : String}
    (h_declared : declarations completion.written = .ok declared)
    (h_root : Layout.sourceRoot listing.files config.baseDir = .ok root) :
    (compile parse machine cwd config files).program
      = .ok (.ofListing parse cwd root listing.files listing.diagnostics declared) := by
  rw [compile_of_completes h h_printed h_read]
  exact programOf_eq_ok_iff.2 ⟨declared, root, h_declared, h_root, rfl⟩

end Compiler

end DeclarationBundle
