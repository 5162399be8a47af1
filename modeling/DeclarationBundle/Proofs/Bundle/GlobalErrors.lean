import DeclarationBundle.Proofs.Bundle.Agreement
import DeclarationBundle.Proofs.Compiler.Complaints

/-!
# Which errors about no file end a run

A compiler prints an error about no file if it cannot make sense of the command as a whole. The
error stands against every file, but only a file that is to be emitted asks what stands against it.
So such an error ends the run if one of the files that the compiler lists is bundled and is not a
declaration file already, and it goes unseen otherwise: `Bundle.generate_of_globalError`.

A compiler that gives up before it lists a file is the plainest case of the latter. The run ends
well, with an empty bundle (`Bundle.not_forall_outcome_eq_error`).
-/

namespace DeclarationBundle

/-- A compiler run says something against every file if it has an error about no file. -/
theorem Program.fault_of_globalError {parse : Parser} {cwd root : String}
    {files : List String} {diagnostics : List Diagnostic} {declarations : List (String × String)}
    {config : Config} (source : SourceFile) (h_global : ∃ d ∈ diagnostics, d.file = none)
    (h_kind : ModuleId.isDeclarationFile source.name = false) (host : Script.Host) :
    ∃ failure, Bundle.Fault config (.ofListing parse cwd root files diagnostics declarations)
      host source failure := by
  obtain ⟨d, h_mem, h_none⟩ := h_global
  -- an error about no file is a complaint against every file
  have h_complaints : (ofListing parse cwd root files diagnostics declarations).complaints
      ((ofListing parse cwd root files diagnostics declarations).emit source.name) source.name
        ≠ [] := by
    rw [Ne, complaints_ofListing_eq_nil_iff]
    exact fun h => h d h_mem (.inl h_none)
  exact ⟨_, .rejected h_kind (.inr (.inr h_complaints))⟩

/-- Compiler runs that list the same files are alike if none of these is emitted, whatever is said
against them. -/
theorem Program.agrees_of_copied {parse : Parser} {cwd root : String} {config : Config}
    {files : List String} {declarations : List (String × String)}
    (h_copied : ∀ file ∈ files,
      Selection.isBundled config.baseDir (Bundle.excluded cwd config) file = true →
        ModuleId.isDeclarationFile file = true) (diagnostics diagnostics' : List Diagnostic) :
    (ofListing parse cwd root files diagnostics declarations).Agrees cwd config
      (ofListing parse cwd root files diagnostics' declarations) := by
  refine ⟨rfl, fun source h_mem h_kind => ?_⟩
  obtain ⟨file, h_file, h_bundled, rfl⟩ := Bundle.mem_bundled_ofListing.1 h_mem
  -- no answer is asked for, since every bundled file is copied
  rw [h_copied file h_file h_bundled] at h_kind
  cases h_kind

namespace Bundle

section Completed

variable {s : Surroundings} {config : Config} {parse : Parser} {machine : Machine}
  {invocation : Invocation} {completion : Completion} {printed : String} {listing : Listing}
  (h_completes : Compiler.Completes machine config (roots s.cwd config) invocation completion)
  (h_printed : completion.printed = .ok printed)
  (h_read : Listing.read config.baseDir printed = .ok listing)

include h_completes h_printed h_read

/-- With an error about no file, no file that is to be emitted passes. So the run fails at the first
of them, if not before. -/
theorem exists_outcome_eq_error_of_globalError (h_global : ∃ d ∈ listing.diagnostics, d.file = none)
    {file : String} (h_mem : file ∈ listing.files)
    (h_bundled : Selection.isBundled config.baseDir (excluded s.cwd config) file = true)
    (h_kind : ModuleId.isDeclarationFile file = false) :
    ∃ failure, (generate s config (Compiler.compile parse machine s.cwd config)).outcome
      = .error failure := by
  have h_compile := @Compiler.compile_of_completes config parse machine s.cwd _ _ _ _ _ h_completes
    h_printed h_read
  cases h_program : Compiler.programOf parse s.cwd config.baseDir listing completion.written with
  | error failure =>
    -- there is no program at all, and the run ends before it opens the output
    refine ⟨failure, ?_⟩
    unfold generate
    simp only [h_compile, h_program]
    rfl
  | ok program =>
    obtain ⟨declared, root, -, -, rfl⟩ := Compiler.programOf_eq_ok_iff.1 h_program
    have h_ok : (Compiler.compile parse machine s.cwd config (roots s.cwd config)).program
        = .ok (.ofListing parse s.cwd root listing.files listing.diagnostics declared) := by
      rw [h_compile, h_program]
    -- the listed file is bundled, and the error is against it wherever the files are read from
    exact exists_outcome_eq_error h_ok (mem_bundled_ofListing.2 ⟨file, h_mem, h_bundled, rfl⟩)
      (Program.fault_of_globalError ⟨file, none⟩ h_global h_kind)

/-- If all that is bundled is copied, nothing that the compiler says makes a difference: with any
other diagnostics in the place of those that it printed, the run is the same. -/
theorem generate_of_copied
    (h_copied : ∀ file ∈ listing.files,
      Selection.isBundled config.baseDir (excluded s.cwd config) file = true →
        ModuleId.isDeclarationFile file = true) (diagnostics : List Diagnostic) :
    generate s config (Compiler.compile parse machine s.cwd config) =
      generate s config fun _ => ⟨Compiler.programOf parse s.cwd config.baseDir
        { listing with diagnostics } completion.written, listing.warnings, some invocation⟩ := by
  have h_compile := @Compiler.compile_of_completes config parse machine s.cwd _ _ _ _ _ h_completes
    h_printed h_read
  cases h_program : Compiler.programOf parse s.cwd config.baseDir listing completion.written with
  | error failure =>
    -- without a program the run does not even begin, on either side
    have h_other := Compiler.programOf_eq_error h_program diagnostics
    refine generate_of_compile_eq (h_compile.trans ?_)
    rw [h_program, h_other]
  | ok program =>
    obtain ⟨declared, root, h_declared, h_root, rfl⟩ :=
      Compiler.programOf_eq_ok_iff.1 h_program
    have h_ok : (Compiler.compile parse machine s.cwd config (roots s.cwd config)).program
        = .ok (.ofListing parse s.cwd root listing.files listing.diagnostics declared) := by
      rw [h_compile, h_program]
    -- the program that there would be with other diagnostics
    have h_other : Compiler.programOf parse s.cwd config.baseDir { listing with diagnostics }
        completion.written = .ok (.ofListing parse s.cwd root listing.files diagnostics declared) :=
      Compiler.programOf_eq_ok_iff.2 ⟨declared, root, h_declared, h_root, rfl⟩
    have h_agrees := @Program.agrees_of_copied parse s.cwd root config listing.files declared
      h_copied
    refine generate_eq_of_agrees h_ok h_other (h_agrees _ _) ?_ ?_ <;> rw [h_compile]

/-- **An error about no file ends a run just if there is a file to emit.** A compiler has run and
come to its end, and among what it printed is an error about no file. If one of the files that it
lists is bundled and is no declaration file, the run does not end well. If there is no such file,
the run is the same as if the compiler had printed no error at all. -/
theorem generate_of_globalError (h_global : ∃ d ∈ listing.diagnostics, d.file = none) :
    ((∃ file ∈ listing.files,
        Selection.isBundled config.baseDir (excluded s.cwd config) file = true ∧
          ModuleId.isDeclarationFile file = false) →
      ∃ failure, (generate s config (Compiler.compile parse machine s.cwd config)).outcome
        = .error failure) ∧
    ((∀ file ∈ listing.files,
        Selection.isBundled config.baseDir (excluded s.cwd config) file = true →
          ModuleId.isDeclarationFile file = true) →
      generate s config (Compiler.compile parse machine s.cwd config) =
        generate s config fun _ => ⟨Compiler.programOf parse s.cwd config.baseDir
          { listing with diagnostics := [] } completion.written, listing.warnings,
          some invocation⟩) := by
  refine ⟨?_, fun h_copied => generate_of_copied h_completes h_printed h_read h_copied []⟩
  rintro ⟨file, h_mem, h_bundled, h_kind⟩
  exact exists_outcome_eq_error_of_globalError h_completes h_printed h_read h_global h_mem
    h_bundled h_kind

end Completed

/-- What a compiler leaves behind that prints some text and writes nothing. -/
def printout (text : String) : Completion :=
  ⟨Utf8.encode text, [], .plain .empty⟩

/-- The machine that runs such a compiler. -/
def printing (text : String) : Machine where
  locate word := some ("/usr/bin/" ++ word)
  scratchPath := .ok "/tmp/out"
  run _ := .ok (printout text)
  removal _ := none

/-- The error of a compiler that was given an option it does not know. -/
def unknownOption : Diagnostic :=
  ⟨5023, "Unknown compiler option 'foo'.", none, 0, 0, .emit⟩

/-- What a compiler prints of that error. -/
def unknownOptionLine : String :=
  "error TS5023: Unknown compiler option 'foo'.\n"

/-- Such a compiler is found, started and comes to its end, since none of the words that it is given
holds a null character. -/
theorem completes_printing (text : String) :
    Compiler.Completes (printing text) smallConfig (roots "/work" smallConfig)
      ⟨"/usr/bin/tsc" :: Compiler.arguments smallConfig "/tmp/out" (roots "/work" smallConfig),
        "/work/src"⟩ (printout text) := by
  refine ⟨⟨"tsc", [], "/usr/bin/tsc", "/tmp/out", rfl, rfl, rfl, rfl⟩, ?_, rfl⟩
  have h_null : Invocation.hasNull ⟨"/usr/bin/tsc" ::
      Compiler.arguments smallConfig "/tmp/out" (roots "/work" smallConfig), "/work/src"⟩
        = false := by
    decide +kernel
  unfold Machine.start
  rw [h_null]
  rfl

/-- The same error, with the source listed behind it. -/
theorem generate_of_globalError_listed :
    ∃ failure, (generate (smallSurroundings .faultless) smallConfig
      (Compiler.compile Syntax.parse (printing (unknownOptionLine ++ "/work/src/a.ts\n")) "/work"
        smallConfig)).outcome = .error failure := by
  have h_printed : (printout (unknownOptionLine ++ "/work/src/a.ts\n")).printed
      = .ok (unknownOptionLine ++ "/work/src/a.ts\n") := by
    decide +kernel
  have h_read : Listing.read smallConfig.baseDir (unknownOptionLine ++ "/work/src/a.ts\n")
      = .ok ⟨["/work/src/a.ts"], [unknownOption], []⟩ := by
    decide +kernel
  have h_bundled : Selection.isBundled smallConfig.baseDir (excluded "/work" smallConfig)
      "/work/src/a.ts" = true ∧ ModuleId.isDeclarationFile "/work/src/a.ts" = false := by
    decide +kernel
  exact (@generate_of_globalError (smallSurroundings .faultless) smallConfig _ _ _ _ _ _
    (completes_printing _) h_printed h_read ⟨_, List.mem_singleton_self _, rfl⟩).1
      ⟨_, List.mem_singleton_self _, h_bundled⟩

/-- **An error about no file does not end every run.** A compiler that gives up at once lists no
file, so nothing asks for its errors. The parser makes no difference, as there is nothing to
read. -/
theorem not_forall_outcome_eq_error :
    ¬ ∀ (s : Surroundings) (config : Config) (parse : Parser) (machine : Machine)
        (invocation : Invocation) (completion : Completion) (printed : String) (listing : Listing),
      Compiler.Completes machine config (roots s.cwd config) invocation completion →
      completion.printed = .ok printed → Listing.read config.baseDir printed = .ok listing →
      (∃ d ∈ listing.diagnostics, d.file = none) →
      ∃ failure, (generate s config (Compiler.compile parse machine s.cwd config)).outcome
        = .error failure := by
  intro h
  have h_printed : (printout unknownOptionLine).printed = .ok unknownOptionLine := by
    decide +kernel
  have h_read : Listing.read smallConfig.baseDir unknownOptionLine
      = .ok ⟨[], [unknownOption], []⟩ := by
    decide +kernel
  have h_ok : (generate (smallSurroundings .faultless) smallConfig
      (Compiler.compile Syntax.parse (printing unknownOptionLine) "/work"
        smallConfig)).outcome.isOk = true := by
    decide +kernel
  obtain ⟨failure, h_error⟩ := h (smallSurroundings .faultless) smallConfig Syntax.parse _ _ _ _ _
    (completes_printing unknownOptionLine) h_printed h_read ⟨_, List.mem_singleton_self _, rfl⟩
  exact absurd (h_ok.symm.trans (congrArg Except.isOk h_error)) Bool.noConfusion

end Bundle

end DeclarationBundle
