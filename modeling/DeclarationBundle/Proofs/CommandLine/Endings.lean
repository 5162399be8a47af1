import DeclarationBundle.CommandLine.Session
import DeclarationBundle.Proofs.Bundle.Unreported
import DeclarationBundle.Syntax.Tree

/-!
# How the bundling command ends

A session of the command ends well, with a report or a help page (`Session.EndsWell`), or with a
message about what went wrong (`Session.Complains`), unless it breaks off (`Session.BreaksOff`).
`Session.bundle_ends` says when it breaks off. What the command overlooks (`Session.Overlooked`) is,
in the order in which a session comes to it:

* the value of an option that is a path with a null character in it;
* an options file whose values are nested too deep, or whose base directory is no path;
* patterns that lead too deep into the directories;
* a compiler that something unforeseen happens with (`Compiler.Stumbles`);
* an output path that is too deep or has a null character in it;
* a bundled file that cannot be read, or a declaration that cannot be moved to its block.

Everything else that can go wrong has a message. Each stage has a theorem of its own that says which
of its errors have none: `Session.findSome?_eq_nullPath_iff` for the options,
`Options.load_unreported_iff` for the options file, `Options.toConfig_unreported_iff` for the merged
options, and `Bundle.outcome_unreported_iff` for the run. A session goes through these stages one
after the other, and the first error decides how it ends.
-/

namespace DeclarationBundle

/-! ### The options file -/

namespace Options

/-- **The text of an options file.** -/
def HasText (t : FileTree) (cwd path text : String) : Prop :=
  ∃ bytes, t.read cwd (Path.tidy path) = .ok bytes ∧ Utf8.decode bytes = .ok text

/-- **The base directory that some options give is no path**: it is there and not empty, and it is
no string. -/
structure GivesNoPath (text : String) (value : Json) : Prop where
  holds : ∃ members, Json.read (Text.withLineFeeds text) = .ok (.object members) ∧
    Json.getMember? members "base_dir" = some value
  given : value.isEmptyLike = false
  notText : ∀ base, value ≠ .string base
  notBroken : ∀ codes, value ≠ .brokenText codes

/-- A base directory is refused only if it is no string. A string that is no text is kept, since it
can still be put together with the directory of the file. -/
theorem anchor_eq_error_iff {path : String} {members : Config.Members} {error : LoadError} :
    anchor path members = .error error ↔ ∃ value,
      Json.getMember? members "base_dir" = some value ∧ value.isEmptyLike = false ∧
        (∀ base, value ≠ .string base) ∧ (∀ codes, value ≠ .brokenText codes) ∧
        error = .notPath (typeName value) := by
  unfold anchor
  constructor
  · intro h
    split at h
    · cases h
    next value h_member =>
    split at h
    · cases h
    next h_given =>
    split at h
    · split at h <;> cases h
    · cases h
    · next h_text h_broken =>
      cases h
      exact ⟨value, h_member, by simpa using h_given, h_text, h_broken, rfl⟩
  · rintro ⟨value, h_member, h_given, h_text, h_broken, rfl⟩
    simp only [h_member, h_given]
    -- a string and a broken string are set apart, and any other value is refused with its type
    cases value with
    | string base => exact absurd rfl (h_text base)
    | brokenText codes => exact absurd rfl (h_broken codes)
    | _ => rfl

/-- What is wrong with the text of an options file is reported, unless its base directory is no
path. -/
theorem ofText_unreported_iff {path text : String} {error : LoadError} :
    ofText path text = .error error ∧ error.isReported = false ↔
      ∃ value, GivesNoPath text value ∧ error = .notPath (typeName value) := by
  unfold ofText
  constructor
  · rintro ⟨h, h_reported⟩
    split at h
    · cases h
      cases h_reported
    · next members h_object =>
      obtain ⟨value, h_member, h_given, h_text, h_broken, rfl⟩ := anchor_eq_error_iff.1 h
      exact ⟨value, ⟨⟨members, h_object, h_member⟩, h_given, h_text, h_broken⟩, rfl⟩
    · cases h
      cases h_reported
  · rintro ⟨value, ⟨⟨members, h_object, h_member⟩, h_given, h_text, h_broken⟩, rfl⟩
    simp only [h_object]
    exact ⟨anchor_eq_error_iff.2 ⟨value, h_member, h_given, h_text, h_broken, rfl⟩, rfl⟩

/-- **What is overlooked in an options file**: values that are nested too deep for the stack, and a
base directory that is no path. -/
theorem load_unreported_iff {stack : Stack} {t : FileTree} {cwd : String} {file : Option String}
    {error : LoadError} :
    load stack t cwd file = .error error ∧ error.isReported = false ↔
      ∃ path text, file = some path ∧ HasText t cwd path text ∧
        (stack.overflows (.values text) = true ∧ error = .overflow ∨
          stack.overflows (.values text) = false ∧
            ∃ value, GivesNoPath text value ∧ error = .notPath (typeName value)) := by
  constructor
  · rintro ⟨h, h_reported⟩
    unfold load at h
    split at h
    · cases h
    next path =>
    dsimp only at h
    split at h
    · cases h
      cases h_reported
    · cases h
      cases h_reported
    next bytes h_bytes =>
    split at h
    · cases h
      cases h_reported
    next text h_text =>
    refine ⟨path, text, rfl, ⟨bytes, h_bytes, h_text⟩, ?_⟩
    -- the text is there, and it is parsed if the stack is deep enough
    cases h_stack : stack.overflows (.values text) with
    | true =>
      rw [if_pos h_stack] at h
      cases h
      exact .inl ⟨rfl, rfl⟩
    | false =>
      rw [if_neg (by simp [h_stack])] at h
      exact .inr ⟨rfl, ofText_unreported_iff.1 ⟨h, h_reported⟩⟩
  · rintro ⟨path, text, rfl, ⟨bytes, h_bytes, h_text⟩, h_why⟩
    unfold load
    simp only [h_bytes, h_text]
    rcases h_why with ⟨h_stack, rfl⟩ | ⟨h_stack, h_value⟩
    · rw [if_pos h_stack]
      exact ⟨rfl, rfl⟩
    · rw [if_neg (by simp [h_stack])]
      exact ofText_unreported_iff.2 h_value

/-! ### The merged options -/

section Merging

variable {stack : Stack} {t : FileTree} {cwd : String} {options overrides : Config.Members}
  {config : Config} {error : MergeError}

/-- **The merged options write a configuration**, whose patterns are still to be expanded. -/
def Merges (cwd : String) (options overrides : Config.Members) (config : Config) : Prop :=
  Config.ofJson cwd (.object (setDefault (override options overrides) "base_dir" (.string cwd)))
    = .ok config

/-- **What is overlooked in the merged options**: patterns that lead too deep for the stack. -/
theorem toConfig_unreported_iff :
    toConfig stack t cwd options overrides = .error error ∧ error.isReported = false ↔
      error = .overflow ∧ ∃ config, Merges cwd options overrides config ∧
        stack.overflows (.patterns config.baseDir config.files) = true := by
  unfold toConfig Merges
  constructor
  · rintro ⟨h, h_reported⟩
    split at h
    · next config h_config =>
      -- the configuration is valid, and its patterns are expanded if the stack is deep enough
      unfold expand at h
      split at h
      · next h_stack =>
        cases h
        exact ⟨rfl, config, h_config, h_stack⟩
      · split at h <;> cases h
        cases h_reported
    · cases h
      cases h_reported
  · rintro ⟨rfl, config, h_config, h_stack⟩
    refine ⟨?_, rfl⟩
    simp only [h_config, expand, if_pos h_stack]

/-- The base directory of a configuration is absolute: validation makes it so, and the expansion of
the patterns leaves it alone. -/
theorem isAbsolute_baseDir (h_cwd : Path.isAbsolute cwd = true)
    (h : toConfig stack t cwd options overrides = .ok config) :
    Path.isAbsolute config.baseDir = true := by
  unfold toConfig at h
  generalize setDefault (override options overrides) "base_dir" (.string cwd) = members at h
  unfold Config.ofJson at h
  dsimp only at h
  cases h_wrong : Config.violations members with
  | nil =>
    simp only [h_wrong, expand] at h
    split at h
    · cases h
    split at h
    · cases h
    obtain rfl := Except.ok.inj h
    simp only [Config.ofMembers]
    exact Path.isAbsolute_absolute h_cwd _
  | cons v wrong =>
    simp only [h_wrong] at h
    cases h

end Merging

end Options

namespace CommandLine.Session

variable {w : Workplace} {level : Option LogLevel} {arguments : List String} {a : Arguments}
  {config : Config}

/-! ### What can be seen of a session -/

/-- **The arguments reach the command**: they are in order, and they do not ask for help. -/
structure Reaches (w : Workplace) (arguments : List String) (a : Arguments) : Prop where
  parsed : Arguments.parse bundleSwitches false arguments = .ok a
  noHelp : a.value? "help" = none
  noFault : a.keys.findSome? (optionFault? w a) = none

/-- **A session comes to its run** with some configuration. -/
def Configures (w : Workplace) (arguments : List String) (config : Config) : Prop :=
  ∃ a, Reaches w arguments a ∧ configOf w a = .ok config

/-- What comes of the compiler in the run of a session. -/
def compilationOf (w : Workplace) (config : Config) : Compilation :=
  Compiler.compile w.parse w.machine w.cwd config (Bundle.roots w.cwd config)

/-- **A session ends well**: it shows the help page it was asked for, or the report about the bundle
that was written. -/
structure EndsWell (w : Workplace) (arguments : List String) (s : Session) : Prop where
  exitCode : s.exitCode = 0
  crash : s.crash = none
  stderr : s.stderr = []
  stdout : (∃ a, Arguments.parse bundleSwitches false arguments = .ok a ∧ a.value? "help" ≠ none ∧
      s.stdout = (bundleHelp w).lines) ∨
    ∃ config summary, Configures w arguments config ∧
      (runOf w config).outcome = .ok summary ∧ summaryLines summary <:+ s.stdout

/-- **A session complains**: it fails with a message about what went wrong. -/
structure Complains (s : Session) : Prop where
  exitCode : s.exitCode ≠ 0
  crash : s.crash = none
  message : ∃ line ∈ s.stderr,
    Text.startsWith line "Error: " = true ∨ Text.startsWith line "❌ " = true

/-- **What the command overlooks**, in the order in which a session comes to it. -/
inductive Overlooked (w : Workplace) (arguments : List String) : Crash → Prop
  /-- The value of an option that is to be a path has a null character in it, and nothing is at
  fault with the options given before it. -/
  | nullArgument {a : Arguments} {before after : List String} {key path : String}
      (h_parsed : Arguments.parse bundleSwitches false arguments = .ok a)
      (h_noHelp : a.value? "help" = none) (h_keys : a.keys = before ++ key :: after)
      (h_before : ∀ earlier ∈ before, optionFault? w a earlier = none) (h_key : key ∈ pathKeys)
      (h_value : a.value? key = some path) (h_null : Path.hasNull path = true) :
      Overlooked w arguments .nullArgument
  /-- The values in the options file are nested too deep. -/
  | optionsTooDeep {a : Arguments} {path text : String} (h_reaches : Reaches w arguments a)
      (h_file : a.value? "config" = some path) (h_text : Options.HasText w.tree w.cwd path text)
      (h_deep : w.stack.overflows (.values text) = true) :
      Overlooked w arguments (.configuring (.loading .overflow))
  /-- The base directory in the options file is no path. -/
  | baseDir {a : Arguments} {path text : String} {value : Json} (h_reaches : Reaches w arguments a)
      (h_file : a.value? "config" = some path) (h_text : Options.HasText w.tree w.cwd path text)
      (h_fits : w.stack.overflows (.values text) = false)
      (h_value : Options.GivesNoPath text value) :
      Overlooked w arguments (.configuring (.loading (.notPath (Options.typeName value))))
  /-- The search for the patterns leads too deep. -/
  | patternsTooDeep {a : Arguments} {options given : Config.Members} {config : Config}
      (h_reaches : Reaches w arguments a)
      (h_options : Options.load w.stack w.tree w.cwd (a.value? "config") = .ok options)
      (h_given : overrides a = .ok given) (h_config : Options.Merges w.cwd options given config)
      (h_deep : w.stack.overflows (.patterns config.baseDir config.files) = true) :
      Overlooked w arguments (.configuring (.merging .overflow))
  /-- Something unforeseen happens with the compiler. -/
  | compiler {config : Config} {error : CompileError} (h_config : Configures w arguments config)
      (h_stumbles : Compiler.Stumbles w.machine config (Bundle.roots w.cwd config) error) :
      Overlooked w arguments (.bundling (.compiling error))
  /-- The directories above the output are too many. -/
  | outputTooDeep {config : Config} {program : Program} (h_config : Configures w arguments config)
      (h_program : (compilationOf w config).program = .ok program)
      (h_deep : w.stack.overflows (.directories config.out) = true) :
      Overlooked w arguments (.bundling .overflow)
  /-- The output cannot be opened, since there is a null character in its path. -/
  | nullOutput {config : Config} {program : Program} (h_config : Configures w arguments config)
      (h_program : (compilationOf w config).program = .ok program)
      (h_fits : w.stack.overflows (.directories config.out) = false)
      (h_null : w.tree.openFresh w.cwd config.out = .error .null) :
      Overlooked w arguments (.bundling .nullPath)
  /-- The run comes to a file that something is at fault with which the compiler does not say: a
  declaration file that cannot be read, or a module that cannot be moved to its block. -/
  | file {config : Config} {program : Program} {tree : FileTree} {place : Place}
      {before : List (SourceFile × Section)} {source : SourceFile} {failure : Failure}
      (h_config : Configures w arguments config)
      (h_program : (compilationOf w config).program = .ok program)
      (h_open : Bundle.openOutput w.surroundings config.out = .ok (tree, place))
      (h_comes : Bundle.ComesTo w.behaviour w.cwd config program
        (Bundle.hostOf w.surroundings tree) before source)
      (h_fault : Bundle.Fault config program (Bundle.hostOf w.surroundings tree) source failure)
      (h_other : ∀ diagnostics, failure ≠ .rejected diagnostics) :
      Overlooked w arguments (.bundling failure)

/-- **A session breaks off**: it fails without a message, at something that is overlooked. -/
structure BreaksOff (w : Workplace) (arguments : List String) (s : Session) : Prop where
  exitCode : s.exitCode = 1
  stderr : s.stderr = []
  crash : ∃ crash, Overlooked w arguments crash ∧ s.crash = some crash

/-! ### Configurations -/

/-- The arguments of a session are determined by what it is given. -/
theorem Reaches.unique {a' : Arguments} (h : Reaches w arguments a) (h' : Reaches w arguments a') :
    a = a' :=
  Except.ok.inj (h.parsed.symm.trans h'.parsed)

/-- So is the configuration that it runs with. -/
theorem Configures.unique {config' : Config} (h : Configures w arguments config)
    (h' : Configures w arguments config') : config = config' := by
  obtain ⟨a, h_reaches, h_config⟩ := h
  obtain ⟨a', h_reaches', h_config'⟩ := h'
  obtain rfl := h_reaches.unique h_reaches'
  exact Except.ok.inj (h_config.symm.trans h_config')

/-- **The null character in the value of an option comes out** where the first fault of the options
is one. -/
theorem findSome?_eq_nullPath_iff :
    a.keys.findSome? (optionFault? w a) = some .nullPath ↔
      ∃ before key after path, a.keys = before ++ key :: after ∧
        (∀ earlier ∈ before, optionFault? w a earlier = none) ∧ key ∈ pathKeys ∧
        a.value? key = some path ∧ Path.hasNull path = true := by
  have h_key : ∀ key, optionFault? w a key = some .nullPath ↔
      ∃ path, key ∈ pathKeys ∧ a.value? key = some path ∧ Path.hasNull path = true := by
    intro key
    unfold optionFault?
    cases a.value? key with
    | none => simp
    | some path => simp
  -- options are looked at in the order in which they were given
  rw [List.findSome?_eq_some_iff]
  constructor
  · rintro ⟨before, key, after, h_keys, h_fault, h_before⟩
    obtain ⟨path, h_mem, h_value, h_null⟩ := (h_key key).1 h_fault
    exact ⟨before, key, after, path, h_keys, h_before, h_mem, h_value, h_null⟩
  · rintro ⟨before, key, after, path, h_keys, h_before, h_mem, h_value, h_null⟩
    exact ⟨before, key, after, h_keys, (h_key key).2 ⟨path, h_mem, h_value, h_null⟩, h_before⟩

/-- **The stages of a configuration**: there is one if the options can be loaded, the words of the
compiler can be split, and the merged options write one; and else the first of these that fails has
the error. -/
theorem configOf_cases (w : Workplace) (a : Arguments) :
    (∃ error, Options.load w.stack w.tree w.cwd (a.value? "config") = .error error ∧
        configOf w a = .error (.loading error)) ∨
      ∃ options, Options.load w.stack w.tree w.cwd (a.value? "config") = .ok options ∧
        ((∃ error, overrides a = .error error ∧ configOf w a = .error (.words error)) ∨
          ∃ given, overrides a = .ok given ∧ configOf w a
            = (Options.toConfig w.stack w.tree w.cwd options given).mapError .merging) := by
  unfold configOf
  cases Options.load w.stack w.tree w.cwd (a.value? "config") with
  | error error => exact .inl ⟨error, rfl, rfl⟩
  | ok options =>
    cases overrides a with
    | error error => exact .inr ⟨options, rfl, .inl ⟨error, rfl, rfl⟩⟩
    | ok given => exact .inr ⟨options, rfl, .inr ⟨given, rfl, rfl⟩⟩

/-- Whatever the arguments say, the base directory of a session is absolute. -/
theorem isAbsolute_baseDir (h_cwd : Path.isAbsolute w.cwd = true)
    (h : configOf w a = .ok config) : Path.isAbsolute config.baseDir = true := by
  rcases configOf_cases w a with
    ⟨_, -, h_error⟩ | ⟨options, -, ⟨_, -, h_error⟩ | ⟨given, -, h_merged⟩⟩
  · cases h.symm.trans h_error
  · cases h.symm.trans h_error
  · rw [h_merged] at h
    cases h_config : Options.toConfig w.stack w.tree w.cwd options given with
    | error error =>
      rw [h_config] at h
      cases h
    | ok merged =>
      rw [h_config] at h
      cases h
      exact Options.isAbsolute_baseDir h_cwd h_config

/-- **The errors of a configuration that the command overlooks.** The words of the compiler are not
among them: whatever is wrong with their quotes is reported. -/
theorem configOf_unreported_iff {error : ConfigError} (h_reaches : Reaches w arguments a) :
    configOf w a = .error error ∧ error.isReported = false ↔
      Overlooked w arguments (.configuring error) := by
  constructor
  · -- stage by stage: the options file, the words of the compiler, the merged options
    rintro ⟨h, h_reported⟩
    rcases configOf_cases w a with
      ⟨failed, h_load, h_error⟩ | ⟨options, h_options, ⟨_, -, h_error⟩ | ⟨given, h_given, h_merged⟩⟩
    · cases h.symm.trans h_error
      obtain ⟨path, text, h_file, h_text, ⟨h_deep, rfl⟩ | ⟨h_fits, value, h_value, rfl⟩⟩ :=
        Options.load_unreported_iff.1 ⟨h_load, h_reported⟩
      · exact .optionsTooDeep h_reaches h_file h_text h_deep
      · exact .baseDir h_reaches h_file h_text h_fits h_value
    · cases h.symm.trans h_error
      cases h_reported
    · rw [h_merged] at h
      cases h_config : Options.toConfig w.stack w.tree w.cwd options given with
      | ok merged =>
        rw [h_config] at h
        cases h
      | error wrong =>
        rw [h_config] at h
        cases h
        obtain ⟨rfl, config, h_merges, h_deep⟩ :=
          Options.toConfig_unreported_iff.1 ⟨h_config, h_reported⟩
        exact .patternsTooDeep h_reaches h_options h_given h_merges h_deep
  · -- an error of the options file comes first, so it is the error of the configuration
    have h_loading : ∀ failed : Options.LoadError,
        Options.load w.stack w.tree w.cwd (a.value? "config") = .error failed →
          configOf w a = .error (.loading failed) := by
      intro failed h_load
      unfold configOf
      rw [h_load]
      rfl
    intro h
    cases h with
    | optionsTooDeep h_reaches' h_file h_text h_deep =>
      obtain rfl := h_reaches.unique h_reaches'
      exact ⟨h_loading _ (Options.load_unreported_iff.2
        ⟨_, _, h_file, h_text, .inl ⟨h_deep, rfl⟩⟩).1, rfl⟩
    | baseDir h_reaches' h_file h_text h_fits h_value =>
      obtain rfl := h_reaches.unique h_reaches'
      exact ⟨h_loading _ (Options.load_unreported_iff.2
        ⟨_, _, h_file, h_text, .inr ⟨h_fits, _, h_value, rfl⟩⟩).1, rfl⟩
    | patternsTooDeep h_reaches' h_options h_given h_merges h_deep =>
      obtain rfl := h_reaches.unique h_reaches'
      refine ⟨?_, rfl⟩
      unfold configOf
      rw [h_options, h_given]
      have h_merged := (@Options.toConfig_unreported_iff w.stack w.tree w.cwd _ _ _).2
        ⟨rfl, _, h_merges, h_deep⟩
      simp [Except.mapError, bind, Except.bind, h_merged.1]

/-! ### Runs -/

/-- What is said about a run that failed begins with a mark. -/
theorem startsWith_failureLines (failure : Failure) :
    ∃ line ∈ failureLines config failure, Text.startsWith line "❌ " = true := by
  unfold failureLines
  split
  · exact ⟨_, List.mem_cons_self, Text.startsWith_iff.2 ⟨_, rfl⟩⟩
  · refine ⟨_, List.mem_cons_self,
      Text.startsWith_iff.2 ⟨"Bundling failed: " ++ failure.message, ?_⟩⟩
    exact @String.append_assoc "❌ " "Bundling failed: " _

/-- A session that is aborted with a marked line complains. -/
theorem complains_aborted {s : Session} {lines : List String} (h_crash : s.crash = none)
    (h_lines : ∃ line ∈ lines, Text.startsWith line "❌ " = true) :
    Complains (s.aborted lines) := by
  obtain ⟨line, h_line, h_start⟩ := h_lines
  refine ⟨Nat.one_ne_zero, h_crash, line, ?_, .inr h_start⟩
  simp [aborted, h_line]

/-- A command that is misused complains, with its usage before the error. -/
theorem complains_misused (command : String) (help : Help) (error : UsageError) :
    Complains (misused w level command help error) := by
  refine ⟨by simp [misused], rfl, "Error: " ++ error.message, ?_,
    .inl (Text.startsWith_iff.2 ⟨_, rfl⟩)⟩
  simp [misused]

/-- **The failures of a run that the command overlooks.** -/
theorem outcome_runOf_unreported_iff {failure : Failure} (h_cwd : Path.isAbsolute w.cwd = true)
    (h : Configures w arguments config) :
    (runOf w config).outcome = .error failure ∧ failure.isReported = false ↔
      Overlooked w arguments (.bundling failure) := by
  -- this is why the sources have a common directory, whatever the compiler lists
  have h_base : Path.isAbsolute config.baseDir = true := by
    obtain ⟨a, -, h_config⟩ := h
    exact isAbsolute_baseDir h_cwd h_config
  unfold runOf
  rw [Bundle.outcome_unreported_iff, Compiler.program_unreported_iff h_base]
  simp only [Bundle.openOutput_unreported_iff]
  constructor
  · rintro (⟨error, h_stumbles, rfl⟩ | ⟨program, h_program,
      (⟨h_deep, rfl⟩ | ⟨h_fits, h_null, rfl⟩) |
        ⟨tree, place, before, source, h_open, h_comes, h_fault, h_other⟩⟩)
    · exact .compiler h h_stumbles
    · exact .outputTooDeep h h_program h_deep
    · exact .nullOutput h h_program h_fits h_null
    · exact .file h h_program h_open h_comes h_fault h_other
  · -- each cause names a configuration, and a session has only one
    intro h_overlooked
    cases h_overlooked with
    | compiler h' h_stumbles =>
      obtain rfl := h.unique h'
      exact .inl ⟨_, h_stumbles, rfl⟩
    | outputTooDeep h' h_program h_deep =>
      obtain rfl := h.unique h'
      exact .inr ⟨_, h_program, .inl (.inl ⟨h_deep, rfl⟩)⟩
    | nullOutput h' h_program h_fits h_null =>
      obtain rfl := h.unique h'
      exact .inr ⟨_, h_program, .inl (.inr ⟨h_fits, h_null, rfl⟩)⟩
    | file h' h_program h_open h_comes h_fault h_other =>
      obtain rfl := h.unique h'
      exact .inr ⟨_, h_program, .inr ⟨_, _, _, _, h_open, h_comes, h_fault, h_other⟩⟩

/-- The session of a run is what is said about its report. -/
theorem bundleConfig_eq :
    bundleConfig w level config = ofReport level config (runOf w config) :=
  rfl

/-- How a session ends that has come to its run. The three ways are those of its outcome: a summary,
a failure with a message, a failure without one. -/
theorem ends_bundleConfig (h_cwd : Path.isAbsolute w.cwd = true)
    (h : Configures w arguments config) :
    EndsWell w arguments (bundleConfig w level config) ∨ Complains (bundleConfig w level config) ∨
      BreaksOff w arguments (bundleConfig w level config) := by
  rw [bundleConfig_eq]
  -- a run ends with a summary, with a failure that has a message, or with one that has none
  cases h_outcome : (runOf w config).outcome with
  | ok summary =>
    refine .inl ⟨?_, ?_, ?_, .inr ⟨config, summary, h, h_outcome, ?_⟩⟩
    all_goals simp only [ofReport, h_outcome]
    exact List.suffix_append _ _
  | error failure =>
    cases h_reported : failure.isReported with
    | true =>
      refine .inr (.inl ?_)
      simp only [ofReport, h_outcome, h_reported, if_true]
      exact complains_aborted rfl (startsWith_failureLines failure)
    | false =>
      have h_overlooked := (outcome_runOf_unreported_iff h_cwd h).1 ⟨h_outcome, h_reported⟩
      refine .inr (.inr ⟨?_, ?_, .bundling failure, h_overlooked, ?_⟩)
      all_goals simp [ofReport, h_outcome, h_reported, crashed]

/-! ### Sessions -/

/-- The session of arguments that reach the command. -/
theorem bundle_eq_bundleArguments (h_reaches : Reaches w arguments a) :
    bundle w level arguments = bundleArguments w level a := by
  unfold bundle
  simp [h_reaches.parsed, h_reaches.noHelp, h_reaches.noFault]

/-- A configuration that is refused ends a session with a message or without one, as its error is
reported or overlooked. -/
theorem ends_bundleArguments (h_cwd : Path.isAbsolute w.cwd = true)
    (h_reaches : Reaches w arguments a) :
    EndsWell w arguments (bundleArguments w level a) ∨ Complains (bundleArguments w level a) ∨
      BreaksOff w arguments (bundleArguments w level a) := by
  unfold bundleArguments
  split
  · next config h_config => exact ends_bundleConfig h_cwd ⟨a, h_reaches, h_config⟩
  next error h_config =>
  cases h_reported : error.isReported with
  | true =>
    refine .inr (.inl ?_)
    rw [if_pos rfl]
    refine complains_aborted rfl ⟨_, List.mem_singleton_self _, ?_⟩
    rw [Text.startsWith_iff]
    exact ⟨"Invalid configuration: " ++ error.message,
      @String.append_assoc "❌ " "Invalid configuration: " _⟩
  | false =>
    rw [if_neg Bool.false_ne_true]
    have h_overlooked := (configOf_unreported_iff h_reaches).1 ⟨h_config, h_reported⟩
    exact .inr (.inr ⟨rfl, rfl, _, h_overlooked, rfl⟩)

/-- Whatever is overlooked in a configuration crashes the command. -/
theorem crash_of_configuring {error : ConfigError} (h_reaches : Reaches w arguments a)
    (h : Overlooked w arguments (.configuring error)) :
    (bundle w level arguments).crash = some (.configuring error) := by
  obtain ⟨h_config, h_reported⟩ := (configOf_unreported_iff h_reaches).2 h
  rw [bundle_eq_bundleArguments h_reaches]
  unfold bundleArguments
  simp [h_config, h_reported, crashed]

/-- Whatever is overlooked in a run crashes the command. -/
theorem crash_of_bundling {failure : Failure} (h_cwd : Path.isAbsolute w.cwd = true)
    (h_config : Configures w arguments config) (h : Overlooked w arguments (.bundling failure)) :
    (bundle w level arguments).crash = some (.bundling failure) := by
  obtain ⟨h_outcome, h_reported⟩ := (outcome_runOf_unreported_iff h_cwd h_config).2 h
  obtain ⟨a, h_reaches, h_config⟩ := h_config
  rw [bundle_eq_bundleArguments h_reaches]
  unfold bundleArguments
  simp only [h_config, bundleConfig_eq]
  simp [ofReport, h_outcome, h_reported, crashed]

/-- **What is overlooked crashes the command.** There is one stage for each of the crashes, and what
is overlooked at one comes after everything else has gone well. -/
theorem crash_of_overlooked {crash : Crash} (h_cwd : Path.isAbsolute w.cwd = true)
    (h : Overlooked w arguments crash) : (bundle w level arguments).crash = some crash := by
  -- kept whole for the stage that it belongs to
  have h_overlooked := h
  cases h with
  | nullArgument h_parsed h_noHelp h_keys h_before h_key h_value h_null =>
    have h_fault := (@findSome?_eq_nullPath_iff w _).2
      ⟨_, _, _, _, h_keys, h_before, h_key, h_value, h_null⟩
    unfold bundle
    simp [h_parsed, h_noHelp, h_fault, crashed]
  | optionsTooDeep h_reaches => exact crash_of_configuring h_reaches h_overlooked
  | baseDir h_reaches => exact crash_of_configuring h_reaches h_overlooked
  | patternsTooDeep h_reaches => exact crash_of_configuring h_reaches h_overlooked
  | compiler h_config => exact crash_of_bundling h_cwd h_config h_overlooked
  | outputTooDeep h_config => exact crash_of_bundling h_cwd h_config h_overlooked
  | nullOutput h_config => exact crash_of_bundling h_cwd h_config h_overlooked
  | file h_config => exact crash_of_bundling h_cwd h_config h_overlooked

/-- **How the command ends.** It ends well or complains, unless it breaks off; and it breaks off at
whatever is overlooked. The files, the arguments, the machine that the compiler runs on, the parser,
the stream behind the output and the stack may be any. -/
theorem bundle_ends (h_cwd : Path.isAbsolute w.cwd = true) (level : Option LogLevel)
    (arguments : List String) :
    (EndsWell w arguments (bundle w level arguments) ∨ Complains (bundle w level arguments) ∨
      BreaksOff w arguments (bundle w level arguments)) ∧
    ∀ crash, Overlooked w arguments crash → (bundle w level arguments).crash = some crash := by
  refine ⟨?_, fun crash => crash_of_overlooked h_cwd⟩
  -- the stages of a session, each of which may be its last
  cases h_parse : Arguments.parse bundleSwitches false arguments with
  | error error =>
    unfold bundle
    simp only [h_parse]
    exact .inr (.inl (complains_misused _ _ _))
  | ok a =>
    cases h_help : a.value? "help" with
    | some text =>
      refine .inl ?_
      unfold bundle
      simp only [h_parse, h_help, Option.isSome_some, if_true]
      exact ⟨rfl, rfl, rfl, .inl ⟨a, h_parse, by simp [h_help], rfl⟩⟩
    | none =>
      cases h_fault : a.keys.findSome? (optionFault? w a) with
      | none =>
        have h_reaches : Reaches w arguments a := ⟨h_parse, h_help, h_fault⟩
        rw [bundle_eq_bundleArguments h_reaches]
        exact ends_bundleArguments h_cwd h_reaches
      | some fault =>
        unfold bundle
        simp only [h_parse, h_help, h_fault]
        cases fault with
        | misuse error => exact .inr (.inl (complains_misused _ _ _))
        | nullPath =>
          obtain ⟨before, key, after, path, h_keys, h_before, h_key, h_value, h_null⟩ :=
            findSome?_eq_nullPath_iff.1 h_fault
          exact .inr (.inr ⟨rfl, rfl, .nullArgument,
            .nullArgument h_parse h_help h_keys h_before h_key h_value h_null, rfl⟩)

/-- A workplace whose options file has a number where the base directory should be. -/
def numberPlace : Workplace where
  program := "dtsbundle"
  cwd := "/work"
  tree := FileTree.empty.put ["work", "c.json"] (.file (Utf8.encode "\x7b\"base_dir\": 5\x7d"))
  machine :=
    { locate := fun _ => none, scratchPath := .ok "/tmp/out"
      run := fun _ => .error ⟨.noEntry, none⟩, removal := fun _ => none }
  parse := Syntax.parse
  behaviour := .faultless
  stack := .unbounded

/-- Arguments that name that options file. -/
def numberArguments : List String :=
  ["--config", "c.json", "--name", "pkg", "--out", "o.d.ts"]

/-- The number is read, and then nothing can be done with it. -/
theorem crash_number :
    (bundle numberPlace (some .warning) numberArguments).crash
      = some (.configuring (.loading (.notPath "int"))) := by
  decide +kernel

/-- So this session breaks off: it neither ends well nor complains. -/
theorem bundle_ends_number :
    BreaksOff numberPlace numberArguments
      (bundle numberPlace (some .warning) numberArguments) := by
  have h_ends := (@bundle_ends numberPlace (by decide +kernel) (some .warning) numberArguments).1
  rcases h_ends with h_well | h_complains | h_breaksOff
  · cases crash_number.symm.trans h_well.crash
  · cases crash_number.symm.trans h_complains.crash
  · exact h_breaksOff

/-- **Not every failure of the command is reported.** -/
theorem not_forall_endsWell_or_complains :
    ¬ ∀ (w : Workplace) (level : Option LogLevel) (arguments : List String),
      Path.isAbsolute w.cwd = true →
      EndsWell w arguments (bundle w level arguments) ∨ Complains (bundle w level arguments) := by
  intro h
  rcases h numberPlace (some .warning) numberArguments (by decide +kernel) with h_well | h_complains
  · cases crash_number.symm.trans h_well.crash
  · cases crash_number.symm.trans h_complains.crash

end CommandLine.Session

end DeclarationBundle
