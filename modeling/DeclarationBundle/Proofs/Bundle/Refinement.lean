import DeclarationBundle.Proofs.Bundle.Agreement
import DeclarationBundle.Proofs.Compiler.Complaints
import DeclarationBundle.Proofs.Compiler.Layout
import DeclarationBundle.Proofs.Compiler.Listing
import DeclarationBundle.Proofs.Text.Encoding

/-!
# A compiler run is as good as a program in memory

A compiler lists its files as text and writes declarations to a directory of its own. A program in
memory has both at hand (`Program.inMemory`). If the compiler has nothing to complain about and
leaves behind what it should (`Compiler.Leaves`), a bundling run cannot tell the two apart:
`Bundle.generate_of_leaves`.

On the way from the file to the text that was written for it, nothing is dropped, merged or
misplaced: the listing is read back as it was printed, the place that a declaration file is looked
for at is the way down from the common root, and no two files of the directory are known by one
place (`Compiler.exists_declarationsAmong_eq_ok`).
-/

namespace DeclarationBundle

/-- **A program in memory**: it emits a text for every file, as a parser reads it, and has nothing
to say against any. -/
def Program.inMemory (parse : Parser) (files : List String) (texts : String → String) :
    Program where
  files := files.map (⟨·, none⟩)
  emit := fun file => ⟨false, [], some (.parsed parse (Layout.declarationName file) (texts file))⟩
  diagnostics := fun _ _ => []

namespace Compiler

/-! ### What a compiler wrote -/

/-- Places are told apart by their paths if no name holds a slash. Of one of them it is known that
its names are proper, of the other only that none of them has a slash in it, since a compiler may
name its files as it likes. -/
theorem eq_of_intercalate_eq {place other : Place} (h_place : ∀ n ∈ place, Path.IsName n)
    (h_ne : place ≠ []) (h_other : ∀ n ∈ other, '/' ∉ n.toList)
    (h : "/".intercalate other = "/".intercalate place) : other = place := by
  have h_slash : ∀ n ∈ place, '/' ∉ n.toList := fun n hn => (h_place n hn).2.2.2
  have h_segments := congrArg Path.segments h
  rw [Path.segments_intercalate h_slash h_ne] at h_segments
  by_cases h_nil : other = []
  · -- the path of the root is one empty segment, which is no name
    subst h_nil
    rw [← h_segments] at h_place
    exact absurd rfl (h_place "" (by decide)).1
  · rwa [Path.segments_intercalate h_other h_nil] at h_segments

/-- **The declaration files among some entries are known by their places**, with their texts. -/
def AreKnown (entries : List (Place × Entry)) (declared : List (String × String)) : Prop :=
  ∀ place bytes text, place ≠ [] → (∀ n ∈ place, Path.IsName n) →
    ModuleId.isDeclarationFile ("/".intercalate place) = true →
    entries.lookup place = some (.file bytes) → Utf8.decodeMarked bytes = .ok text →
    declared.lookup ("/".intercalate place) = some text

section Known

variable {entries : List (Place × Entry)} {declared : List (String × String)} {other : Place}

/-- An entry that is no declaration file is passed over: it does not hide one behind it, since no
declaration file has its place. -/
theorem AreKnown.skip (h : AreKnown entries declared) {entry : Entry}
    (h_other : ModuleId.isDeclarationFile ("/".intercalate other) = true →
      ∀ bytes, entry ≠ .file bytes) : AreKnown ((other, entry) :: entries) declared := by
  intro place bytes text h_ne h_names h_kind h_entry h_text
  refine h place bytes text h_ne h_names h_kind ?_ h_text
  -- the entry is asked for, or one behind it
  by_cases h_place : place = other
  · subst h_place
    rw [List.lookup_cons_self] at h_entry
    exact absurd (Option.some.inj h_entry) (h_other h_kind bytes)
  · rwa [List.lookup, beq_false_of_ne h_place] at h_entry

/-- A declaration file is known by its place and by no other. -/
theorem AreKnown.add (h : AreKnown entries declared) (h_other : ∀ n ∈ other, '/' ∉ n.toList)
    {content : Bytes} {found : String} (h_found : Utf8.decodeMarked content = .ok found) :
    AreKnown ((other, .file content) :: entries) (("/".intercalate other, found) :: declared) := by
  intro place bytes text h_ne h_names h_kind h_entry h_text
  -- the file itself, or one behind it, which has another path
  by_cases h_place : place = other
  · subst h_place
    rw [List.lookup_cons_self] at h_entry ⊢
    cases h_entry
    cases h_found.symm.trans h_text
    rfl
  · have h_path : "/".intercalate place ≠ "/".intercalate other := fun h_eq =>
      h_place (eq_of_intercalate_eq h_names h_ne h_other h_eq.symm).symm
    rw [List.lookup, beq_false_of_ne h_place] at h_entry
    rw [List.lookup, beq_false_of_ne h_path]
    exact h place bytes text h_ne h_names h_kind h_entry h_text

/-- **The declaration files of a directory are read**, if all of them can be opened and are text. -/
theorem exists_declarationsAmong_eq_ok {refuses : Place → Option SystemError}
    (h_opens : ∀ place, refuses place = none) (h_plain : ∀ e ∈ entries, ∀ n ∈ e.1, '/' ∉ n.toList)
    (h_readable : ∀ place bytes, (place, .file bytes) ∈ entries →
      ModuleId.isDeclarationFile ("/".intercalate place) = true →
      ∃ text, Utf8.decodeMarked bytes = .ok text) :
    ∃ declared, declarationsAmong refuses entries = .ok declared ∧ AreKnown entries declared := by
  -- on the entries, of which only the declaration files are read
  induction entries with
  | nil => exact ⟨[], rfl, fun _ _ _ _ _ _ h => nomatch h⟩
  | cons e entries ih =>
    obtain ⟨other, entry⟩ := e
    obtain ⟨h_other, h_plain⟩ := List.forall_mem_cons.1 h_plain
    obtain ⟨declared, h_declared, h_known⟩ := ih h_plain fun place bytes h_mem =>
      h_readable place bytes (List.mem_cons_of_mem _ h_mem)
    cases entry with
    | directory => exact ⟨declared, h_declared, h_known.skip fun _ _ h => nomatch h⟩
    | file content =>
      rw [declarationsAmong]
      by_cases h_kind : ModuleId.isDeclarationFile ("/".intercalate other) = true
      · obtain ⟨found, h_found⟩ := h_readable other content (List.mem_cons_self ..) h_kind
        refine ⟨_, ?_, h_known.add h_other h_found⟩
        simp only [h_kind, if_true, h_opens, h_found, h_declared]
        rfl
      · refine ⟨declared, ?_, h_known.skip fun h => absurd h h_kind⟩
        simp only [h_kind]
        exact h_declared

end Known

/-- **What a compiler leaves behind** that has nothing to complain about. It has printed its files.
In the directory that was given to it stands, for each file that is to be emitted, the text of its
declarations, as far down as the declaration file lies below the common root of the sources.
Whatever else it wrote there as declarations is text as well, and all of it can be opened. -/
structure Leaves (base : String) (files : List String) (texts : String → String)
    (completion : Completion) : Prop where
  printed : ∃ printed, completion.printed = .ok printed ∧ Listing.IsPrinted files printed
  written : ∀ root, Layout.sourceRoot files base = .ok root → ∀ file ∈ files,
    ModuleId.isDeclarationFile file = false → ∀ place, place ≠ [] → (∀ n ∈ place, Path.IsName n) →
      Layout.declarationName file = Path.join root ("/".intercalate place) →
      ∃ bytes, completion.written.files.find? place = some (.file bytes) ∧
        Utf8.Holds bytes (texts file)
  readable : ∀ place bytes, (place, .file bytes) ∈ completion.written.files.entries →
    ModuleId.isDeclarationFile ("/".intercalate place) = true → ∃ text, Utf8.Holds bytes text
  plain : ∀ e ∈ completion.written.files.entries, ∀ n ∈ e.1, '/' ∉ n.toList
  opens : ∀ place, completion.written.refuses place = none

/-- A file that is found in a tree stands among its entries: the root and the places that others
imply are directories. -/
theorem lookup_of_find? {t : FileTree} {place : Place} {bytes : Bytes}
    (h : t.find? place = some (.file bytes)) : t.entries.lookup place = some (.file bytes) := by
  unfold FileTree.find? at h
  split at h
  · next entry h_lookup => rw [h_lookup, h]
  · split at h
    · cases h
    · cases h

variable {base : String} {files : List String} {texts : String → String} {completion : Completion}

/-- A listed file is a source or a declaration file, by its ending. -/
theorem isSource_of_isFileLine {file : String} (h : Listing.IsFileLine file)
    (h_kind : ModuleId.isDeclarationFile file = false) : Layout.isSource file = true := by
  obtain ⟨extension, h_mem, h_ends⟩ := h.ending
  unfold Layout.isSource
  rw [List.any_eq_true.2 ⟨extension, h_mem, h_ends⟩, h_kind]
  rfl

/-- **The declarations of each file are found where they are looked for.** -/
theorem Leaves.exists_declared (h : Leaves base files texts completion)
    (h_files : ∀ file ∈ files, Listing.IsFileLine file) (cwd : String) :
    ∃ declared root, declarations completion.written = .ok declared ∧
      Layout.sourceRoot files base = .ok root ∧
      ∀ file ∈ files, ModuleId.isDeclarationFile file = false →
        declared.lookup (Layout.key cwd root (Layout.declarationName file))
          = some (texts file) := by
  -- whatever the compiler wrote as declarations can be read, be it asked for or not
  obtain ⟨declared, h_declared, h_known⟩ := exists_declarationsAmong_eq_ok h.opens h.plain
    fun place bytes h_mem h_kind =>
      (h.readable place bytes h_mem h_kind).imp fun _ => Utf8.decodeMarked_of_holds
  rcases Layout.sourceRoot_cases (fun file h_mem => (h_files file h_mem).isRooted) base with
    ⟨h_none, h_root⟩ | ⟨above, h_above, h_root, h_places⟩
  · -- without a source nothing is to be emitted, whatever the root
    refine ⟨declared, base, h_declared, h_root, fun file h_mem h_kind => ?_⟩
    have h_source := isSource_of_isFileLine (h_files file h_mem) h_kind
    rw [h_none file h_mem] at h_source
    cases h_source
  · refine ⟨declared, Path.rooted above, h_declared, h_root, fun file h_mem h_kind => ?_⟩
    obtain ⟨place, h_ne, h_names, h_declares, h_place⟩ :=
      h_places file h_mem (isSource_of_isFileLine (h_files file h_mem) h_kind)
    obtain ⟨bytes, h_bytes, h_holds⟩ :=
      h.written _ h_root file h_mem h_kind place h_ne h_names h_place
    -- the place that is asked for is the way down, and the text was put there
    rw [h_place, Layout.key_of_join h_above h_names h_ne]
    exact h_known place bytes _ h_ne h_names h_declares (lookup_of_find? h_bytes)
      (Utf8.decodeMarked_of_holds h_holds)

end Compiler

namespace Bundle

variable {s : Surroundings} {config : Config} {parse : Parser} {machine : Machine}
  {invocation : Invocation} {completion : Completion} {files : List String}
  {texts : String → String}

/-- **A compiler run is as good as a program in memory.** A compiler has run and come to its end,
and left behind what it should for some files, each of which can stand on a line of its own. Then
the bundling run is the one with the program that has these files and texts in memory: it ends the
same way, with the same output and the same messages, and only the report of the former names a
command that was run. -/
theorem generate_of_leaves
    (h_completes : Compiler.Completes machine config (roots s.cwd config) invocation completion)
    (h_files : ∀ file ∈ files, Listing.IsFileLine file)
    (h_leaves : Compiler.Leaves config.baseDir files texts completion) :
    generate s config (Compiler.compile parse machine s.cwd config) =
      { generate s config (fun _ => ⟨.ok (.inMemory parse files texts), [], none⟩) with
        invocation := some invocation } := by
  obtain ⟨printed, h_printed, h_listed⟩ := h_leaves.printed
  have h_read : Listing.read config.baseDir printed = .ok ⟨files, [], []⟩ :=
    Listing.read_of_isPrinted h_files h_listed
  have h_compile := @Compiler.compile_of_completes config parse machine s.cwd _ _ _ _ _ h_completes
    h_printed h_read
  obtain ⟨declared, root, h_declared, h_root, h_lookup⟩ := h_leaves.exists_declared h_files s.cwd
  have h_program := @Compiler.program_compile_of_completes _ parse _ s.cwd _ _ _ _ _ h_completes
    h_printed h_read _ _ h_declared h_root
  -- the two programs have the same files, so it is left to compare what they answer
  have h_agrees : (Program.ofListing parse s.cwd root files [] declared).Agrees s.cwd config
      (.inMemory parse files texts) := by
    refine ⟨rfl, fun source h_mem h_kind => ?_⟩
    obtain ⟨file, h_file, -, rfl⟩ := mem_bundled_ofListing.1 h_mem
    -- both emit the same declaration for the file, and neither has anything to say
    have h_emits : (Program.inMemory parse files texts).Emits file
        (.parsed parse (Layout.declarationName file) (texts file)) := ⟨rfl, rfl, rfl⟩
    rw [Program.check_eq_ok_iff.2 h_emits, Program.check_eq_ok_iff, Program.emits_ofListing_iff]
    exact ⟨⟨texts file, h_lookup file h_file h_kind, rfl⟩, fun _ h => absurd h List.not_mem_nil⟩
  have h_same := @generate_of_agrees s config _ _ _
    (fun _ => ⟨.ok (.inMemory parse files texts), [], none⟩) h_program rfl h_agrees
      (by rw [h_compile])
  rw [h_same, h_compile]

/-! ### A small compiler -/

/-- A declaration file and two modules, one of them further down. -/
def smallFiles : List String :=
  ["/work/src/globals.d.ts", "/work/src/a.ts", "/work/src/sub/b.mts"]

/-- The texts of the modules. -/
def smallTexts (file : String) : String :=
  if file = "/work/src/a.ts" then "export declare const a: number;\n"
  else "export * from '../a';\n"

/-- What a compiler leaves behind that puts a byte order mark before the first text. -/
def smallCompletion : Completion where
  stdout := Utf8.encode "/work/src/globals.d.ts\n/work/src/a.ts\n/work/src/sub/b.mts\n"
  stderr := []
  written := .plain ⟨[(["a.d.ts"], .file (Utf8.mark ++ Utf8.encode (smallTexts "/work/src/a.ts"))),
    (["sub", "b.d.mts"], .file (Utf8.encode (smallTexts "/work/src/sub/b.mts")))]⟩

/-- Each of the files can stand on a line of its own. -/
theorem isFileLine_of_mem_smallFiles : ∀ file ∈ smallFiles, Listing.IsFileLine file := by
  have h_rooted : ∀ file ∈ smallFiles, Path.root file = "/" ∧ Path.normalise file = file := by
    decide +kernel
  have h_ending : ∀ file ∈ smallFiles, ∃ extension ∈ Layout.declarationExtensions,
      Text.endsWith file extension.1 = true := by
    decide +kernel
  have h_break : ∀ file ∈ smallFiles, file.toList.all (!Text.isLineBreak ·) = true := by
    decide +kernel
  have h_open : ∀ file ∈ smallFiles, '(' ∉ file.toList := by
    decide +kernel
  exact fun file h_mem => ⟨h_rooted file h_mem, h_ending file h_mem,
    fun c h_c => by simpa using List.all_eq_true.1 (h_break file h_mem) c h_c,
    fun h => h_open file h_mem (Listing.mem_of_isDiagnosticLine h)⟩

/-- What is asked of such a compiler is seen place by place. The root is the directory of the
sources, and from there only one way leads down to each declaration file. -/
theorem leaves_smallCompletion :
    Compiler.Leaves "/work/src" smallFiles smallTexts smallCompletion where
  printed := by
    refine ⟨"/work/src/globals.d.ts\n/work/src/a.ts\n/work/src/sub/b.mts\n", ?_, .inl ?_⟩ <;>
      decide +kernel
  written := by
    intro root h_root
    have h_src : Layout.sourceRoot smallFiles "/work/src" = .ok (Path.rooted ["work", "src"]) := by
      decide +kernel
    -- the common root is known, so the places are those of two paths below it
    cases h_src.symm.trans h_root
    have h_above : ∀ n ∈ ["work", "src"], Path.IsName n := by decide
    simp only [smallFiles, List.forall_mem_cons, List.not_mem_nil, false_imp_iff, implies_true,
      and_true]
    refine ⟨fun h => absurd h (by decide), fun _ place h_ne h_names h_name => ?_,
      fun _ place h_ne h_names h_name => ?_⟩
    · have h_way : Path.join (Path.rooted ["work", "src"]) ("/".intercalate ["a.d.ts"])
          = Layout.declarationName "/work/src/a.ts" := by
        decide +kernel
      cases Path.eq_of_join_rooted_eq h_above (by decide) (by decide) h_names h_ne
        (h_way.trans h_name)
      exact ⟨_, rfl, .inl rfl⟩
    · have h_way : Path.join (Path.rooted ["work", "src"]) ("/".intercalate ["sub", "b.d.mts"])
          = Layout.declarationName "/work/src/sub/b.mts" := by
        decide +kernel
      cases Path.eq_of_join_rooted_eq h_above (by decide) (by decide) h_names h_ne
        (h_way.trans h_name)
      exact ⟨_, rfl, .inr ⟨rfl, by decide +kernel⟩⟩
  readable := by
    intro place bytes h_mem _
    rcases List.mem_cons.1 h_mem with h_eq | h_mem
    · cases h_eq
      exact ⟨_, .inl rfl⟩
    · cases List.mem_singleton.1 h_mem
      exact ⟨smallTexts "/work/src/sub/b.mts", .inr ⟨rfl, by decide +kernel⟩⟩
  plain := by decide +kernel
  opens _ := rfl

/-- The machine that runs such a compiler. -/
def smallMachine : Machine where
  locate := some
  scratchPath := .ok "/tmp/out"
  run _ := .ok smallCompletion
  removal _ := none

/-- Such a compiler is found, started and comes to its end. -/
theorem completes_smallMachine :
    Compiler.Completes smallMachine smallConfig (roots "/work" smallConfig)
      ⟨"tsc" :: Compiler.arguments smallConfig "/tmp/out" (roots "/work" smallConfig), "/work/src"⟩
      smallCompletion := by
  refine ⟨⟨"tsc", [], "tsc", "/tmp/out", rfl, rfl, rfl, rfl⟩, ?_, rfl⟩
  have h_null : Invocation.hasNull ⟨"tsc" ::
      Compiler.arguments smallConfig "/tmp/out" (roots "/work" smallConfig), "/work/src"⟩
        = false := by
    decide +kernel
  unfold Machine.start
  rw [h_null]
  rfl

/-- A declaration file, and two modules whose texts are written with a byte order mark and without
one. -/
theorem generate_of_leaves_small :
    generate (smallSurroundings .faultless) smallConfig
      (Compiler.compile Syntax.parse smallMachine "/work" smallConfig) =
      { generate (smallSurroundings .faultless) smallConfig
          (fun _ => ⟨.ok (.inMemory Syntax.parse smallFiles smallTexts), [], none⟩) with
        invocation := some ⟨"tsc" :: Compiler.arguments smallConfig "/tmp/out"
          (roots "/work" smallConfig), "/work/src"⟩ } :=
  generate_of_leaves completes_smallMachine isFileLine_of_mem_smallFiles leaves_smallCompletion

end Bundle

end DeclarationBundle
