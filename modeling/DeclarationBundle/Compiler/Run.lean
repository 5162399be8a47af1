import DeclarationBundle.Bundle.Run

/-!
# Running a compiler

The compiler is run once over all the files that a bundling run starts from. It is asked to list the
files of its program and to write declarations only, to a directory of its own.

* `Compiler.command` is the command, and `Compiler.compile` what comes of running it.
* `Completion.printed` is the text that it printed, if it is text.
* `Compiler.declarations` are the declaration files that it wrote, by their places in the directory.

A machine can do anything at any of these steps. It may have no directory to write to, the command
may print and write what is no text, and files may be there that cannot be opened. In the end the
directory is taken away, whatever has come of the command, and that may fail as well
(`Compilation.settled`).
-/

namespace DeclarationBundle

/-- The directory that a command was given to write to. -/
structure Scratch where
  files : FileTree
  /-- What the system answers to whoever opens the file at a place. -/
  refuses : Place → Option SystemError

/-- What a command leaves behind: what it printed, and the directory that it wrote to. -/
structure Completion where
  stdout : Bytes
  stderr : Bytes
  written : Scratch

/-- A machine that commands run on. -/
structure Machine where
  /-- The program that the first word of a command stands for. -/
  locate : String → Option String
  /-- The directory that is made for a command to write to. -/
  scratchPath : Except SystemError String
  run : Invocation → Except SystemError Completion
  /-- What keeps the directory from being taken away after a command. -/
  removal : Invocation → Option Obstacle

/-- A directory whose files can all be opened. -/
def Scratch.plain (files : FileTree) : Scratch :=
  ⟨files, fun _ => none⟩

/-- What was printed on one stream, with every line end as a line feed. -/
def Completion.textOf (stream : Bytes) : Except Utf8.DecodeError String :=
  (Utf8.decode stream).map Text.withLineFeeds

/-- **All that a command printed**, the errors last. -/
def Completion.printed (c : Completion) : Except Utf8.DecodeError String := do
  let out ← textOf c.stdout
  let err ← textOf c.stderr
  .ok (out ++ err)

/-- An invocation with a null character in a word or in the directory, which no system takes. -/
def Invocation.hasNull (i : Invocation) : Bool :=
  i.command.any Path.hasNull || Path.hasNull i.directory

/-- Carries a command out, if it can be handed to the system. -/
def Machine.start (m : Machine) (i : Invocation) : Except (PathError SystemError) Completion :=
  if i.hasNull then .error .null else (m.run i).mapError .system

/-- What comes of compiling once the directory is taken away: whatever keeps it from being so takes
the place of the program. -/
def Compilation.settled (c : Compilation) : Option Obstacle → Compilation
  | some obstacle => { c with program := .error (.compiling (.notRemoved obstacle)) }
  | none => c

namespace Compiler

/-- The names of the line ends that a compiler can be asked for. -/
def newLineNames : List (String × String) :=
  [("\n", "lf"), ("\r\n", "crlf")]

/-- What follows the words of the compiler. -/
def arguments (config : Config) (outDir : String) (files : List String) : List String :=
  ["--declaration", "--emitDeclarationOnly", "--module", "commonjs", "--target", config.target,
    "--listFiles", "--pretty", "false", "--outDir", outDir] ++
    (match newLineNames.lookup config.eol with
      | some name => ["--newLine", name]
      | none => []) ++
    files

/-- **The command that compiles some files.** -/
def command (config : Config) (outDir : String) (files : List String) : List String :=
  config.compiler ++ arguments config outDir files

/-- The declaration files among some entries, by the path of each from the root. -/
def declarationsAmong (refuses : Place → Option SystemError) :
    List (Place × Entry) → Except CompileError (List (String × String))
  | [] => .ok []
  | (place, .file bytes) :: entries =>
    let path := "/".intercalate place
    if ModuleId.isDeclarationFile path then
      match refuses place with
      | some error => .error (.unreadable error)
      | none => do
        let text ← (Utf8.decodeMarked bytes).mapError .undecodable
        let rest ← declarationsAmong refuses entries
        .ok ((path, text) :: rest)
    else declarationsAmong refuses entries
  | (_, .directory) :: entries => declarationsAmong refuses entries

/-- **The declaration files of a directory**, by the path of each from there. -/
def declarations (s : Scratch) : Except CompileError (List (String × String)) :=
  declarationsAmong s.refuses s.files.entries

/-- The program of a compiler run in the base directory. -/
def programOf (parse : Parser) (cwd base : String) (listing : Listing) (written : Scratch) :
    Except Failure Program :=
  match declarations written with
  | .error error => .error (.compiling error)
  | .ok declarations =>
    match Layout.sourceRoot listing.files base with
    | .error error => .error (.compiling (.scattered error))
    | .ok root => .ok (.ofListing parse cwd root listing.files listing.diagnostics declarations)

/-- What comes of a command that ran. -/
def complete (parse : Parser) (cwd base : String) (invocation : Invocation)
    (completion : Completion) : Compilation :=
  match completion.printed with
  | .error error => ⟨.error (.compiling (.garbled error)), [], some invocation⟩
  | .ok printed =>
    match Listing.read base printed with
    | .error stop =>
      ⟨.error (.compiling (.tooManyDigits stop.error.count)), stop.warnings, some invocation⟩
    | .ok listing =>
      ⟨programOf parse cwd base listing completion.written, listing.warnings, some invocation⟩

/-- Carries out the command that the first word `word` of the configuration stands for. -/
def attempt (parse : Parser) (machine : Machine) (cwd base word : String)
    (invocation : Invocation) :
    Compilation :=
  match machine.start invocation with
  | .error .null => ⟨.error (.compiling .nullWord), [], some invocation⟩
  | .error (.system error) => ⟨.error (.compiling (.notStarted word error)), [], some invocation⟩
  | .ok completion => complete parse cwd base invocation completion

/-- **Compiles some files** on a machine. -/
def compile (parse : Parser) (machine : Machine) (cwd : String) (config : Config)
    (files : List String) : Compilation :=
  match config.compiler with
  | [] => ⟨.error (.compiling .notConfigured), [], none⟩
  | word :: words =>
    match machine.locate word with
    | none => ⟨.error (.compiling (.notFound word)), [], none⟩
    | some program =>
      match machine.scratchPath with
      | .error error => ⟨.error (.compiling (.noScratch error)), [], none⟩
      | .ok outDir =>
        let invocation := ⟨program :: words ++ arguments config outDir files, config.baseDir⟩
        (attempt parse machine cwd config.baseDir word invocation).settled
          (machine.removal invocation)

end Compiler

end DeclarationBundle
