import DeclarationBundle.CommandLine.Arguments
import DeclarationBundle.CommandLine.Help
import DeclarationBundle.CommandLine.Words
import DeclarationBundle.Compiler.Run
import DeclarationBundle.Config.Options

/-!
# Sessions

A session is one call of the program, from its arguments to all that can be seen of it afterwards.
The program itself knows how verbose it is and hands on to the command `bundle`, which merges its
options, bundles, and reports.

* `Session.run` is the whole session.
* Wrong arguments are answered with the usage of the command (`Session.misused`), a wrong
  configuration and a run that fails with a message of their own (`Session.aborted`).
* What no message is prepared for is a crash (`Crash`).

What a session depends on and cannot define itself is its `Workplace`: the files, the machine that
commands run on, the parser of declarations, the stream behind the output, and the stack. The
terminal takes everything that is printed.
-/

namespace DeclarationBundle.CommandLine

/-- How much is logged. -/
inductive LogLevel where
  | warning
  | debug
  deriving DecidableEq, Repr

/-- Where the program is called. -/
structure Workplace where
  /-- The name that the program was called by. -/
  program : String
  cwd : String
  tree : FileTree
  machine : Machine
  /-- How emitted declarations are read. -/
  parse : Parser
  /-- How the output behaves once it is open. -/
  behaviour : Behaviour
  stack : Stack

/-- Where a run takes place that is started there. -/
def Workplace.surroundings (w : Workplace) : Surroundings :=
  ⟨w.cwd, w.tree, w.behaviour, w.stack⟩

/-- What is wrong with the value of an option. -/
inductive OptionFault where
  | misuse (error : UsageError)
  /-- The value is to be a path and has a null character in it, so that it cannot be looked up. -/
  | nullPath

/-- The line that says what a complaint is about. -/
def subjectLine : Config.Subject → String
  | .whole => ""
  | .field name => name
  | .item name index => s!"{name}.{index}"

/-- The lines about values that are no configuration. -/
def violationLines (wrong : List Config.Violation) : List String :=
  let errors := if wrong.length = 1 then "error" else "errors"
  s!"{wrong.length} validation {errors} for BundleConfig" ::
    wrong.flatMap fun v =>
      [subjectLine v.subject, s!"  {v.complaint.message} [type={v.complaint.kind}]"]

/-- Why there is no configuration. -/
inductive ConfigError where
  | loading (error : Options.LoadError)
  | words (error : Words.Error)
  | merging (error : Options.MergeError)
  deriving DecidableEq, Repr

/-- The wording of an error. -/
def ConfigError.message : ConfigError → String
  | .loading error => error.message
  | .words error => error.message
  | .merging (.invalid wrong) => "\n".intercalate (violationLines wrong)
  | .merging .nullPath => nullPathMessage
  | .merging .overflow => Stack.overflowMessage

/-- Whether the command is prepared for an error. -/
def ConfigError.isReported : ConfigError → Bool
  | .loading error => error.isReported
  | .words _ => true
  | .merging error => error.isReported

/-- What ends a session without a message of its own. -/
inductive Crash where
  /-- The value of an option is a path with a null character in it. -/
  | nullArgument
  | configuring (error : ConfigError)
  | bundling (failure : Failure)
  deriving DecidableEq, Repr

/-- All that can be seen of a session. -/
structure Session where
  exitCode : Nat
  /-- The lines that were printed. -/
  stdout : List String
  /-- The lines that were printed about errors. -/
  stderr : List String
  /-- How much was logged, if the program got that far. -/
  logLevel : Option LogLevel
  crash : Option Crash
  warnings : List String
  invocation : Option Invocation
  /-- The files afterwards. -/
  tree : FileTree

/-- The wording of a crash. -/
def Crash.message : Crash → String
  | .nullArgument => nullPathMessage
  | .configuring error => error.message
  | .bundling failure => failure.message

namespace Session

/-- All that a session says about errors: its warnings, its messages, and the crash that ended
it. -/
def errorLines (s : Session) : List String :=
  s.warnings ++ s.stderr ++ (s.crash.map Crash.message).toList

/-- A session that only printed something. -/
def printed (w : Workplace) (level : Option LogLevel) (lines : List String) : Session :=
  ⟨0, lines, [], level, none, [], none, w.tree⟩

/-- A session whose arguments were wrong: the usage, where help is to be found, and the error. -/
def misused (w : Workplace) (level : Option LogLevel) (command : String) (help : Help)
    (error : UsageError) : Session :=
  let usage :=
    if error.showsUsage then [help.usageLine, s!"Try '{command} --help' for help.", ""] else []
  ⟨2, [], usage ++ ["Error: " ++ error.message], level, none, [], none, w.tree⟩

/-- The option that shows the help page of a command. -/
def helpSwitch : Switch :=
  ⟨"help", "--help", none, false⟩

/-- The row of that option on the help page. -/
def helpRow : String × String :=
  ("--help", "Show this message and exit.")

/-- What the command is for. -/
def bundlePurpose : String :=
  "Bundle the declarations of FILES into a single file."

/-- The options of the command, each with the form of its value and its explanation. -/
def bundleOptions : List (Switch × String × String) :=
  let option (key long form explanation : String) :=
    ((⟨key, long, none, true⟩ : Switch), form, explanation)
  [option "name" "--name" "TEXT" "Namespace the bundled modules are declared under",
    option "out" "--out" "FILE" "Output declaration file",
    option "base_dir" "--base-dir" "DIRECTORY"
      "Root directory of the sources (defaults to the current directory)",
    option "main" "--main" "TEXT" "Module re-exported as the namespace itself, e.g. ./index",
    option "excludes" "--exclude" "TEXT" "File to leave out of the bundle",
    option "externs" "--extern" "TEXT" "Declaration file to reference from the bundle",
    option "eol" "--eol" "TEXT"
      "End of line: lf, crlf or a literal string (defaults to the platform)",
    option "indent" "--indent" "TEXT" "Indentation inside module blocks (defaults to a tab)",
    option "target" "--target" "TEXT" "tsc --target value (defaults to ESNext)",
    option "compiler" "--compiler" "TEXT" "Command used to run tsc, e.g. 'npx tsc'",
    option "config" "--config" "FILE"
      "JSON file with bundle options; command-line values take precedence"]

/-- The switches of the command. -/
def bundleSwitches : List Switch :=
  bundleOptions.map (·.1) ++ [helpSwitch]

/-- The full name of the command. -/
def bundleName (w : Workplace) : String :=
  w.program ++ " bundle"

/-- The help page of the command. -/
def bundleHelp (w : Workplace) : Help where
  usage := bundleName w ++ " [OPTIONS] [FILES]..."
  purpose := bundlePurpose
  options := bundleOptions.map (fun o => (o.1.long ++ " " ++ o.2.1, o.2.2)) ++ [helpRow]
  commands := []

/-- The switches of the program. -/
def programSwitches : List Switch :=
  [⟨"version", "--version", none, false⟩, ⟨"verbose", "--verbose", some 'v', false⟩, helpSwitch]

/-- The commands of the program. -/
def commands : List String :=
  ["bundle"]

/-- The help page of the program. -/
def programHelp (w : Workplace) : Help where
  usage := w.program ++ " [OPTIONS] COMMAND [ARGS]..."
  purpose := "dtsbundle - bundle TypeScript declaration files into a single module file."
  options := [("--version", "Show the version and exit."),
    ("-v, --verbose", "Log every bundling decision"),
    helpRow]
  commands := [("bundle", bundlePurpose)]

/-- What is printed about the version of the program. -/
def versionLine : String :=
  "dtsbundle, version 1.0.0"

/-- What is wrong with the path of an output file. -/
def outFault? (w : Workplace) (path : String) : Option PathFault :=
  if w.tree.isDirectory w.cwd path then some .isDirectory else none

/-- What is wrong with the path of a file that has to be there. -/
def fileFault? (w : Workplace) (path : String) : Option PathFault :=
  if !w.tree.hasEntry w.cwd path then some .missing else outFault? w path

/-- What is wrong with the path of a directory that has to be there. -/
def directoryFault? (w : Workplace) (path : String) : Option PathFault :=
  if !w.tree.hasEntry w.cwd path then some .missing
  else if w.tree.isFile w.cwd path then some .isFile
  else none

/-- The options whose values are paths that are looked up. -/
def pathKeys : List String :=
  ["out", "base_dir", "config"]

/-- What is wrong with the path given for an option. -/
def badPath? (w : Workplace) (key path : String) : Option UsageError :=
  match key with
  | "out" => (outFault? w path).map (.badPath "--out" "File" path)
  | "base_dir" => (directoryFault? w path).map (.badPath "--base-dir" "Directory" path)
  | "config" => (fileFault? w path).map (.badPath "--config" "File" path)
  | _ => none

/-- What is wrong with the value of an option. -/
def optionFault? (w : Workplace) (a : Arguments) (key : String) : Option OptionFault :=
  (a.value? key).bind fun path =>
    if pathKeys.contains key && Path.hasNull path then some .nullPath
    else (badPath? w key path).map .misuse

/-- The text given for an option, as a value. -/
def textValue (a : Arguments) (key : String) : Json :=
  (a.value? key).elim .null .string

/-- Some texts, as a value. -/
def listValue (texts : List String) : Json :=
  .array (texts.map .string)

/-- The words of the compiler, if it is given and not the empty text. -/
def compilerValue (a : Arguments) : Except Words.Error Json :=
  match a.value? "compiler" with
  | none => .ok .null
  | some text => if text = "" then .ok .null else (Words.split text).map listValue

/-- The values that the arguments give to the fields of a configuration. -/
def overrides (a : Arguments) : Except Words.Error Config.Members := do
  let compiler ← compilerValue a
  .ok [("files", listValue a.rest), ("name", textValue a "name"), ("out", textValue a "out"),
    ("base_dir", textValue a "base_dir"), ("main", textValue a "main"),
    ("excludes", listValue (a.values "excludes")), ("externs", listValue (a.values "externs")),
    ("eol", ((a.value? "eol").map Options.parseEol).elim .null .string),
    ("indent", textValue a "indent"),
    ("target", textValue a "target"), ("compiler", compiler)]

/-- **The configuration of some arguments**: the options in the file, under those that are given. -/
def configOf (w : Workplace) (a : Arguments) : Except ConfigError Config := do
  let options ← (Options.load w.stack w.tree w.cwd (a.value? "config")).mapError .loading
  let overrides ← (overrides a).mapError .words
  (Options.toConfig w.stack w.tree w.cwd options overrides).mapError .merging

/-- The last line of a session that was aborted. -/
def abortLine : String :=
  "Aborted!"

/-- A session that ended with a message about an error. -/
def aborted (s : Session) (lines : List String) : Session :=
  { s with exitCode := 1, stderr := s.stderr ++ lines ++ [abortLine] }

/-- A session that ended without a message. -/
def crashed (s : Session) (crash : Crash) : Session :=
  { s with exitCode := 1, crash := some crash }

/-- The lines about a bundle that was written. -/
def summaryLines (s : Summary) : List String :=
  [s!"✅ Bundle written: {s.out}", s!"   Modules: {s.modules.length}",
    s!"   Declaration files: {s.passthrough.length}", s!"   Global scripts: {s.ambient.length}"]

/-- The lines about a run that failed. -/
def failureLines (config : Config) (failure : Failure) : List String :=
  match failure with
  | .rejected _ => [s!"❌ {failure.message}",
      s!"   {config.out} is incomplete and should be discarded."]
  | _ => [s!"❌ Bundling failed: {failure.message}"]

/-- The session of a run that has ended. -/
def ofReport (level : Option LogLevel) (config : Config) (r : Report) : Session :=
  let s : Session :=
    { exitCode := 0
      stdout := s!"📦 Bundling {config.name} into {config.out}" ::
        r.messages.map fun m => "  " ++ m.text
      stderr := [], logLevel := level, crash := none, warnings := r.warnings
      invocation := r.invocation, tree := r.tree }
  match r.outcome with
  | .ok summary => { s with stdout := s.stdout ++ summaryLines summary }
  | .error failure =>
    if failure.isReported then s.aborted (failureLines config failure)
    else s.crashed (.bundling failure)

/-- The run that a session makes with a configuration. -/
def runOf (w : Workplace) (config : Config) : Report :=
  Bundle.generate w.surroundings config (Compiler.compile w.parse w.machine w.cwd config)

/-- Bundles what a configuration asks for. -/
def bundleConfig (w : Workplace) (level : Option LogLevel) (config : Config) : Session :=
  ofReport level config (runOf w config)

/-- Bundles what some arguments ask for. -/
def bundleArguments (w : Workplace) (level : Option LogLevel) (a : Arguments) : Session :=
  match configOf w a with
  | .ok config => bundleConfig w level config
  | .error error =>
    if error.isReported then
      (printed w level []).aborted ["❌ Invalid configuration: " ++ error.message]
    else (printed w level []).crashed (.configuring error)

/-- The session of the command. -/
def bundle (w : Workplace) (level : Option LogLevel) (arguments : List String) : Session :=
  let misused := misused w level (bundleName w) (bundleHelp w)
  match Arguments.parse bundleSwitches false arguments with
  | .error error => misused error
  | .ok a =>
    if (a.value? "help").isSome then printed w level (bundleHelp w).lines
    else
      match a.keys.findSome? (optionFault? w a) with
      | some (.misuse error) => misused error
      | some .nullPath => (printed w level []).crashed .nullArgument
      | none => bundleArguments w level a

/-- Answers the options that end a session at once, the first one given winning. -/
def answered? (w : Workplace) (a : Arguments) : Option Session :=
  a.keys.findSome? fun key =>
    match key with
    | "version" => some (printed w none [versionLine])
    | "help" => some (printed w none (programHelp w).lines)
    | _ => none

/-- A word that could be an option. -/
def looksLikeOption (word : String) : Bool :=
  match word.toList with
  | [] => false
  | c :: _ => !c.isAlphanum

/-- The session in which no command of the name is found. What looks like an option is read as
options of the program first. -/
def unknownCommand (w : Workplace) (name : String) (arguments : List String) : Session :=
  let misused := misused w none w.program (programHelp w)
  let unknown := misused (.noSuchCommand name (Similar.closest name commands))
  if looksLikeOption name then
    match Arguments.parse programSwitches true (name :: arguments) with
    | .error error => misused error
    | .ok a => (answered? w a).getD unknown
  else unknown

/-- How much is logged under some arguments. -/
def levelOf (a : Arguments) : LogLevel :=
  if (a.value? "verbose").isSome then .debug else .warning

/-- **A session of the program.** Called without arguments, it shows its help page as an error. -/
def run (w : Workplace) (arguments : List String) : Session :=
  let misused := misused w none w.program (programHelp w)
  if arguments.isEmpty then
    { printed w none [] with exitCode := 2, stderr := (programHelp w).lines }
  else
    match Arguments.parse programSwitches true arguments with
    | .error error => misused error
    | .ok a =>
      match answered? w a, a.rest with
      | some session, _ => session
      | none, [] => misused .missingCommand
      | none, "bundle" :: rest => bundle w (some (levelOf a)) rest
      | none, name :: rest => unknownCommand w name rest

end Session

end DeclarationBundle.CommandLine
