import DeclarationBundle.Bundle.Script
import DeclarationBundle.FileTree.Create

/-!
# Bundling runs

A run compiles, opens the output, carries a script out and closes the output.

* `Progress.carryOut` carries out the steps of a script up to the first write that fails.
* `Bundle.generate` is the whole run, and `Report` all that can be seen of it. If there is no
  program, the output is not even opened.

Where the run takes place is given by `Surroundings`. The parser of declarations is not among them:
a run is given a program, whose declarations have their trees.
-/

namespace DeclarationBundle

/-- A message, and how many characters had been written when it was sent. -/
structure Message where
  text : String
  written : Nat
  deriving DecidableEq, Repr

/-- How far a run has come. -/
structure Progress where
  output : Output
  messages : List Message
  emitted : List String

namespace Progress

/-- The beginning of a run. -/
def start (output : Output) : Progress :=
  ⟨output, [], []⟩

/-- Carries out one step. -/
def step (style : Style) (p : Progress) : Step → Progress × Option Output.Error
  | .announce message =>
    ({ p with messages := p.messages ++ [⟨message, p.output.sink.text.length⟩] }, none)
  | .emit file => ({ p with emitted := p.emitted ++ [file] }, none)
  | .write s =>
    let (output, error) := p.output.put style s
    ({ p with output := output }, error)

/-- **Carries out some steps** up to the first that fails. -/
def carryOut (style : Style) (p : Progress) : List Step → Progress × Option Output.Error
  | [] => (p, none)
  | step :: steps =>
    match p.step style step with
    | (p, some error) => (p, some error)
    | (p, none) => carryOut style p steps

end Progress

/-- A command, and the directory that it is run in. -/
structure Invocation where
  command : List String
  directory : String
  deriving DecidableEq, Repr

/-- What comes of compiling. -/
structure Compilation where
  program : Except Failure Program
  warnings : List String
  /-- The command that was run, if one was. -/
  invocation : Option Invocation

/-- Where a run takes place. -/
structure Surroundings where
  cwd : String
  tree : FileTree
  /-- How the output behaves once it is open. -/
  behaviour : Behaviour
  stack : Stack

/-- All that can be seen of a run. -/
structure Report where
  outcome : Except Failure Summary
  messages : List Message
  emitted : List String
  warnings : List String
  invocation : Option Invocation
  /-- The files after the run. -/
  tree : FileTree
  /-- The output as the run left it, if it was opened. -/
  output : Option Output

namespace Bundle

/-- The text of a file in a tree, after a byte order mark if there is one. -/
def readText (t : FileTree) (cwd path : String) : Except Failure String :=
  match t.read cwd path with
  | .error error => .error (.ofPathError .unreadable error)
  | .ok bytes => (Utf8.decodeMarked bytes).mapError .undecodable

/-- What a script draws on in some surroundings, once their files are those of `tree`. -/
def hostOf (s : Surroundings) (tree : FileTree) : Script.Host :=
  ⟨readText tree s.cwd, s.stack⟩

/-- Opens the output. The directories above it are made first, each after the one above it. -/
def openOutput (s : Surroundings) (out : String) : Except Failure (FileTree × Place) :=
  if s.stack.overflows (.directories out) then .error .overflow
  else (s.tree.openFresh s.cwd out).mapError
    (.ofPathError fun error => .output (.opening out error))

/-- The layout of a configuration. -/
def styleOf (config : Config) : Style :=
  ⟨config.eol, config.indent⟩

/-- The files that a configuration starts from. -/
def roots (cwd : String) (config : Config) : List String :=
  Selection.roots cwd config.baseDir config.files

/-- The files that a configuration leaves out. -/
def excluded (cwd : String) (config : Config) : List String :=
  Selection.excluded cwd config.baseDir config.excludes

/-- Carries a script out and closes the output: in good order if nothing has stopped the script. -/
def perform (config : Config) (output : Output) (script : Script) :
    Progress × Except Failure Summary :=
  match (Progress.start output).carryOut (styleOf config) script.steps, script.failure with
  | (p, some error), _ => ({ p with output := p.output.leave }, .error (.output error))
  | (p, none), some failure => ({ p with output := p.output.leave }, .error failure)
  | (p, none), none =>
    match p.output.close with
    | (output, some error) => ({ p with output := output }, .error (.output error))
    | (output, none) => ({ p with output := output }, .ok (script.summary config))

/-- The files once the output could not be opened: some directories above it may be there by
then. -/
def leftByOpening (s : Surroundings) (out : String) : FileTree :=
  if s.stack.overflows (.directories out) then s.tree else s.tree.attempted s.cwd out

/-- A run that ended before the output was open, and the files then. -/
def stopped (c : Compilation) (tree : FileTree) (failure : Failure) : Report :=
  ⟨.error failure, [], [], c.warnings, c.invocation, tree, none⟩

/-- **A bundling run.** What `compile` is given are the files that the run starts from. -/
def generate (s : Surroundings) (config : Config) (compile : List String → Compilation) : Report :=
  let c := compile (roots s.cwd config)
  match c.program with
  | .error failure => stopped c s.tree failure
  | .ok program =>
    match openOutput s config.out with
    | .error failure => stopped c (leftByOpening s config.out) failure
    | .ok (tree, place) =>
      let script := Script.ofProgram config (excluded s.cwd config) program (hostOf s tree)
      let (p, outcome) := perform config (.fresh s.behaviour (some config.out)) script
      { outcome, messages := p.messages, emitted := p.emitted
        warnings := c.warnings ++ p.output.warnings, invocation := c.invocation
        tree := tree.put place (.file (Utf8.encode p.output.sink.text)), output := some p.output }

end Bundle

end DeclarationBundle
