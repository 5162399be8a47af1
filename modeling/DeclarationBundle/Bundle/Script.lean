import DeclarationBundle.Bundle.Failure
import DeclarationBundle.Bundle.Selection
import DeclarationBundle.Compiler.Program
import DeclarationBundle.Config.Basic

/-!
# Scripts

A script says what a bundling run does, step by step, up to its end or to the first thing that stops
it, supposing that the output takes everything. It depends on the configuration, on the program and
on what it draws on (`Script.Host`): the texts of files, and the stack. It does not depend on the
output.

* `Script.ofProgram` is the script of a run: the references, then the files of the program in order,
  then the alias of the main module.
* `Script.summary` lists what the sections of a script bring into the bundle.
-/

namespace DeclarationBundle

/-- One step of a run. -/
inductive Step where
  | announce (message : String)
  | emit (file : String)
  | write (s : Section)
  deriving DecidableEq, Repr

/-- The steps of a run, and what stops it after them. -/
structure Script where
  steps : List Step
  failure : Option Failure
  deriving DecidableEq, Repr

/-- What a bundle holds, in the order in which it was written. -/
structure Summary where
  out : String
  name : String
  externs : List String
  /-- The ids of the modules that stand in blocks. -/
  modules : List String
  /-- The declaration files that were copied. -/
  passthrough : List String
  /-- The scripts. -/
  ambient : List String
  mainAlias : Option String
  deriving DecidableEq, Repr

namespace Script

/-- The script of nothing. -/
def empty : Script :=
  ⟨[], none⟩

/-- The script that stops at once. -/
def fail (failure : Failure) : Script :=
  ⟨[], some failure⟩

/-- The script of some steps. -/
def ofSteps (steps : List Step) : Script :=
  ⟨steps, none⟩

/-- One script after another, if nothing stops the first. -/
def andThen (first second : Script) : Script :=
  match first.failure with
  | some failure => ⟨first.steps, some failure⟩
  | none => ⟨first.steps ++ second.steps, second.failure⟩

/-- Some scripts one after the other, up to the first that stops. -/
def sequence : List Script → Script
  | [] => empty
  | first :: rest => first.andThen (sequence rest)

/-- What a script draws on. -/
structure Host where
  /-- Looks up the text of a file. -/
  read : String → Except Failure String
  stack : Stack

/-- The text of a source file. -/
def textOf (host : Host) (source : SourceFile) : Except Failure String :=
  match source.contents with
  | some text => .ok text
  | none => host.read source.name

/-- The section of a declaration that was emitted: a module stands in a block, a script as it is. -/
def sectionOf (config : Config) (d : Declaration) : Except Failure Section :=
  if d.isExternalModule then
    let id := ModuleId.ofFile d.fileName config.baseDir config.name
    match d.rehomed id with
    | .ok content => .ok (.block id content)
    | .error error => .error (.undecodable error)
  else .ok (.script d.fileName d.text)

/-- The section of a declaration on some host. To move a module, its tree is walked. -/
def hostedSection (host : Host) (config : Config) (d : Declaration) : Except Failure Section :=
  if d.isExternalModule && host.stack.overflows (.nodes d.tree) then .error .overflow
  else sectionOf config d

/-- The script that ends in writing a section. -/
def ofSection : Except Failure Section → Script
  | .ok s => ofSteps [.write s]
  | .error failure => fail failure

/-- What is emitted for a file, as a script, once that was announced. -/
def ofEmission (config : Config) (program : Program) (host : Host) (file : String) : Script :=
  match program.check (program.emit file) file with
  | .ok declaration => ofSection (hostedSection host config declaration)
  | .error diagnostics => fail (.rejected diagnostics)

/-- The message about a file. -/
def processing (file : String) : String :=
  s!"Processing {file}"

/-- The script of a file that is bundled: a declaration file is copied, and any other is emitted. -/
def ofBundled (config : Config) (program : Program) (host : Host) (source : SourceFile) : Script :=
  (ofSteps [.announce (processing source.name)]).andThen <|
    if ModuleId.isDeclarationFile source.name then
      ofSection ((textOf host source).map (.copied source.name))
    else (ofSteps [.emit source.name]).andThen (ofEmission config program host source.name)

/-- The script of a file of the program. -/
def ofFile (config : Config) (excluded : List String) (program : Program) (host : Host)
    (source : SourceFile) : Script :=
  if Selection.isBundled config.baseDir excluded source.name then
    ofBundled config program host source
  else empty

/-- The script of a reference. -/
def ofExtern (path : String) : Script :=
  ofSteps [.announce s!"Writing external dependency {path}", .write (.reference path)]

/-- The main module of a configuration, unless it has none. -/
def mainModule? (config : Config) : Option String :=
  match config.main with
  | none => none
  | some main => if main = "" then none else some (ModuleId.ofMain config.name main)

/-- The script of the main module. -/
def ofMain (config : Config) : Script :=
  match mainModule? config with
  | none => empty
  | some main =>
    ofSteps [.write (.mainAlias config.name main),
      .announce s!"Aliased main module {config.name} to {main}"]

/-- **The script of a run.** -/
def ofProgram (config : Config) (excluded : List String) (program : Program) (host : Host) :
    Script :=
  (sequence (config.externs.map ofExtern)).andThen <|
    (sequence (program.files.map (ofFile config excluded program host))).andThen (ofMain config)

/-- The sections that a script writes. -/
def sections (s : Script) : List Section :=
  s.steps.filterMap fun
    | .write piece => some piece
    | _ => none

/-- **What the sections of a script bring into the bundle.** -/
def summary (config : Config) (s : Script) : Summary where
  out := config.out
  name := config.name
  externs := s.sections.filterMap fun | .reference path => some path | _ => none
  modules := s.sections.filterMap fun | .block id _ => some id | _ => none
  passthrough := s.sections.filterMap fun | .copied file _ => some file | _ => none
  ambient := s.sections.filterMap fun | .script file _ => some file | _ => none
  mainAlias := (s.sections.filterMap fun | .mainAlias _ main => some main | _ => none).getLast?

end Script

end DeclarationBundle
