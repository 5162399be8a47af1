import Mathlib
import DeclarationBundle.Bundle.Run
import DeclarationBundle.Proofs.Reference.Rehoming
import DeclarationBundle.Syntax.Tree

/-!
# What a run does, action by action

A run sends messages, has files emitted and writes texts. `Bundle.plan` lists these actions for a
run that nothing stops, from the files that are bundled and what each contributes; the contribution
of a file (`Bundle.Contribution`) and what can be at fault with it (`Bundle.Fault`) are said without
a script.

* `Progress.carryOut_cases`: to carry a script out is to perform its actions in order, all of them
  or those before the first write that the sink refuses.
* `Script.ofProgram_cases`: the script of a program is the plan, or the plan up to the first file at
  fault.

Both results have the same shape, a whole or a beginning of it, and the runs are put together from
them: see `Bundle.Contribution` for the pieces of a bundle and `Bundle.FaultAt` for the places where
a run can end.
-/

namespace DeclarationBundle

/-- One thing that a run does. -/
inductive Action where
  | announce (message : String)
  | emit (file : String)
  | write (text : String)
  deriving DecidableEq, Repr

namespace Action

/-- The texts that some actions write. -/
def texts (actions : List Action) : List String :=
  actions.filterMap fun
    | .write text => some text
    | _ => none

/-- **What some actions write**, together. -/
def written (actions : List Action) : String :=
  String.join (texts actions)

/-- **The files that some actions have emitted.** -/
def emitted (actions : List Action) : List String :=
  actions.filterMap fun
    | .emit file => some file
    | _ => none

/-- **The messages that some actions send**, when `count` characters have been written before. -/
def messages : Nat → List Action → List Message
  | _, [] => []
  | count, .announce message :: actions => ⟨message, count⟩ :: messages count actions
  | count, .emit _ :: actions => messages count actions
  | count, .write text :: actions => messages (count + text.length) actions

section Append

variable (first second : List Action)

/-- The four readings of a list of actions go through an append. Of these only the messages look at
what came before them, by its length. -/
theorem texts_append : texts (first ++ second) = texts first ++ texts second :=
  List.filterMap_append

/-- Two lists of actions write what the first writes and then what the second does. -/
theorem written_append : written (first ++ second) = written first ++ written second := by
  apply String.toList_inj.1
  simp [written, texts_append, String.join_eq]

/-- What they emit comes in the same order. -/
theorem emitted_append : emitted (first ++ second) = emitted first ++ emitted second :=
  List.filterMap_append

/-- The messages of the second list count what the first has written. -/
theorem messages_append (count : Nat) : messages count (first ++ second)
    = messages count first ++ messages (count + (written first).length) second := by
  induction first generalizing count with
  | nil => simp [messages, written, texts, String.join]
  | cons action rest ih =>
    cases action with
    | announce message => simp [messages, ih, written, texts]
    | emit file => simp [messages, ih, written, texts]
    | write text =>
      -- the text moves from what is written next to what was written before
      have h_written : written (.write text :: rest) = text ++ written rest :=
        written_append [.write text] rest
      rw [List.cons_append, messages, messages, ih, h_written, String.length_append, Nat.add_assoc]

end Append

end Action

/-- The actions of a step. -/
def Step.actions (style : Style) : Step → List Action
  | .announce message => [.announce message]
  | .emit file => [.emit file]
  | .write s => (s.writes style).map .write

/-- The actions of some steps. -/
def Step.allActions (style : Style) (steps : List Step) : List Action :=
  steps.flatMap (Step.actions style)

/-- Steps are carried out one after the other, so a list of them may be cut anywhere. -/
theorem Step.allActions_append (style : Style) (first second : List Step) :
    Step.allActions style (first ++ second) =
      Step.allActions style first ++ Step.allActions style second :=
  List.flatMap_append

/-! ### Performing actions -/

/-- **A sink takes all that some actions write**, `count` writes having been asked of it before. -/
def Behaviour.TakesAll (behaviour : Behaviour) : Nat → List Action → Prop
  | _, [] => True
  | count, .write text :: actions =>
    behaviour.onWrite count text = none ∧ TakesAll behaviour (count + 1) actions
  | count, _ :: actions => TakesAll behaviour count actions

/-- A sink takes two lists of actions if it takes the first and then, asked for more, the second. It
may behave differently from one write to the next, so the writes of the first are counted. -/
theorem Behaviour.takesAll_append {behaviour : Behaviour} {count : Nat}
    {first second : List Action} :
    behaviour.TakesAll count (first ++ second) ↔
      behaviour.TakesAll count first ∧
        behaviour.TakesAll (count + (Action.texts first).length) second := by
  induction first generalizing count with
  | nil => simp [TakesAll, Action.texts]
  | cons action rest ih =>
    cases action with
    | announce message => exact ih
    | emit file => exact ih
    | write text =>
      -- a write is asked for, so the second list starts one write later
      have h_count : count + (Action.texts (.write text :: rest)).length
          = count + 1 + (Action.texts rest).length := by
        rw [← List.singleton_append, Action.texts_append, List.length_append, ← Nat.add_assoc]
        rfl
      rw [List.cons_append, TakesAll, TakesAll, ih, h_count, and_assoc]

/-- A sink that refuses nothing takes everything. -/
theorem Behaviour.takesAll_of_forall {behaviour : Behaviour}
    (h : ∀ count text, behaviour.onWrite count text = none) (count : Nat) (actions : List Action) :
    behaviour.TakesAll count actions := by
  induction actions generalizing count with
  | nil => trivial
  | cons action rest ih =>
    cases action with
    | announce message => exact ih count
    | emit file => exact ih count
    | write text => exact ⟨h count text, ih (count + 1)⟩

namespace Progress

variable {p : Progress} {style : Style}

/-- Performs one action. -/
def act (p : Progress) : Action → Progress × Option Output.Error
  | .announce message =>
    ({ p with messages := p.messages ++ [⟨message, p.output.sink.text.length⟩] }, none)
  | .emit file => ({ p with emitted := p.emitted ++ [file] }, none)
  | .write text => ({ p with output := (p.output.write text).1 }, (p.output.write text).2)

/-- Performs some actions up to the first that fails. -/
def actAll (p : Progress) : List Action → Progress × Option Output.Error
  | [] => (p, none)
  | action :: actions =>
    match p.act action with
    | (p, some error) => (p, some error)
    | (p, none) => actAll p actions

/-- The second list is performed if the first came to its end. -/
theorem actAll_append (p : Progress) (first second : List Action) : p.actAll (first ++ second)
    = match p.actAll first with
      | (q, some error) => (q, some error)
      | (q, none) => q.actAll second := by
  induction first generalizing p with
  | nil => rfl
  | cons action rest ih =>
    rw [List.cons_append, actAll, actAll]
    -- if the first action fails, both sides have stopped there
    rcases p.act action with ⟨q, _ | error⟩
    · exact ih q
    · rfl

/-- Writing is what an output does by itself: the rest of the progress stays as it is. -/
theorem actAll_writes (p : Progress) (texts : List String) : p.actAll (texts.map .write)
    = ({ p with output := (p.output.writeAll texts).1 }, (p.output.writeAll texts).2) := by
  induction texts generalizing p with
  | nil => rfl
  | cons text texts ih =>
    rw [List.map_cons, actAll, act, Output.writeAll]
    rcases p.output.write text with ⟨o, _ | error⟩
    · exact ih { p with output := o }
    · rfl

/-- A step is carried out by performing its actions. -/
theorem step_eq_actAll (p : Progress) (step : Step) :
    p.step style step = p.actAll (step.actions style) := by
  cases step with
  | announce message => rfl
  | emit file => rfl
  | write s => exact (actAll_writes p (s.writes style)).symm

/-- Steps are carried out by performing their actions. From here on a script is a list of actions,
whatever steps it came in. -/
theorem carryOut_eq_actAll (p : Progress) (steps : List Step) :
    p.carryOut style steps = p.actAll (Step.allActions style steps) := by
  induction steps generalizing p with
  | nil => rfl
  | cons step steps ih =>
    rw [carryOut, step_eq_actAll, Step.allActions, List.flatMap_cons, actAll_append]
    -- the actions of the first step are a beginning of all actions
    rcases p.actAll (step.actions style) with ⟨q, _ | error⟩
    · exact ih q
    · rfl

/-- **The progress that some actions make** when nothing goes wrong. -/
def after (p : Progress) (actions : List Action) : Progress where
  output := { p.output with sink := { p.output.sink with
    text := p.output.sink.text ++ Action.written actions
    writes := p.output.sink.writes + (Action.texts actions).length } }
  messages := p.messages ++ Action.messages p.output.sink.text.length actions
  emitted := p.emitted ++ Action.emitted actions

/-- Progress adds up: what both lists have led to is what the second leads to after the first. -/
theorem after_append (first second : List Action) :
    p.after (first ++ second) = (p.after first).after second := by
  simp [after, Action.texts_append, Action.written_append, Action.emitted_append,
    Action.messages_append, String.append_assoc, Nat.add_assoc]

/-- No action, no progress. -/
theorem after_nil (p : Progress) : p.after [] = p := by
  simp [after, Action.written, Action.texts, Action.messages, Action.emitted, String.join]

/-- The progress made when a write was asked for and refused. -/
def refused (p : Progress) : Progress :=
  { p with
    output := { p.output with sink := { p.output.sink with writes := p.output.sink.writes + 1 } } }

/-- One action is performed, unless it is a write that is refused. A refusal leaves its mark on the
sink: the write was asked for, though nothing was written. -/
theorem act_cases (h_open : p.output.sink.closings = 0) (action : Action) :
    (p.output.behaviour.TakesAll p.output.sink.writes [action] ∧
        p.act action = (p.after [action], none)) ∨
      ∃ text errno, action = .write text ∧
        p.output.behaviour.onWrite p.output.sink.writes text = some errno ∧
        p.act action = (p.refused, some (.writing p.output.path errno)) := by
  cases action with
  | announce message => exact .inl ⟨trivial, by simp [act, after, Action.written, Action.texts,
      Action.messages, Action.emitted, String.join]⟩
  | emit file => exact .inl ⟨trivial, by simp [act, after, Action.written, Action.texts,
      Action.messages, Action.emitted, String.join]⟩
  | write text =>
    -- only a write can be refused, and only an open sink is asked
    have h_not : ¬ 0 < p.output.sink.closings := by omega
    cases h_write : p.output.behaviour.onWrite p.output.sink.writes text with
    | none =>
      refine .inl ⟨⟨h_write, trivial⟩, ?_⟩
      simp [act, Output.write, h_not, h_write, after, Action.written, Action.texts, Action.messages,
        Action.emitted, String.join]
    | some errno =>
      refine .inr ⟨text, errno, rfl, h_write, ?_⟩
      simp [act, Output.write, h_not, h_write, refused]

/-- **Actions are performed in order, all of them or those before the first write that is
refused.** -/
theorem actAll_cases (h_open : p.output.sink.closings = 0) (actions : List Action) :
    (p.output.behaviour.TakesAll p.output.sink.writes actions ∧
        p.actAll actions = (p.after actions, none)) ∨
      ∃ done text rest errno, actions = done ++ .write text :: rest ∧
        p.output.behaviour.TakesAll p.output.sink.writes done ∧
        p.output.behaviour.onWrite (p.output.sink.writes + (Action.texts done).length) text
            = some errno ∧
        p.actAll actions = ((p.after done).refused, some (.writing p.output.path errno)) := by
  -- on the actions, for every progress with an open sink, which performing an action leaves open
  induction actions generalizing p with
  | nil =>
    rw [after_nil]
    exact .inl ⟨trivial, rfl⟩
  | cons action rest ih =>
    rcases act_cases h_open action with ⟨h_takes, h_act⟩ | ⟨text, errno, rfl, h_refuses, h_act⟩
    · have h_first : p.actAll (action :: rest) = (p.after [action]).actAll rest := by
        rw [actAll, h_act]
      rcases @ih (p.after [action]) h_open with
        ⟨h_rest, h_all⟩ | ⟨done, text, more, errno, rfl, h_rest, h_refuses, h_all⟩
      · refine .inl ⟨(@Behaviour.takesAll_append _ _ [action] _).2 ⟨h_takes, h_rest⟩, ?_⟩
        rw [h_first, h_all, ← after_append]
        rfl
      · refine .inr ⟨action :: done, text, more, errno, rfl,
          (@Behaviour.takesAll_append _ _ [action] _).2 ⟨h_takes, h_rest⟩, ?_, ?_⟩
        · -- the writes are counted from the start, so the first one is counted too
          have h_count : p.output.sink.writes + (Action.texts (action :: done)).length
              = (p.after [action]).output.sink.writes + (Action.texts done).length := by
            rw [← List.singleton_append, Action.texts_append, List.length_append, ← Nat.add_assoc]
            rfl
          rw [h_count]
          exact h_refuses
        · rw [h_first, h_all, ← after_append]
          rfl
    · -- the first action is refused, so nothing has been done before it
      refine .inr ⟨[], text, rest, errno, rfl, trivial, h_refuses, ?_⟩
      rw [actAll, h_act, after_nil]

/-- The actions of some steps are performed in order, all of them or those before the first write
that is refused. -/
theorem carryOut_cases (h_open : p.output.sink.closings = 0) (steps : List Step) :
    (p.output.behaviour.TakesAll p.output.sink.writes (Step.allActions style steps) ∧
        p.carryOut style steps = (p.after (Step.allActions style steps), none)) ∨
      ∃ done text rest errno, Step.allActions style steps = done ++ .write text :: rest ∧
        p.output.behaviour.TakesAll p.output.sink.writes done ∧
        p.output.behaviour.onWrite (p.output.sink.writes + (Action.texts done).length) text
            = some errno ∧
        p.carryOut style steps = ((p.after done).refused, some (.writing p.output.path errno)) := by
  rw [carryOut_eq_actAll]
  exact actAll_cases h_open _

end Progress

/-! ### What a file contributes -/

/-- **A compiler emits a declaration for a file** and has nothing to say against it. -/
structure Program.Emits (program : Program) (file : String) (d : Declaration) : Prop where
  isSkipped : (program.emit file).isSkipped = false
  declaration : (program.emit file).declaration = some d
  complaints : program.complaints (program.emit file) file = []

/-- A program hands out the declaration of a file exactly if it has emitted one without a
complaint. -/
theorem Program.check_eq_ok_iff {program : Program} {file : String} {d : Declaration} :
    program.check (program.emit file) file = .ok d ↔ program.Emits file d := by
  unfold check
  constructor
  · intro h
    split at h
    · next found h_found =>
      split at h
      · cases h
      · next h_none =>
        cases h
        simp only [Bool.or_eq_true, not_or, Bool.not_eq_true, Bool.not_eq_false'] at h_none
        exact ⟨h_none.1, h_found, List.isEmpty_iff.1 h_none.2⟩
    · cases h
  · intro ⟨h_skipped, h_declaration, h_complaints⟩
    simp [h_skipped, h_declaration, h_complaints]

/-- It refuses exactly if the emission was skipped, gave no declaration or has complaints against
it, and then the complaints are all that it says. They can be empty: a skipped emission need not
come with a diagnostic. -/
theorem Program.check_eq_error_iff {program : Program} {file : String}
    {diagnostics : List Diagnostic} :
    program.check (program.emit file) file = .error diagnostics ↔
      ((program.emit file).isSkipped = true ∨ (program.emit file).declaration = none ∨
        program.complaints (program.emit file) file ≠ []) ∧
        diagnostics = program.complaints (program.emit file) file := by
  unfold check
  cases h_declaration : (program.emit file).declaration with
  | none =>
    -- without a declaration the complaints are handed out, be there any or not
    simp only [Except.error.injEq, true_or, or_true, true_and]
    exact eq_comm
  | some d =>
    simp only [reduceCtorEq, false_or]
    split
    · next h_some =>
      simp only [Bool.or_eq_true, Bool.not_eq_true', List.isEmpty_eq_false_iff] at h_some
      simp only [Except.error.injEq, h_some, true_and]
      exact eq_comm
    · next h_none =>
      simp only [Bool.or_eq_true, Bool.not_eq_true', List.isEmpty_eq_false_iff] at h_none
      simp [h_none]

namespace Bundle

section Files

variable (config : Config) (program : Program) (host : Script.Host) (source : SourceFile)

/-- **What a bundled file contributes.** A declaration file is copied; a declaration that was
emitted stands in a block under its id if it is a module, and as it is otherwise. -/
inductive Contribution : Section → Prop where
  | copied {text : String} (h_kind : ModuleId.isDeclarationFile source.name = true)
      (h_text : Script.textOf host source = .ok text) : Contribution (.copied source.name text)
  | script {d : Declaration} (h_kind : ModuleId.isDeclarationFile source.name = false)
      (h_emits : program.Emits source.name d) (h_script : d.isExternalModule = false) :
      Contribution (.script d.fileName d.text)
  | block {d : Declaration} {content : String}
      (h_kind : ModuleId.isDeclarationFile source.name = false)
      (h_emits : program.Emits source.name d) (h_module : d.isExternalModule = true)
      (h_fits : host.stack.overflows (.nodes d.tree) = false)
      (h_content : d.rehomed (ModuleId.ofFile d.fileName config.baseDir config.name)
          = .ok content) :
      Contribution (.block (ModuleId.ofFile d.fileName config.baseDir config.name) content)

/-- **What can be at fault with a bundled file.** A declaration file cannot be read; a source was
not emitted, or the compiler has something to say against it; or what was emitted is a module that
cannot be moved to its block, since its tree does not fit on the stack, or since a node of the tree
cuts a character of the text. The last never happens with a parser whose nodes cut none. -/
inductive Fault : Failure → Prop where
  | unreadable {failure : Failure} (h_kind : ModuleId.isDeclarationFile source.name = true)
      (h_text : Script.textOf host source = .error failure) : Fault failure
  | rejected (h_kind : ModuleId.isDeclarationFile source.name = false)
      (h_emission : (program.emit source.name).isSkipped = true ∨
        (program.emit source.name).declaration = none ∨
        program.complaints (program.emit source.name) source.name ≠ []) :
      Fault (.rejected (program.complaints (program.emit source.name) source.name))
  | overflow {d : Declaration} (h_kind : ModuleId.isDeclarationFile source.name = false)
      (h_emits : program.Emits source.name d) (h_module : d.isExternalModule = true)
      (h_deep : host.stack.overflows (.nodes d.tree) = true) : Fault .overflow
  | unmoved {d : Declaration} {error : Utf8.DecodeError}
      (h_kind : ModuleId.isDeclarationFile source.name = false)
      (h_emits : program.Emits source.name d) (h_module : d.isExternalModule = true)
      (h_fits : host.stack.overflows (.nodes d.tree) = false)
      (h_error : d.rehomed (ModuleId.ofFile d.fileName config.baseDir config.name)
          = .error error) :
      Fault (.undecodable error)

/-- The section of a file, or what is at fault with the file. -/
def pieceOf : Except Failure Section :=
  if ModuleId.isDeclarationFile source.name then
    (Script.textOf host source).map (.copied source.name)
  else
    match program.check (program.emit source.name) source.name with
    | .ok d => Script.hostedSection host config d
    | .error diagnostics => .error (.rejected diagnostics)

variable {config program host source}

/-! A declaration goes one of four ways, and each of them has its lemma. -/

/-- A declaration that is no module is written as it is, and no tree is walked for it. -/
theorem hostedSection_of_script {d : Declaration} (h : d.isExternalModule = false) :
    Script.hostedSection host config d = .ok (.script d.fileName d.text) := by
  unfold Script.hostedSection Script.sectionOf
  rw [if_neg (by simp [h]), if_neg (by simp [h])]

/-- A module whose tree is deeper than the stack ends the run. -/
theorem hostedSection_of_overflow {d : Declaration} (h : d.isExternalModule = true)
    (h_deep : host.stack.overflows (.nodes d.tree) = true) :
    Script.hostedSection host config d = .error .overflow := by
  unfold Script.hostedSection
  rw [if_pos (by rw [h, h_deep]; rfl)]

/-- A tree that fits on the stack makes no difference. -/
theorem hostedSection_of_fits {d : Declaration}
    (h_fits : host.stack.overflows (.nodes d.tree) = false) :
    Script.hostedSection host config d = Script.sectionOf config d := by
  unfold Script.hostedSection
  rw [if_neg (by simp [h_fits])]

/-- A module that can be moved stands in a block under its id. -/
theorem sectionOf_of_module {d : Declaration} {content : String} (h : d.isExternalModule = true)
    (h_content : d.rehomed (ModuleId.ofFile d.fileName config.baseDir config.name) = .ok content) :
    Script.sectionOf config d
      = .ok (.block (ModuleId.ofFile d.fileName config.baseDir config.name) content) := by
  unfold Script.sectionOf
  rw [if_pos h]
  simp only [h_content]

/-- A module that cannot be moved gives no section, but the error that its texts were read with. -/
theorem sectionOf_of_unmoved {d : Declaration} {error : Utf8.DecodeError}
    (h : d.isExternalModule = true)
    (h_error : d.rehomed (ModuleId.ofFile d.fileName config.baseDir config.name) = .error error) :
    Script.sectionOf config d = .error (.undecodable error) := by
  unfold Script.sectionOf
  rw [if_pos h]
  simp only [h_error]

/-- **A bundled file contributes or is at fault**, as its section is there or not. The two relations
describe the one function, so that neither leaves out an outcome and no file is in both. -/
theorem pieceOf_cases :
    (∃ piece, pieceOf config program host source = .ok piece ∧
        Contribution config program host source piece) ∨
      ∃ failure, pieceOf config program host source = .error failure ∧
        Fault config program host source failure := by
  unfold pieceOf
  cases h_kind : ModuleId.isDeclarationFile source.name with
  | true =>
    -- a declaration file is read here and now
    rw [if_pos rfl]
    cases h_text : Script.textOf host source with
    | ok text => exact .inl ⟨_, rfl, .copied h_kind h_text⟩
    | error failure => exact .inr ⟨_, rfl, .unreadable h_kind h_text⟩
  | false =>
    rw [if_neg Bool.false_ne_true]
    cases h_check : program.check (program.emit source.name) source.name with
    | error diagnostics =>
      obtain ⟨h_emission, rfl⟩ := Program.check_eq_error_iff.1 h_check
      exact .inr ⟨_, rfl, .rejected h_kind h_emission⟩
    | ok d =>
      have h_emits := Program.check_eq_ok_iff.1 h_check
      cases h_module : d.isExternalModule with
      | false =>
        exact .inl ⟨_, hostedSection_of_script h_module, .script h_kind h_emits h_module⟩
      | true =>
        -- a module has to be moved, which takes a walk over its tree and text that can be read
        cases h_fits : host.stack.overflows (.nodes d.tree) with
        | true =>
          exact .inr ⟨_, hostedSection_of_overflow h_module h_fits,
            .overflow h_kind h_emits h_module h_fits⟩
        | false =>
          simp only [hostedSection_of_fits h_fits]
          cases h_moved : d.rehomed (ModuleId.ofFile d.fileName config.baseDir config.name) with
          | ok content =>
            exact .inl ⟨_, sectionOf_of_module h_module h_moved,
              .block h_kind h_emits h_module h_fits h_moved⟩
          | error error =>
            exact .inr ⟨_, sectionOf_of_unmoved h_module h_moved,
              .unmoved h_kind h_emits h_module h_fits h_moved⟩

/-- A contribution is the section of its file. -/
theorem Contribution.pieceOf_eq {piece : Section}
    (h : Contribution config program host source piece) :
    pieceOf config program host source = .ok piece := by
  unfold pieceOf
  cases h with
  | copied h_kind h_text =>
    rw [if_pos h_kind, h_text]
    rfl
  | script h_kind h_emits h_script =>
    rw [if_neg (by simp [h_kind]), Program.check_eq_ok_iff.2 h_emits]
    exact hostedSection_of_script h_script
  | block h_kind h_emits h_module h_fits h_content =>
    rw [if_neg (by simp [h_kind]), Program.check_eq_ok_iff.2 h_emits]
    exact (hostedSection_of_fits h_fits).trans (sectionOf_of_module h_module h_content)

/-- A fault is why its file has no section. -/
theorem Fault.pieceOf_eq {failure : Failure} (h : Fault config program host source failure) :
    pieceOf config program host source = .error failure := by
  unfold pieceOf
  cases h with
  | unreadable h_kind h_text =>
    rw [if_pos h_kind, h_text]
    rfl
  | rejected h_kind h_emission =>
    rw [if_neg (by simp [h_kind]), Program.check_eq_error_iff.2 ⟨h_emission, rfl⟩]
  | overflow h_kind h_emits h_module h_deep =>
    rw [if_neg (by simp [h_kind]), Program.check_eq_ok_iff.2 h_emits]
    exact hostedSection_of_overflow h_module h_deep
  | unmoved h_kind h_emits h_module h_fits h_error =>
    rw [if_neg (by simp [h_kind]), Program.check_eq_ok_iff.2 h_emits]
    exact (hostedSection_of_fits h_fits).trans (sectionOf_of_unmoved h_module h_error)

/-- The contributions of a file are its sections, and it has at most one. -/
theorem pieceOf_eq_ok_iff {piece : Section} :
    pieceOf config program host source = .ok piece ↔
      Contribution config program host source piece := by
  refine ⟨fun h => ?_, Contribution.pieceOf_eq⟩
  obtain ⟨found, h_found, h_piece⟩ | ⟨failure, h_error, -⟩ :=
    @pieceOf_cases config program host source
  · cases h.symm.trans h_found
    exact h_piece
  · cases h.symm.trans h_error

/-- **Only a fault keeps a file from contributing.** -/
theorem pieceOf_eq_error_iff {failure : Failure} :
    pieceOf config program host source = .error failure ↔
      Fault config program host source failure := by
  refine ⟨fun h => ?_, Fault.pieceOf_eq⟩
  obtain ⟨piece, h_piece, -⟩ | ⟨found, h_found, h_fault⟩ :=
    @pieceOf_cases config program host source
  · cases h.symm.trans h_piece
  · cases h.symm.trans h_found
    exact h_fault

end Files

/-! ### The plan of a run -/

/-- What is done about a file before it contributes. -/
def leadSteps (file : String) : List Step :=
  .announce (Script.processing file) :: if ModuleId.isDeclarationFile file then [] else [.emit file]

/-- The references that a run begins with. -/
def externSteps (config : Config) : List Step :=
  config.externs.flatMap fun path =>
    [.announce s!"Writing external dependency {path}", .write (.reference path)]

/-- What is done about some files. -/
def fileSteps (pieces : List (SourceFile × Section)) : List Step :=
  pieces.flatMap fun piece => leadSteps piece.1.name ++ [.write piece.2]

/-- The alias that a run ends with, if there is a main module. -/
def mainSteps (config : Config) : List Step :=
  match Script.mainModule? config with
  | none => []
  | some main =>
    [.write (.mainAlias config.name main),
      .announce s!"Aliased main module {config.name} to {main}"]

/-- **What a run does that nothing stops**, `pieces` being the files that are bundled with what each
contributes. -/
def plan (config : Config) (pieces : List (SourceFile × Section)) : List Step :=
  externSteps config ++ (fileSteps pieces ++ mainSteps config)

/-- The files of a program that are bundled. -/
def bundled (cwd : String) (config : Config) (program : Program) : List SourceFile :=
  program.files.filter fun source =>
    Selection.isBundled config.baseDir (excluded cwd config) source.name

/-- **The pieces of a program**: the files that are bundled, each with what it contributes. A file
that something is at fault with has any section in the place of its contribution. -/
structure ArePieces (cwd : String) (config : Config) (program : Program) (host : Script.Host)
    (pieces : List (SourceFile × Section)) : Prop where
  files : pieces.map Prod.fst = bundled cwd config program
  each : ∀ piece ∈ pieces, Contribution config program host piece.1 piece.2 ∨
    ∃ failure, Fault config program host piece.1 failure

/-- What is found for each of some files makes a list. -/
theorem exists_pieces {holds : SourceFile → Section → Prop} {sources : List SourceFile}
    (h : ∀ source ∈ sources, ∃ piece, holds source piece) :
    ∃ pieces : List (SourceFile × Section), pieces.map Prod.fst = sources ∧
      ∀ piece ∈ pieces, holds piece.1 piece.2 := by
  induction sources with
  | nil => exact ⟨[], rfl, fun _ h_mem => absurd h_mem List.not_mem_nil⟩
  | cons source sources ih =>
    obtain ⟨piece, h_piece⟩ := h source (List.mem_cons_self ..)
    obtain ⟨pieces, rfl, h_pieces⟩ := ih fun other h_mem => h other (List.mem_cons_of_mem _ h_mem)
    exact ⟨(source, piece) :: pieces, rfl, List.forall_mem_cons.2 ⟨h_piece, h_pieces⟩⟩

/-- **Every program has its pieces**, and none need be known to be good for that: a file that
something is at fault with gets a section that is never looked at. -/
theorem exists_arePieces (cwd : String) (config : Config) (program : Program)
    (host : Script.Host) : ∃ pieces, ArePieces cwd config program host pieces := by
  have h_each : ∀ source ∈ bundled cwd config program, ∃ piece,
      Contribution config program host source piece ∨
        ∃ failure, Fault config program host source failure := by
    intro source _
    cases h_piece : pieceOf config program host source with
    | ok piece => exact ⟨piece, .inl (pieceOf_eq_ok_iff.1 h_piece)⟩
    -- any section will do for this file
    | error failure =>
      exact ⟨.copied source.name "", .inr ⟨failure, pieceOf_eq_error_iff.1 h_piece⟩⟩
  obtain ⟨pieces, h_files, h_pieces⟩ := exists_pieces h_each
  exact ⟨pieces, h_files, h_pieces⟩

end Bundle

namespace Script

open DeclarationBundle.Bundle

/-- Steps that cannot fail stand before those of the next script, whose failure is the failure of
both. -/
theorem andThen_ofSteps (steps : List Step) (script : Script) :
    (ofSteps steps).andThen script = ⟨steps ++ script.steps, script.failure⟩ :=
  rfl

/-- The empty script makes no difference. -/
theorem empty_andThen (script : Script) : empty.andThen script = script :=
  rfl

/-- Scripts that cannot fail, one after the other, are one script that cannot. -/
theorem sequence_map_ofSteps {α : Type} (f : α → List Step) (items : List α) :
    sequence (items.map fun item => ofSteps (f item)) = ofSteps (items.flatMap f) := by
  induction items with
  | nil => rfl
  | cons item items ih =>
    rw [List.map_cons, sequence, ih, List.flatMap_cons]
    rfl

/-- The end of a run cannot fail. -/
theorem ofMain_eq (config : Config) : ofMain config = ofSteps (mainSteps config) := by
  unfold ofMain mainSteps
  cases mainModule? config <;> rfl

section Files

variable {config : Config} {program : Program} {host : Host} {source : SourceFile}

/-- A file is announced, emitted if need be, and then it contributes or something is at fault with
it. -/
theorem ofBundled_eq : ofBundled config program host source
    = (ofSteps (leadSteps source.name)).andThen
        (ofSection (pieceOf config program host source)) := by
  unfold ofBundled pieceOf leadSteps
  split
  · rfl
  · unfold ofEmission
    cases program.check (program.emit source.name) source.name <;> rfl

/-- A file that contributes has its section written. -/
theorem ofBundled_of_contribution {piece : Section}
    (h : Contribution config program host source piece) :
    ofBundled config program host source
        = ofSteps (leadSteps source.name ++ [.write piece]) := by
  rw [ofBundled_eq, pieceOf_eq_ok_iff.2 h]
  rfl

/-- A file that something is at fault with has been announced, and emitted if it is a source, before
that is found. -/
theorem ofBundled_of_fault {failure : Failure} (h : Fault config program host source failure) :
    ofBundled config program host source = ⟨leadSteps source.name, some failure⟩ := by
  rw [ofBundled_eq, pieceOf_eq_error_iff.2 h]
  simp [ofSection, fail, andThen_ofSteps]

/-- Files that are not bundled make no difference. -/
theorem sequence_ofFile (excluded : List String) (files : List SourceFile) :
    sequence (files.map (ofFile config excluded program host))
      = sequence
        ((files.filter fun source => Selection.isBundled config.baseDir excluded source.name).map
          (ofBundled config program host)) := by
  induction files with
  | nil => rfl
  | cons source files ih =>
    rw [List.map_cons, sequence, ih, ofFile]
    -- a file that is not bundled has the empty script
    by_cases h : Selection.isBundled config.baseDir excluded source.name = true
    · rw [if_pos h, List.filter_cons, if_pos h, List.map_cons, sequence]
    · rw [if_neg h, List.filter_cons, if_neg h, empty_andThen]

/-- Some files contribute up to the first that something is at fault with. The files behind it are
neither announced nor emitted. -/
theorem sequence_ofBundled_cases {pieces : List (SourceFile × Section)}
    (h : ∀ piece ∈ pieces, Contribution config program host piece.1 piece.2 ∨
      ∃ failure, Fault config program host piece.1 failure) :
    ((∀ piece ∈ pieces, Contribution config program host piece.1 piece.2) ∧
        sequence ((pieces.map Prod.fst).map (ofBundled config program host))
            = ofSteps (fileSteps pieces)) ∨
      ∃ before source piece after failure, pieces = before ++ (source, piece) :: after ∧
        (∀ earlier ∈ before, Contribution config program host earlier.1 earlier.2) ∧
        Fault config program host source failure ∧
        sequence ((pieces.map Prod.fst).map (ofBundled config program host))
          = ⟨fileSteps before ++ leadSteps source.name, some failure⟩ := by
  induction pieces with
  | nil => exact .inl ⟨fun _ h_mem => absurd h_mem List.not_mem_nil, rfl⟩
  | cons first rest ih =>
    rw [List.map_cons, List.map_cons, sequence]
    rcases h first (List.mem_cons_self ..) with h_first | ⟨failure, h_fault⟩
    · -- the first contributes, so the others decide
      rw [ofBundled_of_contribution h_first, andThen_ofSteps]
      rcases ih fun piece h_mem => h piece (List.mem_cons_of_mem _ h_mem) with
        ⟨h_all, h_steps⟩ | ⟨before, source, piece, after, failure, rfl, h_before, h_fault, h_steps⟩
      · refine .inl ⟨List.forall_mem_cons.2 ⟨h_first, h_all⟩, ?_⟩
        rw [h_steps]
        rfl
      · refine .inr ⟨first :: before, source, piece, after, failure, rfl,
          List.forall_mem_cons.2 ⟨h_first, h_before⟩, h_fault, ?_⟩
        rw [h_steps]
        simp [fileSteps]
    · -- a script that fails is not followed by another
      refine .inr ⟨[], first.1, first.2, rest, failure, rfl,
        fun _ h_mem => absurd h_mem List.not_mem_nil, h_fault, ?_⟩
      rw [ofBundled_of_fault h_fault]
      rfl

/-- **The script of a program is the plan of its files, or the plan up to the first file that
something is at fault with.** -/
theorem ofProgram_cases {cwd : String} {pieces : List (SourceFile × Section)}
    (h : ArePieces cwd config program host pieces) :
    ((∀ piece ∈ pieces, Contribution config program host piece.1 piece.2) ∧
        ofProgram config (excluded cwd config) program host = ofSteps (plan config pieces)) ∨
      ∃ before source piece after failure, pieces = before ++ (source, piece) :: after ∧
        (∀ earlier ∈ before, Contribution config program host earlier.1 earlier.2) ∧
        Fault config program host source failure ∧
        ofProgram config (excluded cwd config) program host
          = ⟨externSteps config ++ (fileSteps before ++ leadSteps source.name), some failure⟩ := by
  have h_externs : sequence (config.externs.map ofExtern) = ofSteps (externSteps config) :=
    sequence_map_ofSteps _ _
  have h_files : sequence (program.files.map (ofFile config (excluded cwd config) program host))
      = sequence ((pieces.map Prod.fst).map (ofBundled config program host)) := by
    rw [h.files]
    exact sequence_ofFile _ _
  -- the references come first and the alias last, and neither can fail
  unfold ofProgram
  rw [h_externs, ofMain_eq, h_files, andThen_ofSteps]
  rcases sequence_ofBundled_cases h.each with
    ⟨h_all, h_steps⟩ | ⟨before, source, piece, after, failure, rfl, h_before, h_fault, h_steps⟩
  · refine .inl ⟨h_all, ?_⟩
    rw [h_steps]
    rfl
  · refine .inr ⟨before, source, piece, after, failure, rfl, h_before, h_fault, ?_⟩
    rw [h_steps]
    rfl

end Files

end Script

namespace Bundle

/-! ### Runs -/

/-- A file cannot both contribute and be at fault. -/
theorem Contribution.not_fault {config : Config} {program : Program} {host : Script.Host}
    {source : SourceFile} {piece : Section} (h : Contribution config program host source piece)
    (failure : Failure) : ¬ Fault config program host source failure := by
  intro h_fault
  -- the section of the file would be there and not be there
  have h_piece := (pieceOf_eq_ok_iff.2 h).symm.trans (pieceOf_eq_error_iff.2 h_fault)
  cases h_piece

/-- An output that could be opened is a file that was opened: the stack was deep enough to make the
directories above it. -/
theorem openFresh_of_openOutput {s : Surroundings} {out : String} {tree : FileTree} {place : Place}
    (h : openOutput s out = .ok (tree, place)) :
    s.tree.openFresh s.cwd out = .ok (tree, place) := by
  unfold openOutput at h
  split at h
  · cases h
  · cases h_open : s.tree.openFresh s.cwd out with
    | error error => rw [h_open] at h; cases h
    | ok opened =>
      rw [h_open] at h
      exact congrArg _ (Except.ok.inj h)

/-- **A run with a program and an output** carries out the script of the program. Files are read
once the output is open, from the tree with the output in it, so that a file that is bundled into
itself is found empty. -/
theorem generate_of_openOutput {s : Surroundings} {config : Config}
    {compile : List String → Compilation} {program : Program} {tree : FileTree} {place : Place}
    (h_program : (compile (roots s.cwd config)).program = .ok program)
    (h_open : openOutput s config.out = .ok (tree, place)) {p : Progress}
    {outcome : Except Failure Summary}
    (h_run : perform config (.fresh s.behaviour (some config.out))
      (.ofProgram config (excluded s.cwd config) program (hostOf s tree)) = (p, outcome)) :
    generate s config compile =
      { outcome, messages := p.messages, emitted := p.emitted
        warnings := (compile (roots s.cwd config)).warnings ++ p.output.warnings
        invocation := (compile (roots s.cwd config)).invocation
        tree := tree.put place (.file (Utf8.encode p.output.sink.text)),
        output := some p.output } := by
  unfold generate
  simp only [h_program, h_open, h_run]

/-- Such a run ends as its script does on the output. -/
theorem outcome_of_openOutput {s : Surroundings} {config : Config}
    {compile : List String → Compilation} {program : Program} {tree : FileTree} {place : Place}
    (h_program : (compile (roots s.cwd config)).program = .ok program)
    (h_open : openOutput s config.out = .ok (tree, place)) :
    (generate s config compile).outcome = (perform config (.fresh s.behaviour (some config.out))
      (.ofProgram config (excluded s.cwd config) program (hostOf s tree))).2 := by
  unfold generate
  simp only [h_program, h_open]

/-- The progress of a run that has done some actions on a fresh output. -/
def begun (behaviour : Behaviour) (path : Option String) (done : List Action) : Progress :=
  (Progress.start (.fresh behaviour path)).after done

/-- The progress of a run that has come to its end. -/
def completed (p : Progress) : Progress :=
  { p with output := { p.output.shut with isComplete := true } }

/-- Steps whose texts a fresh output takes are all carried out: the other case of
`Progress.carryOut_cases` has a write that is refused among those that are taken. -/
theorem carryOut_of_takesAll {behaviour : Behaviour} {path : Option String} {style : Style}
    {steps : List Step} (h_takes : behaviour.TakesAll 0 (Step.allActions style steps)) :
    (Progress.start (.fresh behaviour path)).carryOut style steps
      = (begun behaviour path (Step.allActions style steps), none) := by
  rcases @Progress.carryOut_cases (Progress.start (.fresh behaviour path)) style rfl steps with
    ⟨-, h_all⟩ | ⟨done, text, rest, errno, h_steps, -, h_refuses, -⟩
  · exact h_all
  · rw [h_steps] at h_takes
    exact absurd ((Behaviour.takesAll_append.1 h_takes).2.1.symm.trans h_refuses) (by simp)

/-- A script that nothing stops, on an output that takes all that it writes. -/
theorem perform_of_takesAll {config : Config} {behaviour : Behaviour} {path : Option String}
    {steps : List Step}
    (h_takes : behaviour.TakesAll 0 (Step.allActions (styleOf config) steps))
    (h_closes : behaviour.onClose = none) :
    perform config (.fresh behaviour path) (.ofSteps steps)
      = (completed (begun behaviour path (Step.allActions (styleOf config) steps)),
          .ok ((Script.ofSteps steps).summary config)) := by
  have h_close : (begun behaviour path (Step.allActions (styleOf config) steps)).output.close
      = ((completed (begun behaviour path (Step.allActions (styleOf config) steps))).output,
          none) := by
    simp [Output.close, begun, completed, Progress.after, Progress.start, Output.fresh, h_closes]
  unfold perform Script.ofSteps
  simp only [carryOut_of_takesAll h_takes, h_close]
  rfl

/-! ### A small run -/

/-- A directory with one declaration file, and an output that behaves in some way. -/
def smallSurroundings (behaviour : Behaviour) : Surroundings where
  cwd := "/work"
  tree := ⟨[(["work", "src", "globals.d.ts"], .file (Utf8.encode "declare var x: any;"))]⟩
  behaviour := behaviour
  stack := .unbounded

/-- A configuration with one extern and a main module. -/
def smallConfig : Config where
  baseDir := "/work/src"
  files := ["a.ts"]
  excludes := []
  externs := ["node.d.ts"]
  eol := "\n"
  includes := []
  indent := "\t"
  main := some "./a"
  name := "pkg"
  out := "bundle.d.ts"
  target := "latest"
  compiler := ["tsc"]

/-- A file of the host, which is not bundled, a declaration file and a source. `said` is said
against the last. -/
def smallProgram (said : List Diagnostic) : Program where
  files := [⟨"/lib/lib.d.ts", none⟩, ⟨"/work/src/globals.d.ts", none⟩, ⟨"/work/src/a.ts", none⟩]
  emit := fun _ => ⟨false, said,
    some (.parsed Syntax.parse "/work/src/a.d.ts" "export declare const a: number;\n")⟩
  diagnostics := fun _ _ => []

end Bundle

end DeclarationBundle
