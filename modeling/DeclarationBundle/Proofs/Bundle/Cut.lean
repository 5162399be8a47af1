import DeclarationBundle.Compiler.Run
import DeclarationBundle.Proofs.Bundle.Plan
import DeclarationBundle.Proofs.FileTree.Opening

/-!
# A run that fails is cut cleanly

A run performs its plan up to the first place where something is at fault, and then closes the
output as it is. If there is no program, it does not even begin.

* `Bundle.FaultAt` are the places of a plan where a run can end: before a write that the sink
  refuses, and where a file that something is at fault with was to contribute.
* `Bundle.generate_cut`: nothing is done but what the plan has before the first of these, and all of
  that.

That the first place counts is seen from both ends. No place of a fault lies inside what was done,
since the sink took all of it and every file before contributed (`Bundle.leadingTo_isPrefix`); and
what was done ends at such a place (`Bundle.perform_of_stop`).
-/

namespace DeclarationBundle.Bundle

variable {s : Surroundings} {config : Config} {compile : List String → Compilation}
  {program : Program} {host : Script.Host} {tree : FileTree} {place : Place}
  {pieces : List (SourceFile × Section)}

/-- The actions of a plan. -/
def planned (config : Config) (pieces : List (SourceFile × Section)) : List Action :=
  Step.allActions (styleOf config) (plan config pieces)

/-- The actions before a file contributes: the references, all about the files before it, and what
is done about the file itself until its text is at hand. -/
def leadingTo (config : Config) (before : List (SourceFile × Section)) (source : SourceFile) :
    List Action :=
  Step.allActions (styleOf config)
    (externSteps config ++ (fileSteps before ++ leadSteps source.name))

/-- **A place in a plan where a run can end**, `done` being the actions before it and `rest` those
after it: the sink refuses the next write, or something is at fault with the file that is to
contribute next. -/
inductive FaultAt (behaviour : Behaviour) (config : Config) (program : Program)
    (host : Script.Host) (pieces : List (SourceFile × Section)) :
    List Action → List Action → Failure → Prop where
  | refused {done rest : List Action} {text : String} {errno : Errno}
      (h_refuses : behaviour.onWrite (Action.texts done).length text = some errno) :
      FaultAt behaviour config program host pieces done (.write text :: rest)
        (.output (.writing (some config.out) errno))
  | file {before after : List (SourceFile × Section)} {source : SourceFile} {piece : Section}
      {rest : List Action} {failure : Failure}
      (h_pieces : pieces = before ++ (source, piece) :: after)
      (h_fault : Fault config program host source failure) :
      FaultAt behaviour config program host pieces
        (leadingTo config before source) rest failure

/-- **What can be seen of a run that did some actions**: its output holds what they write, and it
sent their messages and had their files emitted. -/
structure Shows (r : Report) (cwd out : String) (done : List Action) : Prop where
  stored : r.tree.read cwd out = .ok (Utf8.encode (Action.written done))
  messages : r.messages = Action.messages 0 done
  emitted : r.emitted = Action.emitted done

/-! ### Where a script is stopped -/

/-- Leaving an output that is open closes it and makes no difference to what it holds, nor to
whether it is complete. The sink is asked to close once. -/
theorem leave_of_open {o : Output} (h : o.isClosed = false) :
    o.leave.isClosed = true ∧ o.leave.isComplete = o.isComplete ∧ o.leave.sink.text = o.sink.text ∧
      o.leave.sink.closings = o.sink.closings + 1 := by
  unfold Output.leave
  rw [if_neg (by simp [h])]
  split <;> exact ⟨rfl, rfl, rfl, rfl⟩

/-- A run that did some actions and was then stopped, its output closed as it was. -/
structure StoppedAfter (p : Progress) (done : List Action) : Prop where
  text : p.output.sink.text = Action.written done
  messages : p.messages = Action.messages 0 done
  emitted : p.emitted = Action.emitted done
  isClosed : p.output.isClosed = true
  isComplete : p.output.isComplete = false
  closings : p.output.sink.closings = 1

/-- A run that is given up. -/
def abandon (p : Progress) : Progress :=
  { p with output := p.output.leave }

/-- A run that is given up has the output of the actions that it did, be it given up between two
writes or at one that was refused: a write that is refused leaves nothing behind. -/
theorem stoppedAfter_abandon {p : Progress} {behaviour : Behaviour} {path : Option String}
    {done : List Action}
    (h : p = begun behaviour path done ∨ p = (begun behaviour path done).refused) :
    StoppedAfter (abandon p) done := by
  have h_open : p.output.isClosed = false := by rcases h with rfl | rfl <;> rfl
  obtain ⟨h_closed, h_complete, h_text, h_closings⟩ := leave_of_open h_open
  -- the run began with nothing written, nothing sent and nothing emitted
  have h_begun : p.output.sink.text = "" ++ Action.written done ∧
      p.messages = [] ++ Action.messages 0 done ∧ p.emitted = [] ++ Action.emitted done ∧
      p.output.isComplete = false ∧ p.output.sink.closings = 0 := by
    rcases h with rfl | rfl <;> exact ⟨rfl, rfl, rfl, rfl, rfl⟩
  rw [String.empty_append, List.nil_append, List.nil_append] at h_begun
  obtain ⟨h_written, h_messages, h_emitted, h_incomplete, h_never⟩ := h_begun
  exact ⟨h_text.trans h_written, h_messages, h_emitted, h_closed, h_complete.trans h_incomplete,
    h_closings.trans (by rw [h_never])⟩

/-- **A script on a fresh output** is carried out whole, or it stops before a write that is refused,
or it stops at its own failure. -/
theorem perform_of_stop (behaviour : Behaviour) (path : Option String) (script : Script) :
    (behaviour.TakesAll 0 (Step.allActions (styleOf config) script.steps) ∧ script.failure = none) ∨
      ∃ done rest failure p, Step.allActions (styleOf config) script.steps = done ++ rest ∧
        behaviour.TakesAll 0 done ∧
        perform config (.fresh behaviour path) script = (p, .error failure) ∧ StoppedAfter p done ∧
        ((rest = [] ∧ script.failure = some failure) ∨ ∃ text more errno,
          rest = .write text :: more ∧
          behaviour.onWrite (Action.texts done).length text = some errno ∧
          failure = .output (.writing path errno)) := by
  -- the steps are carried out first, and only if that succeeds is the failure of the script looked
  -- at
  rcases @Progress.carryOut_cases (Progress.start (.fresh behaviour path)) (styleOf config) rfl
      script.steps with
    ⟨h_takes, h_carry⟩ | ⟨done, text, more, errno, h_steps, h_takes, h_refuses, h_carry⟩
  · -- all is written, so the script itself decides
    cases h_failure : script.failure with
    | none => exact .inl ⟨h_takes, rfl⟩
    | some failure =>
      have h_run : perform config (.fresh behaviour path) script
          = (abandon (begun behaviour path (Step.allActions (styleOf config) script.steps)),
              .error failure) := by
        unfold perform
        simp only [h_carry, h_failure]
        rfl
      exact .inr ⟨_, [], failure, _, (List.append_nil _).symm, h_takes, h_run,
        stoppedAfter_abandon (.inl rfl), .inl ⟨rfl, rfl⟩⟩
  · -- a write was refused, and the output is closed as it was before it
    have h_run : perform config (.fresh behaviour path) script =
        (abandon (begun behaviour path done).refused, .error (.output (.writing path errno))) := by
      unfold perform
      simp only [h_carry]
      rfl
    have h_write : behaviour.onWrite (0 + (Action.texts done).length) text = some errno := h_refuses
    rw [Nat.zero_add] at h_write
    exact .inr ⟨done, .write text :: more, _, _, h_steps, h_takes, h_run,
      stoppedAfter_abandon (.inr rfl), .inr ⟨text, more, errno, rfl, h_write, rfl⟩⟩

/-! ### The first fault -/

/-- A write that is refused does not lie inside of what was taken. So whatever was taken comes
before any write that is refused, and a run that stops at one has stopped at the first. -/
theorem isPrefix_of_refused {behaviour : Behaviour} {all done other rest : List Action}
    {text : String} {errno : Errno} (h_done : done <+: all) (h_takes : behaviour.TakesAll 0 done)
    (h_all : all = other ++ .write text :: rest)
    (h_refuses : behaviour.onWrite (Action.texts other).length text = some errno) :
    done <+: other := by
  have h_other : other <+: all := ⟨_, h_all.symm⟩
  rcases List.prefix_or_prefix_of_prefix h_done h_other with h | h
  · exact h
  obtain ⟨middle, rfl⟩ := h
  cases middle with
  | nil => rw [List.append_nil]
  | cons action middle =>
    -- the refused write would be the next of those that were taken
    obtain ⟨more, rfl⟩ := h_done
    rw [List.append_assoc] at h_all
    have h_action : action = .write text := (List.cons.inj (List.append_cancel_left h_all)).1
    obtain ⟨-, h_middle⟩ := Behaviour.takesAll_append.1 h_takes
    rw [h_action, Behaviour.TakesAll, Nat.zero_add, h_refuses] at h_middle
    exact absurd h_middle.1 (by simp)

/-- What comes before a file contributes is a beginning of every list of actions in which the file
has a part. -/
theorem leadingTo_isPrefix {before after : List (SourceFile × Section)} {source : SourceFile}
    {piece : Section} (more : List Step) :
    leadingTo config before source <+: Step.allActions (styleOf config)
      (externSteps config ++ (fileSteps (before ++ (source, piece) :: after) ++ more)) := by
  refine ⟨Step.allActions (styleOf config) (.write piece :: (fileSteps after ++ more)), ?_⟩
  unfold leadingTo
  rw [← Step.allActions_append]
  simp [fileSteps]

/-- Of two files that are at fault, one comes after all those that contribute before the other. -/
theorem leadingTo_isPrefix_of_fault {before after other rest : List (SourceFile × Section)}
    {source source' : SourceFile} {piece piece' : Section} {failure : Failure}
    (h_before : ∀ earlier ∈ before, Contribution config program host earlier.1 earlier.2)
    (h_pieces : before ++ (source, piece) :: after = other ++ (source', piece') :: rest)
    (h_fault : Fault config program host source' failure) :
    leadingTo config before source <+: leadingTo config other source' := by
  -- two ways to split one list: one of the two files comes first, or they are the same
  rcases List.append_eq_append_iff.1 h_pieces with ⟨middle, rfl, h_rest⟩ | ⟨middle, rfl, h_rest⟩
  · cases middle with
    | nil =>
      cases h_rest
      rw [List.append_nil]
    | cons first middle =>
      cases h_rest
      exact leadingTo_isPrefix _
  · cases middle with
    | nil =>
      cases h_rest
      rw [List.append_nil]
    | cons first middle =>
      -- the file at fault would be among those that contribute
      cases h_rest
      exact absurd h_fault
        ((h_before _ (List.mem_append_right _ (List.mem_cons_self ..))).not_fault failure)

/-- **The first fault of a plan**: the run can end there, and nowhere before. -/
structure FirstFaultAt (behaviour : Behaviour) (config : Config) (program : Program)
    (host : Script.Host) (pieces : List (SourceFile × Section)) (done rest : List Action)
    (failure : Failure) : Prop where
  planned : planned config pieces = done ++ rest
  fault : FaultAt behaviour config program host pieces done rest failure
  first : ∀ other more failure', Bundle.planned config pieces = other ++ more →
    FaultAt behaviour config program host pieces other more failure' → done <+: other

/-- What a run shows that was stopped after some actions: its output is there, closed and
incomplete, and holds what they write. -/
theorem generate_of_stop {done : List Action} {failure : Failure} {p : Progress}
    (h_program : (compile (roots s.cwd config)).program = .ok program)
    (h_open : openOutput s config.out = .ok (tree, place))
    (h_run : perform config (.fresh s.behaviour (some config.out))
      (.ofProgram config (excluded s.cwd config) program (hostOf s tree)) =
        (p, .error failure))
    (h_stopped : StoppedAfter p done) :
    (generate s config compile).outcome = .error failure ∧
      Shows (generate s config compile) s.cwd config.out done ∧
      ∃ output, (generate s config compile).output = some output ∧ output.isClosed = true ∧
        output.isComplete = false ∧ output.sink.closings = 1 := by
  rw [generate_of_openOutput h_program h_open h_run]
  refine ⟨rfl, ⟨?_, h_stopped.messages, h_stopped.emitted⟩, _, rfl, h_stopped.isClosed,
    h_stopped.isComplete, h_stopped.closings⟩
  -- the tree has the output as it was closed
  rw [← h_stopped.text]
  exact FileTree.read_put_openFresh (openFresh_of_openOutput h_open)

/-- Where every file contributes, only a write can be at fault. -/
theorem FaultAt.exists_write {host : Script.Host} {done rest : List Action} {failure : Failure}
    (h : FaultAt s.behaviour config program host pieces done rest failure)
    (h_all : ∀ piece ∈ pieces, Contribution config program host piece.1 piece.2) :
    ∃ text more errno, rest = .write text :: more ∧
      s.behaviour.onWrite (Action.texts done).length text = some errno := by
  cases h with
  | refused h_refuses => exact ⟨_, _, _, rfl, h_refuses⟩
  | @file before after source piece _ _ h_eq h_source =>
    -- a file that contributes is not at fault
    exact absurd h_source ((h_all (source, piece) (by simp [h_eq])).not_fault failure)

/-- Where every file contributes, a run with a fault is cut at the first write that is refused. -/
theorem exists_firstFaultAt_of_contributions
    (h_program : (compile (roots s.cwd config)).program = .ok program)
    (h_open : openOutput s config.out = .ok (tree, place))
    (h_all : ∀ piece ∈ pieces, Contribution config program (hostOf s tree) piece.1 piece.2)
    (h_script : Script.ofProgram config (excluded s.cwd config) program (hostOf s tree)
      = .ofSteps (plan config pieces))
    (h_fault : ∃ done rest failure, planned config pieces = done ++ rest ∧
      FaultAt s.behaviour config program (hostOf s tree) pieces done rest failure) :
    ∃ done rest failure,
      FirstFaultAt s.behaviour config program (hostOf s tree) pieces done rest failure ∧
        (generate s config compile).outcome = .error failure ∧
        Shows (generate s config compile) s.cwd config.out done ∧
        ∃ output, (generate s config compile).output = some output ∧ output.isClosed = true ∧
          output.isComplete = false ∧ output.sink.closings = 1 := by
  rcases @perform_of_stop config s.behaviour (some config.out)
      (.ofSteps (plan config pieces)) with
    ⟨h_takes, -⟩ | ⟨done, rest, failure, p, h_steps, h_takes, h_run, h_stopped, h_why⟩
  · -- nothing is refused, so there is no fault
    obtain ⟨done, rest, failure, h_planned, h_fault⟩ := h_fault
    obtain ⟨text, more, errno, rfl, h_refuses⟩ := h_fault.exists_write h_all
    have h_all_taken : s.behaviour.TakesAll 0 (planned config pieces) := h_takes
    have h_length :=
      (isPrefix_of_refused (List.prefix_refl _) h_all_taken h_planned h_refuses).length_le
    rw [h_planned, List.length_append, List.length_cons] at h_length
    omega
  · -- the write that was refused is the first fault
    rcases h_why with ⟨-, h_none⟩ | ⟨text, more, errno, rfl, h_refuses, rfl⟩
    · cases h_none
    rw [← h_script] at h_run
    refine ⟨done, _, _, ⟨h_steps, .refused h_refuses, ?_⟩,
      generate_of_stop h_program h_open h_run h_stopped⟩
    intro other rest failure h_planned h_other
    obtain ⟨text', more', errno', rfl, h_refuses'⟩ := h_other.exists_write h_all
    exact isPrefix_of_refused ⟨_, h_steps.symm⟩ h_takes h_planned h_refuses'

/-- **A run with a fault is cut at the first one.** -/
theorem exists_firstFaultAt (h_program : (compile (roots s.cwd config)).program = .ok program)
    (h_open : openOutput s config.out = .ok (tree, place))
    (h_pieces : ArePieces s.cwd config program (hostOf s tree) pieces)
    (h_fault : ∃ done rest failure, planned config pieces = done ++ rest ∧
      FaultAt s.behaviour config program (hostOf s tree) pieces done rest failure) :
    ∃ done rest failure,
      FirstFaultAt s.behaviour config program (hostOf s tree) pieces done rest failure ∧
        (generate s config compile).outcome = .error failure ∧
        Shows (generate s config compile) s.cwd config.out done ∧
        ∃ output, (generate s config compile).output = some output ∧ output.isClosed = true ∧
          output.isComplete = false ∧ output.sink.closings = 1 := by
  rcases Script.ofProgram_cases h_pieces with
    ⟨h_all, h_script⟩ | ⟨before, source, piece, after, failure, rfl, h_before, h_source, h_script⟩
  · exact exists_firstFaultAt_of_contributions h_program h_open h_all h_script h_fault
  · -- `source` is the first file that something is at fault with, so its script ends there
    obtain ⟨tail, h_tail⟩ : leadingTo config before source
        <+: planned config (before ++ (source, piece) :: after) :=
      leadingTo_isPrefix (mainSteps config)
    rcases @perform_of_stop config s.behaviour (some config.out)
        ⟨externSteps config ++ (fileSteps before ++ leadSteps source.name), some failure⟩ with
      ⟨-, h_none⟩ | ⟨done, rest, failure', p, h_steps, h_takes, h_run, h_stopped, h_why⟩
    · cases h_none
    have h_done : done <+: leadingTo config before source := ⟨rest, h_steps.symm⟩
    rw [← h_script] at h_run
    have h_first : ∀ other more failure,
        planned config (before ++ (source, piece) :: after) = other ++ more →
        FaultAt s.behaviour config program (hostOf s tree)
          (before ++ (source, piece) :: after) other more failure → done <+: other := by
      intro other more failure h_planned h_other
      cases h_other with
      | refused h_refuses =>
        exact isPrefix_of_refused (h_done.trans ⟨tail, h_tail⟩) h_takes h_planned h_refuses
      | file h_eq h_other => exact h_done.trans (leadingTo_isPrefix_of_fault h_before h_eq h_other)
    -- the plan goes on behind the file, where the script has ended
    have h_planned : planned config (before ++ (source, piece) :: after)
        = done ++ (rest ++ tail) := by
      rw [← h_tail, ← List.append_assoc, ← h_steps]
      rfl
    refine ⟨done, rest ++ tail, failure', ⟨h_planned, ?_, h_first⟩,
      generate_of_stop h_program h_open h_run h_stopped⟩
    rcases h_why with ⟨rfl, h_failure⟩ | ⟨text, more, errno, rfl, h_refuses, rfl⟩
    · -- all was done up to the file that is at fault
      cases h_failure
      rw [List.append_nil] at h_steps
      rw [← h_steps]
      exact .file rfl h_source
    · -- a write was refused before the file came up
      exact .refused h_refuses

/-- **A run without a fault performs its plan.** -/
theorem generate_of_no_fault (h_program : (compile (roots s.cwd config)).program = .ok program)
    (h_open : openOutput s config.out = .ok (tree, place))
    (h_closes : s.behaviour.onClose = none)
    (h_pieces : ArePieces s.cwd config program (hostOf s tree) pieces)
    (h_faultless : ∀ done rest failure, planned config pieces = done ++ rest →
      ¬ FaultAt s.behaviour config program (hostOf s tree) pieces done rest failure) :
    (∃ summary, (generate s config compile).outcome = .ok summary) ∧
      Shows (generate s config compile) s.cwd config.out (planned config pieces) := by
  rcases Script.ofProgram_cases h_pieces with
    ⟨-, h_script⟩ | ⟨before, source, piece, after, failure, rfl, -, h_source, -⟩
  · rcases @perform_of_stop config s.behaviour (some config.out)
      (.ofSteps (plan config pieces)) with
      ⟨h_takes, -⟩ | ⟨done, rest, failure, p, h_steps, -, -, -, h_why⟩
    · have h_run := @perform_of_takesAll config s.behaviour (some config.out) (plan config pieces)
        h_takes h_closes
      rw [← h_script] at h_run
      rw [generate_of_openOutput h_program h_open h_run]
      refine ⟨⟨_, rfl⟩, ⟨?_, List.nil_append _, List.nil_append _⟩⟩
      show FileTree.read (tree.put place (.file (Utf8.encode ("" ++ Action.written _))))
        s.cwd config.out = _
      -- the output was empty when it was opened, so it holds what was written and no more
      rw [String.empty_append]
      exact FileTree.read_put_openFresh (openFresh_of_openOutput h_open)
    · rcases h_why with ⟨-, h_none⟩ | ⟨text, more, errno, rfl, h_refuses, -⟩
      · cases h_none
      · exact absurd (.refused h_refuses) (h_faultless _ _ _ h_steps)
  · obtain ⟨tail, h_tail⟩ : leadingTo config before source
        <+: planned config (before ++ (source, piece) :: after) :=
      leadingTo_isPrefix (mainSteps config)
    -- a file that something is at fault with is a fault of the plan
    exact absurd (.file rfl h_source) (h_faultless _ tail failure h_tail.symm)

/-! ### Runs without a program -/

/-- Nothing comes of a command that is not started. -/
theorem exists_attempt_eq_error {parse : Parser} {machine : Machine} {cwd base word : String}
    {invocation : Invocation} {error : PathError SystemError}
    (h : machine.start invocation = .error error) :
    ∃ failed, (Compiler.attempt parse machine cwd base word invocation).program
        = .error (.compiling failed) := by
  unfold Compiler.attempt
  rw [h]
  cases error <;> exact ⟨_, rfl⟩

/-- No program comes of a compiler that is not configured, not found or not started, whatever it is
that keeps the machine from starting it. -/
theorem exists_compile_eq_error {parse : Parser} {machine : Machine} {cwd : String}
    {files : List String}
    (h : config.compiler = [] ∨ ∃ word words, config.compiler = word :: words ∧
      (machine.locate word = none ∨ ∃ found outDir error, machine.locate word = some found ∧
        machine.scratchPath = .ok outDir ∧
        machine.start ⟨found :: words ++ Compiler.arguments config outDir files, config.baseDir⟩
            = .error error)) :
    ∃ error, (Compiler.compile parse machine cwd config files).program
        = .error (.compiling error) := by
  unfold Compiler.compile
  rcases h with
    h_none | ⟨word, words, h_words, h_word | ⟨found, outDir, error, h_word, h_path, h_start⟩⟩
  · rw [h_none]
    exact ⟨_, rfl⟩
  · rw [h_words]
    simp only [h_word]
    exact ⟨_, rfl⟩
  · rw [h_words]
    simp only [h_word, h_path]
    -- if the directory cannot be taken away either, that is the error
    obtain ⟨failed, h_failed⟩ := exists_attempt_eq_error h_start
    unfold Compilation.settled
    split
    · exact ⟨_, rfl⟩
    · exact ⟨failed, h_failed⟩

/-- **A run without a program leaves everything as it was.** -/
theorem generate_of_no_program {failure : Failure}
    (h : (compile (roots s.cwd config)).program = .error failure) :
    (generate s config compile).outcome = .error failure ∧
    (generate s config compile).tree = s.tree ∧
      (generate s config compile).messages = [] ∧ (generate s config compile).emitted = [] ∧
      (generate s config compile).output = none := by
  unfold generate
  simp only [h]
  exact ⟨rfl, rfl, rfl, rfl, rfl⟩

/-- **A run that fails is cut cleanly.** A program whose output can be opened has pieces. If they
and the sink are without a fault, the run performs its plan. If there is a fault, the run ends at
the first: it did just what the plan has before, and its output was closed once and is not complete.
A run without a program changes no file and sends no message, and there is none if no compiler is
configured, found or started. -/
theorem generate_cut (s : Surroundings) (config : Config) :
    (∀ (compile : List String → Compilation) (program : Program) (tree : FileTree) (place : Place),
      (compile (roots s.cwd config)).program = .ok program →
      openOutput s config.out = .ok (tree, place) →
      (∃ pieces, ArePieces s.cwd config program (hostOf s tree) pieces) ∧
      ∀ pieces, ArePieces s.cwd config program (hostOf s tree) pieces →
        ((∀ done rest failure, planned config pieces = done ++ rest →
            ¬ FaultAt s.behaviour config program (hostOf s tree) pieces done rest failure) →
          s.behaviour.onClose = none →
          (∃ summary, (generate s config compile).outcome = .ok summary) ∧
            Shows (generate s config compile) s.cwd config.out (planned config pieces)) ∧
        ((∃ done rest failure, planned config pieces = done ++ rest ∧
            FaultAt s.behaviour config program (hostOf s tree) pieces done rest failure) →
          ∃ done rest failure,
            FirstFaultAt s.behaviour config program (hostOf s tree) pieces done rest failure ∧
              (generate s config compile).outcome = .error failure ∧
              Shows (generate s config compile) s.cwd config.out done ∧
              ∃ output, (generate s config compile).output = some output ∧ output.isClosed = true ∧
                output.isComplete = false ∧ output.sink.closings = 1)) ∧
    (∀ (compile : List String → Compilation) (failure : Failure),
      (compile (roots s.cwd config)).program = .error failure →
      (generate s config compile).outcome = .error failure ∧
        (generate s config compile).tree = s.tree ∧ (generate s config compile).messages = []) ∧
    ∀ (parse : Parser) (machine : Machine),
      (config.compiler = [] ∨ ∃ word words, config.compiler = word :: words ∧
        (machine.locate word = none ∨ ∃ found outDir error, machine.locate word = some found ∧
          machine.scratchPath = .ok outDir ∧
          machine.start ⟨found :: words ++ Compiler.arguments config outDir (roots s.cwd config),
            config.baseDir⟩ = .error error)) →
      (∃ error, (generate s config (Compiler.compile parse machine s.cwd config)).outcome
          = .error (.compiling error)) ∧
        (generate s config (Compiler.compile parse machine s.cwd config)).tree = s.tree ∧
        (generate s config (Compiler.compile parse machine s.cwd config)).messages = [] := by
  refine ⟨?_, ?_, ?_⟩
  · intro compile program tree place h_program h_open
    refine ⟨exists_arePieces _ _ _ _, fun pieces h_pieces => ?_⟩
    exact ⟨fun h_faultless h_closes =>
        generate_of_no_fault h_program h_open h_closes h_pieces h_faultless,
      exists_firstFaultAt h_program h_open h_pieces⟩
  · intro compile failure h
    obtain ⟨h_outcome, h_tree, h_messages, -, -⟩ := generate_of_no_program h
    exact ⟨h_outcome, h_tree, h_messages⟩
  · intro parse machine h
    obtain ⟨error, h_error⟩ := @exists_compile_eq_error config parse machine s.cwd _ h
    obtain ⟨h_outcome, h_tree, h_messages, -, -⟩ := generate_of_no_program h_error
    exact ⟨⟨error, h_outcome⟩, h_tree, h_messages⟩

/-- Something said against the source of the small program. -/
def unassignable : Diagnostic :=
  ⟨2322, "Type 'string' is not assignable to type 'number'.", some "/work/src/a.ts", 1, 14, .emit⟩

/-- What the small run draws on once its output is open. -/
def smallHost : Script.Host :=
  hostOf (smallSurroundings .faultless)
    ((smallSurroundings .faultless).tree.put ["work", "bundle.d.ts"] (.file []))

/-- A machine that no program is found on. -/
def bareMachine : Machine where
  locate _ := none
  scratchPath := .ok "/tmp/out"
  run _ := .error ⟨.noEntry, none⟩
  removal _ := none

/-- The small program with something said against its source, and on a machine without its
compiler. -/
theorem generate_cut_small :
    (∃ failure, (generate (smallSurroundings .faultless) smallConfig fun _ =>
        ⟨.ok (smallProgram [unassignable]), [], none⟩).outcome = .error failure) ∧
      ∃ error, (generate (smallSurroundings .faultless) smallConfig
        (Compiler.compile Syntax.parse bareMachine "/work" smallConfig)).outcome
          = .error (.compiling error) := by
  have h_open : openOutput (smallSurroundings .faultless) "bundle.d.ts" = .ok
      ((smallSurroundings .faultless).tree.put ["work", "bundle.d.ts"] (.file []),
        ["work", "bundle.d.ts"]) := by
    decide +kernel
  have h_files : bundled "/work" smallConfig (smallProgram [unassignable])
      = [⟨"/work/src/globals.d.ts", none⟩, ⟨"/work/src/a.ts", none⟩] := by
    decide +kernel
  have h_text : Script.textOf
      smallHost ⟨"/work/src/globals.d.ts", none⟩ = .ok "declare var x: any;" := by
    decide +kernel
  have h_fault : Fault smallConfig (smallProgram [unassignable]) smallHost
      ⟨"/work/src/a.ts", none⟩ (.rejected [unassignable]) :=
    .rejected (by decide) (.inr (.inr (by decide)))
  have h_pieces : ArePieces "/work" smallConfig (smallProgram [unassignable])
      smallHost
      [(⟨"/work/src/globals.d.ts", none⟩, .copied "/work/src/globals.d.ts" "declare var x: any;"),
        (⟨"/work/src/a.ts", none⟩, .script "/work/src/a.d.ts" "")] :=
    ⟨h_files.symm, List.forall_mem_cons.2 ⟨.inl (.copied (by decide) h_text),
      List.forall_mem_singleton.2 (.inr ⟨_, h_fault⟩)⟩⟩
  obtain ⟨h_run, -, h_no_program⟩ := generate_cut (smallSurroundings .faultless) smallConfig
  constructor
  · obtain ⟨tail, h_tail⟩ := @leadingTo_isPrefix smallConfig
      [(⟨"/work/src/globals.d.ts", none⟩, .copied "/work/src/globals.d.ts" "declare var x: any;")]
      [] ⟨"/work/src/a.ts", none⟩ (.script "/work/src/a.d.ts" "") (mainSteps smallConfig)
    obtain ⟨-, h_cut⟩ := (h_run (fun _ => ⟨.ok (smallProgram [unassignable]), [], none⟩) _ _ _ rfl
      h_open).2 _ h_pieces
    obtain ⟨-, -, failure, -, h_outcome, -⟩ :=
      h_cut ⟨_, tail, _, h_tail.symm, @FaultAt.file _ _ _ _ _ [_] _ _ _ _ _ rfl h_fault⟩
    exact ⟨failure, h_outcome⟩
  · exact (h_no_program Syntax.parse bareMachine (.inr ⟨"tsc", [], rfl, .inl rfl⟩)).1

end DeclarationBundle.Bundle
