import Mathlib
import DeclarationBundle.Bundle.Output

/-!
# The life of an output

Whatever is done with an output, and however its sink behaves, the output is open up to the first
operation that closes it, and nothing can happen to it afterwards. `Output.LifeCycle` says this in
full, and `Output.lifeCycle_run` that every output lives so.

* `Output.writeAll_append` and `Output.write_of_refused` say what becomes of texts that are written
  to an open output, `Output.perform_of_isClosed` what of anything done with a closed one.
* `Output.IsAfter` is what is known of an output after some operations. One operation more keeps it
  (`Output.IsAfter.perform`), so every run of operations does (`Output.isAfter_run`).
-/

namespace DeclarationBundle

/-- **A sink takes some texts** one after the other, `count` writes having been asked of it
before. -/
def Behaviour.Takes (behaviour : Behaviour) : Nat → List String → Prop
  | _, [] => True
  | count, text :: texts => behaviour.onWrite count text = none ∧ behaviour.Takes (count + 1) texts

namespace Output

variable {o : Output} {style : Style} {behaviour : Behaviour} {path : Option String}

/-- What an operation writes, unless it closes the output. -/
def Operation.texts? (style : Style) : Operation → Option (List String)
  | .write text => some [text]
  | .put s => some (s.writes style)
  | .close => none
  | .leave _ => none

/-- An operation that closes the output. -/
def Operation.isClosing : Operation → Bool
  | .close => true
  | .leave _ => true
  | _ => false

/-- An operation that closes the output in good order. -/
def Operation.isOrderly : Operation → Bool
  | .close => true
  | .leave failed => !failed
  | _ => false

/-- The output after some operations. -/
def run (style : Style) (o : Output) (operations : List Operation) : Output :=
  operations.foldl (fun o operation => (o.perform style operation).1) o

/-- Operations are performed in order. -/
theorem run_append (first second : List Operation) :
    o.run style (first ++ second) = (o.run style first).run style second :=
  List.foldl_append

/-- **An output lives as it should.** `operations` were performed on a fresh output, and `o` is what
came of them. -/
structure LifeCycle (style : Style) (behaviour : Behaviour) (path : Option String)
    (operations : List Operation) (o : Output) : Prop where
  /-- The sink is closed once at most. -/
  closings_le : o.sink.closings ≤ 1
  isClosed_iff : o.isClosed = true ↔ ∃ operation ∈ operations, operation.isClosing = true
  isClosed_of_isComplete : o.isComplete = true → o.isClosed = true
  /-- The first operation that closes the output decides whether it is complete. -/
  isComplete_iff : o.isComplete = true ↔ behaviour.onClose = none ∧
    ∃ operation, operations.find? Operation.isClosing = some operation ∧
      operation.isOrderly = true
  /-- Nothing is taken back by what is done later. -/
  later : ∀ more, (o.isClosed = true → (o.run style more).isClosed = true) ∧
    (o.isComplete = true → (o.run style more).isComplete = true) ∧
    ∃ added, (o.run style more).sink.text = o.sink.text ++ added
  /-- What the sink of an open output takes is stored. -/
  taken : o.isClosed = false → ∀ operation texts, operation.texts? style = some texts →
    behaviour.Takes o.sink.writes texts →
    (o.perform style operation).2 = none ∧
      (o.perform style operation).1.isClosed = false ∧
      (o.perform style operation).1.sink.text = o.sink.text ++ String.join texts
  /-- A write that the sink refuses is an error, and what was written before it is stored. -/
  refused : o.isClosed = false → ∀ operation done text rest errno,
    operation.texts? style = some (done ++ text :: rest) →
    behaviour.Takes o.sink.writes done →
    behaviour.onWrite (o.sink.writes + done.length) text = some errno →
    (o.perform style operation).2 = some (.writing path errno) ∧
      (o.perform style operation).1.isClosed = o.isClosed ∧
      (o.perform style operation).1.isComplete = o.isComplete ∧
      (o.perform style operation).1.sink.text = o.sink.text ++ String.join done
  /-- Nothing can be written to a closed output, and to close it again does nothing. -/
  closed : o.isClosed = true → ∀ operation,
    o.perform style operation = (o, if operation.isClosing then none else some .closed)

/-! ### Writing -/

/-- The output with some texts stored in it. -/
def holding (o : Output) (texts : List String) : Output :=
  { o with sink := { o.sink with
    text := o.sink.text ++ String.join texts, writes := o.sink.writes + texts.length } }

/-- Texts are stored one by one. -/
theorem holding_cons (o : Output) (text : String) (texts : List String) :
    o.holding (text :: texts) = (o.holding [text]).holding texts := by
  simp [holding, String.append_assoc, Nat.add_assoc, Nat.add_comm 1]

/-- A text that the sink of an open output takes is stored. -/
theorem write_of_taken (h_open : o.sink.closings = 0) {text : String}
    (h : o.behaviour.onWrite o.sink.writes text = none) :
    o.write text = (o.holding [text], none) := by
  unfold write
  rw [if_neg (by omega), h]
  simp [holding]

/-- A text that the sink refuses is an error of the output, and nothing of it is stored. The sink
was asked all the same. -/
theorem write_of_refused (h_open : o.sink.closings = 0) {text : String} {errno : Errno}
    (h : o.behaviour.onWrite o.sink.writes text = some errno) : o.write text =
      ({ o with sink := { o.sink with writes := o.sink.writes + 1 } },
        some (.writing o.path errno)) := by
  unfold write
  rw [if_neg (by omega), h]

/-- A closed sink is not even asked. -/
theorem write_of_closings (h_closed : 0 < o.sink.closings) (text : String) :
    o.write text = (o, some .closed) := by
  unfold write
  rw [if_pos h_closed]

/-- Texts that an open output takes are stored before the others are written. -/
theorem writeAll_append {done : List String} (h_open : o.sink.closings = 0)
    (h_takes : o.behaviour.Takes o.sink.writes done) (rest : List String) :
    o.writeAll (done ++ rest) = (o.holding done).writeAll rest := by
  induction done generalizing o with
  | nil => simp [holding]
  | cons text done ih =>
    obtain ⟨h_text, h_done⟩ := h_takes
    rw [holding_cons, ← @ih (o.holding [text]) h_open h_done, List.cons_append, writeAll,
      write_of_taken h_open h_text]

/-- **Writing adds to the text** of an output and changes nothing else of it. -/
theorem exists_writeAll_eq (o : Output) (texts : List String) :
    ∃ added writes, (o.writeAll texts).1
      = { o with sink := { o.sink with text := o.sink.text ++ added, writes } } := by
  have h_same : ∃ added writes, o
      = { o with sink := { o.sink with text := o.sink.text ++ added, writes } } :=
    ⟨"", o.sink.writes, by simp⟩
  induction texts generalizing o with
  -- on the texts: a closed sink stores none of them, an open one those before the first that is
  -- refused
  | nil => exact h_same
  | cons text texts ih =>
    by_cases h_closed : 0 < o.sink.closings
    · rw [writeAll, write_of_closings h_closed]
      exact h_same
    have h_open : o.sink.closings = 0 := by omega
    cases h_write : o.behaviour.onWrite o.sink.writes text with
    | some errno =>
      rw [writeAll, write_of_refused h_open h_write]
      exact ⟨"", o.sink.writes + 1, by simp⟩
    | none =>
      obtain ⟨added, writes, h_rest⟩ :=
        ih (o.holding [text]) ⟨"", o.sink.writes + 1, by simp [holding]⟩
      rw [writeAll, write_of_taken h_open h_write]
      refine ⟨text ++ added, writes, h_rest.trans ?_⟩
      simp [holding, String.append_assoc]

/-! ### Operations -/

/-- An operation that does not close the output writes its texts. -/
theorem perform_of_texts {operation : Operation} {texts : List String}
    (h : operation.texts? style = some texts) : o.perform style operation = o.writeAll texts := by
  cases operation with
  | write text =>
    cases h
    show o.write text = o.writeAll [text]
    unfold writeAll
    rcases o.write text with ⟨o', _ | error⟩ <;> rfl
  | put s =>
    cases h
    rfl
  | close => cases h
  | leave failed => cases h

/-- An operation that does not close the output writes something to it. A closed output cannot let
it pass for that reason, however empty the text. -/
theorem Operation.exists_texts {operation : Operation} (h : operation.isClosing = false) :
    ∃ text texts, operation.texts? style = some (text :: texts) := by
  cases operation with
  | write text => exact ⟨text, [], rfl⟩
  | put s => cases s <;> exact ⟨_, _, rfl⟩
  | close => cases h
  | leave failed => cases h

/-- To close an open output closes its sink, and the output is complete if that was done in good
order and the sink did not fail. -/
theorem perform_of_isClosing {operation : Operation} (h : operation.isClosing = true)
    (h_open : o.isClosed = false) (h_incomplete : o.isComplete = false) :
    ∃ warnings, (o.perform style operation).1 = { o.shut with
      isComplete := o.behaviour.onClose.isNone && operation.isOrderly, warnings } := by
  have h_close : ∃ warnings, o.close.1
      = { o.shut with isComplete := o.behaviour.onClose.isNone, warnings } := by
    refine ⟨o.warnings, ?_⟩
    unfold close
    rw [if_neg (by simp [h_open])]
    cases o.behaviour.onClose <;> simp [shut, h_incomplete]
  -- an output that is left is not complete, and an error of its sink becomes a warning
  have h_leave : ∃ warnings, o.leave = { o.shut with isComplete := false, warnings } := by
    unfold leave
    rw [if_neg (by simp [h_open])]
    cases o.behaviour.onClose with
    | none => exact ⟨o.warnings, by simp [shut, h_incomplete]⟩
    | some errno => exact ⟨_, by simp only [shut, h_incomplete]; rfl⟩
  cases operation with
  | write text => cases h
  | put s => cases h
  | close => simpa [perform, Operation.isOrderly] using h_close
  | leave failed =>
    cases failed with
    | false => simpa [perform, Operation.isOrderly] using h_close
    | true => simpa [perform, Operation.isOrderly] using h_leave

/-- **A closed output stays as it is.** -/
theorem perform_of_isClosed (h : o.isClosed = true) (h_sink : 0 < o.sink.closings)
    (operation : Operation) :
    o.perform style operation = (o, if operation.isClosing then none else some .closed) := by
  cases h_closing : operation.isClosing with
  | false =>
    obtain ⟨text, texts, h_texts⟩ := @Operation.exists_texts style operation h_closing
    rw [perform_of_texts h_texts, writeAll, write_of_closings h_sink]
    rfl
  | true =>
    cases operation with
    | write text => cases h_closing
    | put s => cases h_closing
    | close => simp [perform, close, h]
    | leave failed => cases failed <;> simp [perform, close, leave, h]

/-! ### Runs -/

/-- **What is known of an output** after some operations. -/
structure IsAfter (behaviour : Behaviour) (path : Option String) (operations : List Operation)
    (o : Output) : Prop where
  behaviour_eq : o.behaviour = behaviour
  path_eq : o.path = path
  closings_eq : o.sink.closings = if o.isClosed then 1 else 0
  isClosed_eq : o.isClosed = operations.any Operation.isClosing
  isComplete_eq : o.isComplete = (behaviour.onClose.isNone &&
    (operations.find? Operation.isClosing).any Operation.isOrderly)

/-- **One operation more** keeps what is known. The cases are those of an output that is closed
already, that stays open, and that is closed by this very operation. -/
theorem IsAfter.perform {operations : List Operation} (h : IsAfter behaviour path operations o)
    (operation : Operation) :
    IsAfter behaviour path (operations ++ [operation]) (o.perform style operation).1 := by
  obtain ⟨rfl, rfl, h_closings, h_closed, h_complete⟩ := h
  cases h_o : o.isClosed with
  | true =>
    rw [h_o] at h_closings h_closed
    -- an earlier operation has closed the output, so the first that did is the same
    obtain ⟨first, h_first⟩ := Option.isSome_iff_exists.1
      (List.find?_isSome.2 (List.any_eq_true.1 h_closed.symm))
    rw [perform_of_isClosed h_o (by simp [h_closings])]
    refine ⟨rfl, rfl, by simp [h_o, h_closings], ?_, ?_⟩
    · rw [h_o, List.any_append, ← h_closed, Bool.true_or]
    · rw [h_complete, List.find?_append, h_first, Option.some_or]
  | false =>
    rw [h_o] at h_closings h_closed
    -- none of the operations before has closed it
    have h_none : operations.find? Operation.isClosing = none :=
      List.find?_eq_none.2 fun earlier h_mem => by
        simpa using List.any_eq_false.1 h_closed.symm earlier h_mem
    have h_incomplete : o.isComplete = false := by simp [h_complete, h_none]
    cases h_closing : operation.isClosing with
    | false =>
      obtain ⟨text, texts, h_texts⟩ := @Operation.exists_texts style operation h_closing
      obtain ⟨added, writes, h_all⟩ := o.exists_writeAll_eq (text :: texts)
      rw [perform_of_texts h_texts, h_all]
      refine ⟨rfl, rfl, by simp [h_o, h_closings], ?_, ?_⟩
      · simp [h_o, ← h_closed, h_closing]
      · simp [h_incomplete, List.find?_append, h_none, h_closing]
    | true =>
      -- this is the first that does
      obtain ⟨warnings, h_shut⟩ :=
        @perform_of_isClosing o style operation h_closing h_o h_incomplete
      rw [h_shut]
      refine ⟨rfl, rfl, by simp [shut, h_closings], ?_, ?_⟩
      · simp [shut, h_closing]
      · simp [List.find?_append, h_none, h_closing]

/-- Whatever is done with a fresh output, this is known of it. -/
theorem isAfter_run (style : Style) (behaviour : Behaviour) (path : Option String)
    (operations : List Operation) :
    IsAfter behaviour path operations ((fresh behaviour path).run style operations) := by
  -- from the last operation back, since each is performed on what the others left
  induction operations using List.reverseRecOn with
  | nil => exact ⟨rfl, rfl, rfl, rfl, by simp [run, fresh]⟩
  | append_singleton operations operation ih =>
    rw [run_append]
    exact ih.perform operation

/-- Every operation keeps the text there is, those that close the output included. -/
theorem exists_text_perform (o : Output) (style : Style) (operation : Operation) :
    ∃ added, (o.perform style operation).1.sink.text = o.sink.text ++ added := by
  cases h_closing : operation.isClosing with
  | false =>
    obtain ⟨text, texts, h_texts⟩ := @Operation.exists_texts style operation h_closing
    obtain ⟨added, writes, h_all⟩ := o.exists_writeAll_eq (text :: texts)
    exact ⟨added, by rw [perform_of_texts h_texts, h_all]⟩
  | true =>
    have h_close : o.close.1.sink.text = o.sink.text := by
      unfold close
      split
      · rfl
      · split <;> rfl
    have h_leave : o.leave.sink.text = o.sink.text := by
      unfold leave
      split
      · rfl
      · split <;> rfl
    refine ⟨"", ?_⟩
    rw [String.append_empty]
    cases operation with
    | write text => cases h_closing
    | put s => cases h_closing
    | close => exact h_close
    | leave failed =>
      cases failed with
      | false => exact h_close
      | true => exact h_leave

/-- So does every run of operations. -/
theorem exists_text_run (o : Output) (style : Style) (operations : List Operation) :
    ∃ added, (o.run style operations).sink.text = o.sink.text ++ added := by
  induction operations generalizing o with
  | nil => exact ⟨"", String.append_empty.symm⟩
  | cons operation operations ih =>
    obtain ⟨first, h_first⟩ := exists_text_perform o style operation
    obtain ⟨rest, h_rest⟩ := ih (o.perform style operation).1
    refine ⟨first ++ rest, h_rest.trans ?_⟩
    rw [h_first, String.append_assoc]

/-- **Every output lives as it should**, whatever is done with it and however its sink behaves. No
order of the operations is asked for: an output may be closed before it is left, closed twice, or
written to after that. What is known of the flags is an equation that holds after any operations
(`isAfter_run`), and the rest is read off it. -/
theorem lifeCycle_run (style : Style) (behaviour : Behaviour) (path : Option String)
    (operations : List Operation) :
    LifeCycle style behaviour path operations ((fresh behaviour path).run style operations) := by
  have h_after := isAfter_run style behaviour path
  obtain ⟨h_behaviour, h_path, h_closings, h_closed, h_complete⟩ := h_after operations
  set o := (fresh behaviour path).run style operations with h_o
  have h_open : o.isClosed = false → o.sink.closings = 0 := fun h => by simp [h_closings, h]
  -- the equation of what is known, read as a statement about the first closing operation
  have h_find : o.isComplete = true ↔ behaviour.onClose = none ∧
      ∃ operation, operations.find? Operation.isClosing = some operation ∧
        operation.isOrderly = true := by
    rw [h_complete, Bool.and_eq_true, Option.isNone_iff_eq_none, Option.any_eq_true]
  constructor
  case closings_le =>
    rw [h_closings]
    split <;> decide
  case isClosed_iff => rw [h_closed, List.any_eq_true]
  case isClosed_of_isComplete =>
    intro h
    obtain ⟨-, operation, h_first, -⟩ := h_find.1 h
    rw [h_closed, List.any_eq_true]
    exact List.find?_isSome.1 (Option.isSome_of_eq_some h_first)
  case isComplete_iff => exact h_find
  case later =>
    intro more
    obtain ⟨-, -, -, h_closed', h_complete'⟩ := h_after (operations ++ more)
    rw [run_append, ← h_o] at h_closed' h_complete'
    refine ⟨fun h => ?_, fun h => ?_, exists_text_run o style more⟩
    · rw [h_closed', List.any_append, ← h_closed, h, Bool.true_or]
    · -- the first operation that closed the output is still the first
      obtain ⟨-, operation, h_first, -⟩ := h_find.1 h
      rw [h_complete', List.find?_append, h_first, Option.some_or, ← h_first, ← h_complete, h]
  case taken =>
    intro h operation texts h_texts h_takes
    rw [← h_behaviour] at h_takes
    have h_all := writeAll_append (h_open h) h_takes []
    rw [List.append_nil] at h_all
    rw [perform_of_texts h_texts, h_all]
    exact ⟨rfl, h, rfl⟩
  case refused =>
    intro h operation done text rest errno h_texts h_takes h_refuses
    rw [← h_behaviour] at h_takes h_refuses
    have h_held : (o.holding done).sink.closings = 0 := h_open h
    rw [perform_of_texts h_texts, writeAll_append (h_open h) h_takes, writeAll,
      write_of_refused h_held h_refuses, ← h_path]
    exact ⟨rfl, rfl, rfl, rfl⟩
  case closed =>
    intro h operation
    exact perform_of_isClosed h (by simp [h_closings, h]) operation

end Output

end DeclarationBundle
