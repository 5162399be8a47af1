import DeclarationBundle.Proofs.Bundle.Plan
import DeclarationBundle.Proofs.FileTree.Opening
import DeclarationBundle.Proofs.Syntax.Boundaries

/-!
# What a successful run leaves behind

If every bundled file contributes and the output takes everything, a run ends well, and all that can
be seen of it follows from the contributions alone: `Bundle.generate_of_contributions`.

The run performs its plan (`Bundle.generate_eq_of_plan`). What is left is to read the plan off: the
texts that it writes are those of its sections in order, and its messages are one for each section
but that of the alias, which is written before it is reported.
-/

namespace DeclarationBundle

namespace Section

/-- The path of a reference. -/
def referencePath? : Section → Option String
  | reference path => some path
  | _ => none

/-- The id of the module that stands in a block. -/
def blockId? : Section → Option String
  | block id _ => some id
  | _ => none

/-- The file that was copied. -/
def copiedFile? : Section → Option String
  | copied file _ => some file
  | _ => none

/-- The file of a script. -/
def scriptFile? : Section → Option String
  | script file _ => some file
  | _ => none

/-- The module that an alias stands for. -/
def aliasMain? : Section → Option String
  | mainAlias _ main => some main
  | _ => none

end Section

namespace Bundle

variable {s : Surroundings} {config : Config} {compile : List String → Compilation}
  {program : Program}
  {tree : FileTree} {place : Place} {pieces : List (SourceFile × Section)}

/-! ### Reading a plan off -/

/-- The sections among some steps. -/
def sectionsOf (steps : List Step) : List Section :=
  steps.filterMap fun
    | .write piece => some piece
    | _ => none

/-- The alias of the main module, if there is one. -/
def aliasSections (config : Config) : List Section :=
  match Script.mainModule? config with
  | none => []
  | some main => [.mainAlias config.name main]

/-- **The sections of a bundle**: the references, what the files contribute and the alias. -/
def sections (config : Config) (pieces : List (SourceFile × Section)) : List Section :=
  config.externs.map .reference ++ (pieces.map Prod.snd ++ aliasSections config)

/-- **The text of a bundle.** -/
def text (config : Config) (pieces : List (SourceFile × Section)) : String :=
  String.join ((sections config pieces).map (Section.text (styleOf config)))

/-- The messages about some sections, each sent before its section is written and after all before
it. -/
def announcements (style : Style) : Nat → List (String × Section) → List Message
  | _, [] => []
  | count, (message, piece) :: rest =>
    ⟨message, count⟩ :: announcements style (count + (piece.text style).length) rest

/-- **The messages of a run**: one for each reference and one for each bundled file, and one about
the alias once all is written. -/
def messages (config : Config) (pieces : List (SourceFile × Section)) : List Message :=
  announcements (styleOf config) 0
      (config.externs.map (fun path => (s!"Writing external dependency {path}", .reference path)) ++
        pieces.map fun piece => (Script.processing piece.1.name, piece.2)) ++
    match Script.mainModule? config with
    | none => []
    | some main => [⟨s!"Aliased main module {config.name} to {main}", (text config pieces).length⟩]

/-- The sections of some steps go through appends and maps, as a plan is built up by these. -/
theorem sectionsOf_append (first second : List Step) :
    sectionsOf (first ++ second) = sectionsOf first ++ sectionsOf second :=
  List.filterMap_append

/-- So they are those of each item in turn. -/
theorem sectionsOf_flatMap {α : Type} (f : α → List Step) (items : List α) :
    sectionsOf (items.flatMap f) = items.flatMap fun item => sectionsOf (f item) := by
  induction items with
  | nil => rfl
  | cons item items ih => rw [List.flatMap_cons, List.flatMap_cons, sectionsOf_append, ih]

/-- Nothing is written about a file before it contributes. -/
theorem sectionsOf_leadSteps (file : String) : sectionsOf (leadSteps file) = [] := by
  unfold leadSteps
  split <;> rfl

/-- The references are written as they are configured. -/
theorem sectionsOf_externSteps :
    sectionsOf (externSteps config) = config.externs.map .reference := by
  unfold externSteps
  rw [sectionsOf_flatMap, List.map_eq_flatMap]
  rfl

/-- **The sections of a plan** are those of its bundle, in order. -/
theorem sectionsOf_plan : sectionsOf (plan config pieces) = sections config pieces := by
  have h_files : sectionsOf (fileSteps pieces) = pieces.map Prod.snd := by
    unfold fileSteps
    rw [sectionsOf_flatMap, List.map_eq_flatMap]
    congr 1
    funext piece
    rw [sectionsOf_append, sectionsOf_leadSteps]
    rfl
  have h_main : sectionsOf (mainSteps config) = aliasSections config := by
    unfold mainSteps aliasSections
    cases Script.mainModule? config <;> rfl
  unfold plan sections
  rw [sectionsOf_append, sectionsOf_append, sectionsOf_externSteps, h_files, h_main]

/-- Writes write their texts. -/
theorem texts_writes (texts : List String) : Action.texts (texts.map .write) = texts := by
  unfold Action.texts
  rw [List.filterMap_map]
  exact List.filterMap_some

/-- Some steps write the texts of their sections. -/
theorem written_allActions (style : Style) (steps : List Step) :
    Action.written (Step.allActions style steps)
      = String.join ((sectionsOf steps).map (Section.text style)) := by
  apply String.toList_inj.1
  induction steps with
  | nil => rfl
  | cons step steps ih =>
    have h_actions :
        Step.allActions style (step :: steps) = step.actions style ++ Step.allActions style steps :=
      rfl
    rw [h_actions, Action.written_append, String.toList_append, ih]
    cases step with
    | announce message => rfl
    | emit file => rfl
    -- of the steps only this one writes, and what it writes is the text of its section
    | write piece =>
      have h_sections : sectionsOf (.write piece :: steps) = piece :: sectionsOf steps := rfl
      have h_written : Action.written (Step.actions style (.write piece)) = piece.text style := by
        unfold Action.written Step.actions Section.text
        rw [texts_writes]
      rw [h_written, h_sections, List.map_cons, String.toList_join, String.toList_join,
          List.flatMap_cons]

/-- They send no message. -/
theorem messages_writes (count : Nat) (texts : List String) :
    Action.messages count (texts.map .write) = [] := by
  induction texts generalizing count with
  | nil => rfl
  | cons text texts ih => exact ih _

/-- Items that are each written once a message was sent: what is done about an item before is
`lead`, which writes nothing and sends the one message. -/
theorem messages_items {α : Type} {style : Style} (message : α → String) (lead : α → List Step)
    (piece : α → Section) (h_sections : ∀ item, sectionsOf (lead item) = [])
    (h_messages : ∀ item count,
      Action.messages count (Step.allActions style (lead item)) = [⟨message item, count⟩])
    (items : List α) (count : Nat) :
    Action.messages count
        (Step.allActions style (items.flatMap fun item => lead item ++ [.write (piece item)]))
      = announcements style count (items.map fun item => (message item, piece item)) := by
  induction items generalizing count with
  | nil => rfl
  | cons item items ih =>
    -- nothing is written before the message is sent
    have h_lead : Action.written (Step.allActions style (lead item)) = "" := by
      rw [written_allActions, h_sections]
      rfl
    have h_piece : Step.allActions style [.write (piece item)]
        = ((piece item).writes style).map .write := by
      simp [Step.allActions, Step.actions]
    have h_written : Action.written (((piece item).writes style).map .write)
        = (piece item).text style := by
      unfold Action.written Section.text
      rw [texts_writes]
    -- the message counts what was written before the item, and its section what comes after
    rw [List.flatMap_cons, Step.allActions_append, Step.allActions_append, Action.messages_append,
      Action.messages_append, Action.written_append, h_messages, h_piece, h_lead, h_written,
      messages_writes, ih, List.map_cons, announcements, String.empty_append]
    rfl

/-- The messages of a second list count what the sections of the first have written. -/
theorem announcements_append (style : Style) (first second : List (String × Section))
    (count : Nat) :
    announcements style count (first ++ second) = announcements style count first ++
      announcements style (count + (String.join (first.map fun item => item.2.text style)).length)
          second := by
  induction first generalizing count with
  | nil => simp [announcements, String.join]
  | cons item first ih =>
    have h_join : String.join ((item :: first).map fun item => item.2.text style)
        = item.2.text style ++ String.join (first.map fun item => item.2.text style) := by
      apply String.toList_inj.1
      rw [String.toList_join, String.toList_append, String.toList_join, List.map_cons,
        List.flatMap_cons]
    rw [List.cons_append, announcements, announcements, ih, h_join, String.length_append,
      Nat.add_assoc]
    rfl

/-- A file is announced once, be it emitted or copied. -/
theorem messages_leadSteps (style : Style) (file : String) (count : Nat) :
    Action.messages count (Step.allActions style (leadSteps file))
      = [⟨Script.processing file, count⟩] := by
  unfold leadSteps
  split <;> rfl

/-- **What a plan writes** is the text of its bundle. -/
theorem written_plan :
    Action.written (Step.allActions (styleOf config) (plan config pieces))
      = text config pieces := by
  rw [written_allActions, sectionsOf_plan]
  rfl

/-- The references are announced one by one, each before it is written. -/
theorem messages_externSteps (config : Config) (count : Nat) :
    Action.messages count (Step.allActions (styleOf config) (externSteps config))
      = announcements (styleOf config) count (config.externs.map fun path =>
          (s!"Writing external dependency {path}", .reference path)) :=
  messages_items (fun path => s!"Writing external dependency {path}")
    (fun path => [.announce s!"Writing external dependency {path}"]) Section.reference
    (fun _ => rfl) (fun _ _ => rfl) config.externs count

/-- So are the files, whatever their sections are. -/
theorem messages_fileSteps (style : Style) (pieces : List (SourceFile × Section)) (count : Nat) :
    Action.messages count (Step.allActions style (fileSteps pieces))
      = announcements style count
          (pieces.map fun piece => (Script.processing piece.1.name, piece.2)) :=
  messages_items (fun piece : SourceFile × Section => Script.processing piece.1.name)
    (fun piece => leadSteps piece.1.name) Prod.snd
    (fun piece => sectionsOf_leadSteps piece.1.name)
    (fun piece => messages_leadSteps _ piece.1.name) pieces count

/-- The files follow the references, so their messages count what the references have written. -/
theorem messages_bodySteps : Action.messages 0
      (Step.allActions (styleOf config) (externSteps config ++ fileSteps pieces))
    = announcements (styleOf config) 0
        (config.externs.map (fun path =>
            (s!"Writing external dependency {path}", .reference path)) ++
          pieces.map fun piece => (Script.processing piece.1.name, piece.2)) := by
  rw [Step.allActions_append, Action.messages_append, announcements_append, messages_externSteps,
    messages_fileSteps, written_allActions, sectionsOf_externSteps, List.map_map, List.map_map]
  rfl

/-- **The messages of a plan** are those of its bundle. References and files go the same way, by
`messages_items`; the alias does not, as it is written before it is reported. -/
theorem messages_plan :
    Action.messages 0 (Step.allActions (styleOf config) (plan config pieces))
      = messages config pieces := by
  unfold messages
  cases h_main : Script.mainModule? config with
  | none =>
    have h_plan : plan config pieces = externSteps config ++ fileSteps pieces := by
      unfold plan mainSteps
      rw [h_main, List.append_nil]
    rw [h_plan, messages_bodySteps, List.append_nil]
  | some main =>
    -- the alias is written before it is reported, so all of the text counts
    have h_plan : plan config pieces = externSteps config ++ fileSteps pieces ++
        [.write (.mainAlias config.name main)] ++
          [.announce s!"Aliased main module {config.name} to {main}"] := by
      unfold plan mainSteps
      rw [h_main, List.append_assoc, List.append_assoc]
      rfl
    have h_silent : Action.written (Step.allActions (styleOf config)
        [.announce s!"Aliased main module {config.name} to {main}"]) = "" :=
      rfl
    have h_written := @written_plan config pieces
    rw [h_plan, Step.allActions_append, Action.written_append, h_silent,
      String.append_empty] at h_written
    have h_alias : Step.allActions (styleOf config) [.write (.mainAlias config.name main)]
        = ((Section.mainAlias config.name main).writes (styleOf config)).map .write := by
      simp [Step.allActions, Step.actions]
    rw [h_plan, Step.allActions_append, Action.messages_append, h_written, Step.allActions_append,
      Action.messages_append, messages_bodySteps, h_alias, messages_writes, List.append_nil,
      Nat.zero_add]
    rfl

/-- The files that some steps have emitted can be read off the steps. -/
theorem emitted_allActions (style : Style) (steps : List Step) :
    Action.emitted (Step.allActions style steps) = steps.filterMap fun
      | .emit file => some file
      | _ => none := by
  induction steps with
  | nil => rfl
  | cons step steps ih =>
    have h_actions :
        Step.allActions style (step :: steps) = step.actions style ++ Step.allActions style steps :=
      rfl
    rw [h_actions, Action.emitted_append, ih]
    cases step with
    | announce message => rfl
    | emit file => rfl
    | write piece =>
      have h_none : Action.emitted (Step.actions style (.write piece)) = [] := by
        simp [Action.emitted, Step.actions]
      rw [h_none]
      rfl

/-- The files that a plan has emitted are those that hold no declarations yet. -/
theorem emitted_plan : Action.emitted (Step.allActions (styleOf config) (plan config pieces))
    = ((pieces.map Prod.fst).filter fun source => !ModuleId.isDeclarationFile source.name).map
        (·.name) := by
  have h_externs : Action.emitted (Step.allActions (styleOf config) (externSteps config)) = [] := by
    rw [emitted_allActions, externSteps, List.filterMap_flatMap]
    simp
  have h_main : Action.emitted (Step.allActions (styleOf config) (mainSteps config)) = [] := by
    rw [emitted_allActions, mainSteps]
    cases Script.mainModule? config <;> rfl
  have h_files : Action.emitted (Step.allActions (styleOf config) (fileSteps pieces))
      = ((pieces.map Prod.fst).filter fun source => !ModuleId.isDeclarationFile source.name).map
          (·.name) := by
    rw [emitted_allActions, fileSteps, List.filterMap_flatMap]
    -- a source is emitted and a declaration file is not, whatever they contribute
    induction pieces with
    | nil => rfl
    | cons piece pieces ih =>
      rw [List.flatMap_cons, ih, List.map_cons]
      unfold leadSteps
      by_cases h_kind : ModuleId.isDeclarationFile piece.1.name = true
      · rw [if_pos h_kind, List.filter_cons_of_neg (by simp [h_kind])]
        rfl
      · rw [if_neg h_kind, List.filter_cons_of_pos (by simp [h_kind])]
        rfl
  unfold plan
  rw [Step.allActions_append, Step.allActions_append, Action.emitted_append, Action.emitted_append,
    h_externs, h_files,
    h_main, List.append_nil, List.nil_append]

/-- What a file contributes is neither a reference nor an alias. -/
theorem Contribution.fromFile {host : Script.Host} {source : SourceFile} {piece : Section}
    (h : Contribution config program host source piece) :
    piece.referencePath? = none ∧ piece.aliasMain? = none := by
  cases h <;> exact ⟨rfl, rfl⟩

/-- A list has nothing of a kind that none of its items is of. -/
theorem filterMap_pieces_eq_nil {kind? : Section → Option String}
    (h : ∀ piece ∈ pieces, kind? piece.2 = none) : (pieces.map Prod.snd).filterMap kind? = [] := by
  rw [List.filterMap_eq_nil_iff]
  intro found h_found
  obtain ⟨piece, h_mem, rfl⟩ := List.mem_map.1 h_found
  exact h piece h_mem

/-- **The summary of a plan** lists the references, and of the contributions those of each kind. -/
theorem summary_plan {host : Script.Host}
    (h : ∀ piece ∈ pieces, Contribution config program host piece.1 piece.2) :
    (Script.ofSteps (plan config pieces)).summary config =
      { out := config.out
        name := config.name
        externs := config.externs
        modules := (pieces.map Prod.snd).filterMap Section.blockId?
        passthrough := (pieces.map Prod.snd).filterMap Section.copiedFile?
        ambient := (pieces.map Prod.snd).filterMap Section.scriptFile?
        mainAlias := Script.mainModule? config } := by
  have h_summary : (Script.ofSteps (plan config pieces)).summary config =
      { out := config.out
        name := config.name
        externs := (sectionsOf (plan config pieces)).filterMap Section.referencePath?
        modules := (sectionsOf (plan config pieces)).filterMap Section.blockId?
        passthrough := (sectionsOf (plan config pieces)).filterMap Section.copiedFile?
        ambient := (sectionsOf (plan config pieces)).filterMap Section.scriptFile?
        mainAlias := ((sectionsOf (plan config pieces)).filterMap Section.aliasMain?).getLast? } :=
    rfl
  -- the files add nothing to the references, and no alias
  have h_references := filterMap_pieces_eq_nil fun piece h_mem => (h piece h_mem).fromFile.1
  have h_aliases := filterMap_pieces_eq_nil fun piece h_mem => (h piece h_mem).fromFile.2
  have h_externs : ∀ kind? : Section → Option String,
      (config.externs.map .reference).filterMap kind? =
        config.externs.filterMap fun path => kind? (.reference path) :=
    fun kind? => List.filterMap_map
  rw [h_summary, sectionsOf_plan]
  unfold sections aliasSections
  simp only [List.filterMap_append, h_references, h_aliases, h_externs]
  cases Script.mainModule? config <;>
    simp [Section.referencePath?, Section.blockId?, Section.copiedFile?, Section.scriptFile?,
      Section.aliasMain?]

/-! ### Runs that succeed -/

/-- A file contributes if it can be read, or emitted with nothing said against it. A module has to
be moved to its block, and can be if its tree cuts no character and fits on the stack. -/
theorem exists_contribution {host : Script.Host} {source : SourceFile}
    (h_readable : ModuleId.isDeclarationFile source.name = true →
      ∃ text, Script.textOf host source = .ok text)
    (h_emits : ModuleId.isDeclarationFile source.name = false → ∃ d, program.Emits source.name d)
    (h_aligned : ∀ d, program.Emits source.name d → d.tree.IsAligned d.text)
    (h_fits : ∀ d, program.Emits source.name d → host.stack.overflows (.nodes d.tree) = false) :
    ∃ piece, Contribution config program host source piece := by
  cases h_kind : ModuleId.isDeclarationFile source.name with
  | true =>
    obtain ⟨text, h_text⟩ := h_readable h_kind
    exact ⟨_, .copied h_kind h_text⟩
  | false =>
    obtain ⟨d, h_d⟩ := h_emits h_kind
    cases h_module : d.isExternalModule with
    | false => exact ⟨_, .script h_kind h_d h_module⟩
    | true =>
      -- the references of the module can be rewritten, since no node cuts a character
      obtain ⟨content, h_content⟩ :=
        Declaration.exists_rehomed_eq_ok (h_aligned d h_d)
          (ModuleId.ofFile d.fileName config.baseDir config.name)
      exact ⟨_, .block h_kind h_d h_module (h_fits d h_d) h_content⟩

/-- On the same stack, a contribution depends on what else there is only through the text that is
copied. A module comes from the program, and its block from the module alone. -/
theorem Contribution.of_textOf {host host' : Script.Host} {source : SourceFile}
    {piece : Section} (h : Contribution config program host source piece)
    (h_stack : host'.stack = host.stack)
    (h_text : ∀ text, Script.textOf host source = .ok text →
      Script.textOf host' source = .ok text) :
    Contribution config program host' source piece := by
  cases h with
  | copied h_kind h_read => exact .copied h_kind (h_text _ h_read)
  | script h_kind h_emits h_script => exact .script h_kind h_emits h_script
  | block h_kind h_emits h_module h_fits h_content =>
    exact .block h_kind h_emits h_module (h_stack ▸ h_fits) h_content

/-- To open the output does not change the text of a file that it is not. Directories may be made on
the way to the output, and the output is emptied, but no other file is touched. -/
theorem textOf_openOutput {source : SourceFile} {found : String}
    (h_open : openOutput s config.out = .ok (tree, place))
    (h_apart : s.tree.follow (FileTree.origin s.cwd source.name) (Path.segments source.name) ≠
      .ok place)
    (h_text : Script.textOf (hostOf s s.tree) source = .ok found) :
    Script.textOf (hostOf s tree) source = .ok found := by
  unfold Script.textOf at h_text ⊢
  -- a file whose text is at hand is not read at all
  cases h_contents : source.contents with
  | some contents => rwa [h_contents] at h_text
  | none =>
    rw [h_contents] at h_text
    unfold hostOf readText at h_text ⊢
    simp only at h_text ⊢
    cases h_read : s.tree.read s.cwd source.name with
    | error error => simp [h_read] at h_text
    | ok bytes =>
      simp only [h_read] at h_text
      simp only [FileTree.read_openFresh (openFresh_of_openOutput h_open) h_apart h_read]
      exact h_text

end Bundle

end DeclarationBundle
