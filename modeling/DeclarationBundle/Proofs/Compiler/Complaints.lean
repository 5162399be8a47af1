import DeclarationBundle.Proofs.Bundle.Plan

/-!
# Every diagnostic is charged where it belongs

A compiler run leaves one list of diagnostics behind, and a program asks for them file by file and
part by part. `Program.check_ofListing` says that nothing is lost or counted twice on the way: what
stops a file are the diagnostics about it and those about no file, each as often as the compiler
printed it.

The parts of the compiler are kept apart by `Diagnostic.heading`, which has one value for the
diagnostics about no file and one for each part. So the lists under the headings together are a
permutation of what was sorted into them (`perm_flatMap_filter`).
-/

namespace DeclarationBundle

/-- Items sorted under headings, all of them different, are the items themselves in some order. -/
theorem perm_flatMap_filter {α β : Type} [DecidableEq β] (heading : α → β) {headings : List β}
    (h_nodup : headings.Nodup) {items : List α} (h_mem : ∀ a ∈ items, heading a ∈ headings) :
    (headings.flatMap fun b => items.filter fun a => heading a = b).Perm items := by
  -- on the headings: what goes under the first is taken out of the items
  induction headings generalizing items with
  | nil =>
    have h_items : items = [] :=
      List.eq_nil_iff_forall_not_mem.2 fun a h => List.not_mem_nil (h_mem a h)
    rw [h_items, List.flatMap_nil]
  | cons b headings ih =>
    obtain ⟨h_b, h_nodup⟩ := List.nodup_cons.1 h_nodup
    -- what does not go under the first heading goes under the others, as if it were all there is
    have h_others : (headings.flatMap fun c => items.filter fun a => heading a = c)
        = headings.flatMap fun c =>
            (items.filter fun a => !decide (heading a = b)).filter fun a => heading a = c := by
      refine List.flatMap_congr fun c h_c => ?_
      have h_ne : c ≠ b := fun h => h_b (h ▸ h_c)
      rw [List.filter_filter]
      refine List.filter_congr fun a _ => ?_
      by_cases h : heading a = c <;> simp [h, h_ne]
    have h_rest : ∀ a ∈ items.filter fun a => !decide (heading a = b), heading a ∈ headings := by
      intro a h
      obtain ⟨h_a, h_ne⟩ := List.mem_filter.1 h
      exact (List.mem_cons.1 (h_mem a h_a)).resolve_left (by simpa using h_ne)
    rw [List.flatMap_cons, h_others]
    exact ((ih h_nodup h_rest).append_left _).trans (List.filter_append_perm _ items)

namespace Diagnostic

/-- **A diagnostic stands against a file**: it is about the file, or about none. -/
def StandsAgainst (d : Diagnostic) (file : String) : Prop :=
  d.file = none ∨ d.file = some (Path.normalise file)

instance (d : Diagnostic) (file : String) : Decidable (d.StandsAgainst file) :=
  inferInstanceAs (Decidable (_ ∨ _))

/-- What a diagnostic is reported under: the part of the compiler that it comes from, unless it is
about no file. -/
def heading (d : Diagnostic) : Option Category :=
  if d.file = none then none else some d.category

/-- The parts of a compiler, in the order in which a file is checked. -/
def categories : List Category :=
  [.emit, .semantic, .syntactic, .declaration]

/-- Every diagnostic has one of the headings: it is about no file, or it comes from one of the parts
of the compiler. -/
theorem heading_mem_categories (d : Diagnostic) : d.heading ∈ none :: categories.map some := by
  unfold heading
  split
  · exact List.mem_cons_self ..
  · cases d.category <;> decide

end Diagnostic

namespace Program

variable (parse : Parser) (cwd root : String) (files : List String)
  (diagnostics : List Diagnostic) (declarations : List (String × String)) (file : String)

/-- What is said against a file of a compiler run: first what concerns no file, then part by
part. -/
theorem complaints_ofListing :
    (ofListing parse cwd root files diagnostics declarations).complaints
        ((ofListing parse cwd root files diagnostics declarations).emit file) file
      = diagnostics.filter (fun d => d.file = none) ++
        Diagnostic.categories.flatMap fun category => diagnostics.filter fun d =>
          d.category = category ∧ d.file = some (Path.normalise file) := by
  have h_emission :
      ((ofListing parse cwd root files diagnostics declarations).emit file).diagnostics
      = diagnostics.filter (·.file.isNone) ++ against diagnostics .emit file := by
    show (emissionOf parse cwd root diagnostics declarations file).diagnostics = _
    unfold emissionOf
    simp only
    split <;> rfl
  have h_none : diagnostics.filter (·.file.isNone) = diagnostics.filter fun d => d.file = none :=
    List.filter_congr fun d _ => by cases d.file <;> rfl
  have h_against : ∀ category, against diagnostics category file
      = diagnostics.filter fun d => d.category = category ∧ d.file = some (Path.normalise file) :=
    fun category => List.filter_congr fun d _ => by simp [Bool.beq_eq_decide_eq]
  -- what concerns no file comes with the emission, the other parts are asked for one by one
  unfold complaints
  rw [h_emission, h_none, h_against]
  show _ ++ against diagnostics .semantic file ++ against diagnostics .syntactic file ++
    against diagnostics .declaration file = _
  rw [h_against, h_against, h_against, Diagnostic.categories]
  simp only [List.flatMap_cons, List.flatMap_nil, List.append_nil, List.append_assoc]

/-- The complaints about a file are what stands against it, each as often as it was printed. -/
theorem complaints_ofListing_perm :
    ((ofListing parse cwd root files diagnostics declarations).complaints
        ((ofListing parse cwd root files diagnostics declarations).emit file) file).Perm
      (diagnostics.filter fun d => d.StandsAgainst file) := by
  -- each list of complaints is what stands against the file under one heading
  have h_global : diagnostics.filter (fun d => d.file = none)
      = (diagnostics.filter fun d => d.StandsAgainst file).filter fun d => d.heading = none := by
    rw [List.filter_filter]
    refine List.filter_congr fun d _ => ?_
    by_cases h : d.file = none <;> simp [Diagnostic.heading, Diagnostic.StandsAgainst, h]
  have h_part : ∀ category, (diagnostics.filter fun d =>
        d.category = category ∧ d.file = some (Path.normalise file))
      = (diagnostics.filter fun d => d.StandsAgainst file).filter fun d =>
          d.heading = some category := by
    intro category
    rw [List.filter_filter]
    refine List.filter_congr fun d _ => ?_
    by_cases h : d.file = none <;> simp [Diagnostic.heading, Diagnostic.StandsAgainst, h]
  -- every diagnostic has one of the headings, so none is left out
  have h_perm := @perm_flatMap_filter _ _ _ Diagnostic.heading
    (none :: Diagnostic.categories.map some) (by decide)
    (diagnostics.filter fun d => d.StandsAgainst file) fun d _ => d.heading_mem_categories
  rw [List.flatMap_cons, ← h_global, List.flatMap_map] at h_perm
  rw [complaints_ofListing]
  simp only [h_part]
  exact h_perm

/-- Nothing stops a file if no diagnostic stands against it. -/
theorem complaints_ofListing_eq_nil_iff :
    (ofListing parse cwd root files diagnostics declarations).complaints
        ((ofListing parse cwd root files diagnostics declarations).emit file) file = [] ↔
      ∀ d ∈ diagnostics, ¬ d.StandsAgainst file := by
  -- a permutation of the list is empty exactly if the list is
  rw [← List.length_eq_zero_iff, (complaints_ofListing_perm ..).length_eq,
    List.length_eq_zero_iff, List.filter_eq_nil_iff]
  simp only [decide_eq_true_eq]

/-- A compiler run emits for a file what was written at its place, if no diagnostic stands against
the file. -/
theorem emits_ofListing_iff {d : Declaration} :
    (ofListing parse cwd root files diagnostics declarations).Emits file d ↔
      (∃ text, declarations.lookup (Layout.key cwd root (Layout.declarationName file)) = some text ∧
        d = .parsed parse (Layout.declarationName file) text) ∧
      ∀ d ∈ diagnostics, ¬ d.StandsAgainst file := by
  have h_emission : (emissionOf parse cwd root diagnostics declarations file).isSkipped = false ∧
      (emissionOf parse cwd root diagnostics declarations file).declaration = some d ↔
        ∃ text, declarations.lookup (Layout.key cwd root (Layout.declarationName file))
          = some text ∧ d = .parsed parse (Layout.declarationName file) text := by
    unfold emissionOf
    simp only
    cases declarations.lookup (Layout.key cwd root (Layout.declarationName file)) with
    | none => simp
    | some text => simp [eq_comm]
  -- the emission is never skipped when a text is there, so only complaints can stop the file
  rw [← complaints_ofListing_eq_nil_iff parse cwd root files, ← h_emission, and_assoc]
  exact ⟨fun h => ⟨h.isSkipped, h.declaration, h.complaints⟩, fun h => ⟨h.1, h.2.1, h.2.2⟩⟩

/-- **No diagnostic of a file is lost, repeated or charged to another.** A file passes, with the
declaration that was written for it, if there is one and no diagnostic stands against the file. If
the file does not pass, what stops it are just the diagnostics that stand against it, each as often
as it was printed: first those about no file, then those about the file part by part, and within a
part in the order of printing. -/
theorem check_ofListing :
    (∀ d, (ofListing parse cwd root files diagnostics declarations).check
        ((ofListing parse cwd root files diagnostics declarations).emit file) file = .ok d ↔
      (∃ text, declarations.lookup (Layout.key cwd root (Layout.declarationName file)) = some text ∧
        d = .parsed parse (Layout.declarationName file) text) ∧
      ∀ d ∈ diagnostics, ¬ d.StandsAgainst file) ∧
    ∀ raised, (ofListing parse cwd root files diagnostics declarations).check
        ((ofListing parse cwd root files diagnostics declarations).emit file) file = .error raised →
      raised.Perm (diagnostics.filter fun d => d.StandsAgainst file) ∧
      raised = diagnostics.filter (fun d => d.file = none) ++
        Diagnostic.categories.flatMap fun category => diagnostics.filter fun d =>
          d.category = category ∧ d.file = some (Path.normalise file) := by
  refine ⟨fun d => ?_, fun raised h_check => ?_⟩
  · rw [check_eq_ok_iff, emits_ofListing_iff]
  · obtain ⟨-, rfl⟩ := check_eq_error_iff.1 h_check
    exact ⟨complaints_ofListing_perm .., complaints_ofListing ..⟩

end Program

end DeclarationBundle
