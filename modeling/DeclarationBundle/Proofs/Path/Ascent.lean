import DeclarationBundle.Proofs.Path.Trail

/-!
# Climbing out of a directory

A relative path that is followed from somewhere below a directory may climb above it. What it does
there depends on the directory: a step up takes a segment away, vanishes at a root, or is kept where
there is nothing left to take (`ascend`).

* `append_ascend_eq_iff`: a path that has climbed, and arrives below the directory where it began,
  has come down again by the segments that it had climbed. So it arrives at the same place below
  another directory just if there are as many to climb, and the same (`reached_iff_of_reached`).
* `ancestor` is the directory some levels above another. Whether a relative path leads to the same
  place from two directories depends on how far it climbs only, and on the ancestors at that
  distance (`normalise_join_eq_iff`).
-/

namespace DeclarationBundle.Path

variable {isRooted : Bool} {floor : List String}

/-! ### Steps up -/

/-- The first step up is taken before the others. -/
theorem ascend_succ (levels : Nat) :
    ascend isRooted (levels + 1) floor = ascend isRooted levels (push isRooted floor "..") :=
  rfl

/-- Steps up take segments away, as long as there are some to take or none are needed. -/
theorem ascend_of_notMem {levels : Nat} (h : ".." ∉ floor.take levels)
    (h_levels : isRooted = true ∨ levels ≤ floor.length) :
    ascend isRooted levels floor = floor.drop levels := by
  induction levels generalizing floor with
  | zero => rfl
  | succ levels ih =>
    rw [ascend_succ]
    cases floor with
    | nil =>
      -- nothing is left to take, so it must be the root, where steps up are lost
      obtain rfl := h_levels.resolve_right (by simp)
      exact (@ih [] (by simp) (.inl rfl)).trans (by simp)
    | cons last floor =>
      obtain ⟨h_last, h_floor⟩ := not_or.1 (mt List.mem_cons.2 h)
      rw [push_up (Ne.symm h_last), List.drop_succ_cons]
      exact ih h_floor (h_levels.imp id Nat.le_of_succ_le_succ)

/-- Steps up that stand on another are all kept. -/
theorem ascend_cons (levels : Nat) :
    ascend isRooted levels (".." :: floor) = List.replicate levels ".." ++ ".." :: floor := by
  induction levels generalizing floor with
  | zero => rfl
  | succ levels ih =>
    rw [ascend_succ]
    refine (@ih (".." :: floor)).trans ?_
    rw [List.replicate_succ', List.append_assoc]
    rfl

/-- A step up takes away a name, or is kept; it never takes away another step up. -/
theorem count_le_count_push :
    floor.count ".." ≤ (push isRooted floor "..").count ".." := by
  cases floor with
  | nil => exact Nat.zero_le _
  | cons last floor =>
    by_cases h_last : last = ".."
    · subst h_last
      show _ ≤ List.count ".." (".." :: ".." :: floor)
      rw [List.count_cons_self (l := ".." :: floor)]
      exact Nat.le_succ _
    · rw [push_up h_last, List.count_cons_of_ne h_last]

/-- Steps up are never taken away by others. -/
theorem count_le_count_ascend (levels : Nat) :
    floor.count ".." ≤ (ascend isRooted levels floor).count ".." := by
  induction levels generalizing floor with
  | zero => exact Nat.le_refl _
  | succ levels ih => exact count_le_count_push.trans ih

/-- Climbing takes segments away, unless some of the steps are kept. -/
theorem ascend_eq_drop_or (levels : Nat) :
    (isRooted = true ∨ levels ≤ floor.length) ∧ ascend isRooted levels floor = floor.drop levels ∨
      floor.count ".." < (ascend isRooted levels floor).count ".." := by
  induction levels generalizing floor with
  | zero => exact .inl ⟨.inr (Nat.zero_le _), rfl⟩
  | succ levels ih =>
    rw [ascend_succ]
    cases floor with
    | nil =>
      -- at a root the step up is lost; elsewhere it is kept, and then it stays
      cases isRooted with
      | true =>
        have h_root := @ascend_of_notMem true [] levels (by simp) (.inl rfl)
        exact .inl ⟨.inl rfl, h_root.trans (by simp)⟩
      | false => exact .inr (Nat.lt_of_lt_of_le (by decide) (count_le_count_ascend levels))
    | cons last floor =>
      by_cases h_last : last = ".."
      · subst h_last
        -- a step up on another is kept as well
        refine .inr (Nat.lt_of_lt_of_le ?_ (count_le_count_ascend levels))
        show _ < List.count ".." (".." :: ".." :: floor)
        rw [List.count_cons_self (l := ".." :: floor)]
        exact Nat.lt_succ_self _
      · rw [push_up h_last, List.count_cons_of_ne h_last, List.drop_succ_cons]
        -- a name is taken away, and the other steps go on from what stood below it
        exact ih.imp_left (And.imp_left (Or.imp_right Nat.succ_le_succ))

/-- **A path that climbs and arrives below the directory where it began** has come down by the
segments that it had climbed: no step up can be left of it. To see this, steps up are counted on
both sides, since climbing can only add to them. -/
theorem append_ascend_eq_iff {names target : List String} {levels : Nat}
    (h_names : ".." ∉ names) (h_target : ".." ∉ target) :
    names ++ ascend isRooted levels floor = target ++ floor ↔
      (isRooted = true ∨ levels ≤ floor.length) ∧ names = target ++ floor.take levels := by
  have h_split : target ++ floor = target ++ floor.take levels ++ floor.drop levels := by
    rw [List.append_assoc, List.take_append_drop]
  constructor
  · intro h
    -- there are as many steps up on both sides as in `floor`, so that climbing has kept none
    have h_count := congrArg (List.count "..") h
    rw [List.count_append, List.count_append, List.count_eq_zero.2 h_names,
      List.count_eq_zero.2 h_target] at h_count
    obtain ⟨h_levels, h_drop⟩ :=
      (@ascend_eq_drop_or isRooted floor levels).resolve_right (by omega)
    rw [h_drop, h_split] at h
    exact ⟨h_levels, List.append_cancel_right h⟩
  · rintro ⟨h_levels, rfl⟩
    have h_take : ".." ∉ floor.take levels := fun h => h_names (List.mem_append_right _ h)
    rw [ascend_of_notMem h_take h_levels, h_split]

/-- Where a relative path leads from some directories below another. -/
theorem trail_join_of_trail_eq {start more : String} {dirs : List String}
    (h_dirs : ∀ n ∈ dirs, IsName n) (h_start : trail start = dirs.reverse ++ floor)
    (h_more : isAbsolute more = false) : trail (join start more) =
      (segments more).foldl (push true) dirs.reverse ++
        ascend (isAbsolute start) (climb dirs.length (segments more)) floor := by
  rw [trail_join h_more, h_start, ← List.length_reverse]
  exact foldl_push_climb (fun s hs => (h_dirs s (List.mem_reverse.1 hs)).2.2.1) floor

/-! ### Arriving below a directory -/

/-- To arrive at a segment below `above` from another. -/
theorem normalise_join_directory_eq_iff {above last target more : String} {dirs dirs' : List String}
    (h_dirs : ∀ n ∈ dirs, IsName n) (h_last : '/' ∉ last.toList)
    (h_dirs' : ∀ n ∈ dirs', IsName n) (h_target : '/' ∉ target.toList)
    (h_more : isAbsolute more = false) :
    normalise (join (directory (placed above dirs last)) more) = placed above dirs' target ↔
      normalise (placed above dirs' target) = placed above dirs' target ∧
        (segments more).foldl (push true) dirs.reverse ++ ascend (isAbsolute (above ++ "/"))
            (climb dirs.length (segments more)) (trail (above ++ "/"))
          = push (isAbsolute (above ++ "/")) (dirs'.reverse ++ trail (above ++ "/")) target := by
  have h_root := root_directory_placed above h_dirs h_last
  have h_start := trail_directory_placed above h_dirs h_last
  have h_from := trail_join_of_trail_eq h_dirs h_start h_more
  rw [isAbsolute_eq_of_root_eq h_root] at h_from
  have h_iff := @normalise_eq_iff (join (directory (placed above dirs last)) more)
    (placed above dirs' target)
  rw [root_join h_more, h_root, root_placed above h_dirs' h_target, h_from,
    trail_placed above h_dirs' h_target] at h_iff
  constructor
  · intro h
    -- what is reached is a normal form, and the target is said to be equal to it
    have h_normal := congrArg normalise h
    rw [normalise_normalise, h] at h_normal
    exact ⟨h_normal.symm, (h_iff.1 (h.trans h_normal)).2⟩
  · rintro ⟨h_normal, h⟩
    exact (h_iff.2 ⟨rfl, h⟩).trans h_normal

/-- A path in normal form that ends in no name is a root or ends in steps up. -/
theorem eq_nil_of_not_isName {above last : String} {dirs : List String}
    (h_dirs : ∀ n ∈ dirs, IsName n) (h_last : '/' ∉ last.toList) (h_name : ¬ IsName last)
    (h : normalise (placed above dirs last) = placed above dirs last) :
    dirs = [] ∧ (last = "" ∧ trail (above ++ "/") = [] ∨
      last = ".." ∧ ∃ floor, trail (above ++ "/") = ".." :: floor) := by
  have h_trail := trail_placed above h_dirs h_last
  have h_absolute := isAbsolute_eq_of_root_eq (root_placed above h_dirs h_last)
  have h_cases : last = "" ∧ trail (placed above dirs last) = [] ∨
      trail (placed above dirs last) = last :: (dirs.reverse ++ trail (above ++ "/")) := by
    obtain ⟨parent, -, h_parent, h_split⟩ := exists_parent above h_dirs
    rw [h_split] at h ⊢
    rw [← h_parent]
    exact trail_of_normalise_eq_self h_last h
  rcases h_cases with ⟨rfl, h_nil⟩ | h_cons
  · rw [h_trail, push_skip (.inl rfl), List.append_eq_nil_iff, List.reverse_eq_nil_iff] at h_nil
    exact ⟨h_nil.1, .inl ⟨rfl, h_nil.2⟩⟩
  · have h_is := isTrail_trail (placed above dirs last)
    rw [h_cons, h_absolute] at h_is
    have h_up : last = ".." := by
      obtain ⟨h_empty, h_dot, h_slash⟩ := h_is.segment last (List.mem_cons_self ..)
      by_contra h_up
      exact h_name ⟨h_empty, h_dot, h_up, h_slash⟩
    subst h_up
    -- steps up stand on steps up alone
    have h_ups := (List.pairwise_cons.1 h_is.ups).1
    have h_nil : dirs = [] := by
      rw [List.eq_nil_iff_forall_not_mem]
      intro n hn
      exact (h_dirs n hn).2.2.1 (h_ups n (by simp [hn]) rfl)
    refine ⟨h_nil, .inr ⟨rfl, ?_⟩⟩
    subst h_nil
    cases h_floor : trail (above ++ "/") with
    | nil =>
      -- the path would be `..` and have no slash
      have h_relative : isAbsolute (above ++ "/") = false := by
        rw [Bool.eq_false_iff]
        exact fun h_rooted => h_is.rooted h_rooted (List.mem_cons_self ..)
      rw [h_floor] at h_cons
      rw [normalise_of_ne (.inr (by rw [h_cons]; simp)), h_cons, root_placed above h_dirs h_last,
        root_of_isAbsolute_eq_false h_relative] at h
      have h_slash : '/' ∈ (placed above [] "..").toList := by simp [placed]
      rw [← h] at h_slash
      exact absurd h_slash (by decide)
    | cons s floor =>
      have h_s : s = ".." := h_ups s (by simp [h_floor]) rfl
      exact ⟨floor, by rw [h_s]⟩

section Arrival

variable {one other last last' target suffix more : String} {dirs dirs' : List String}

/-- **To come down to a name** below another directory as well, the path must climb through the same
segments there. -/
theorem append_ascend_eq_push_iff {isRooted' : Bool} {names floor floor' : List String}
    {levels : Nat} (h_names : ".." ∉ names) (h_dirs' : ∀ n ∈ dirs', IsName n)
    (h_target : IsName target)
    (h : names ++ ascend isRooted levels floor
      = push isRooted (dirs'.reverse ++ floor) target) :
    names ++ ascend isRooted' levels floor' = push isRooted' (dirs'.reverse ++ floor') target ↔
      (isRooted' = true ∨ levels ≤ floor'.length) ∧ floor.take levels = floor'.take levels := by
  -- the target and the directories on the way to it are names, so `append_ascend_eq_iff` applies on
  -- either side
  have h_plain : ".." ∉ target :: dirs'.reverse := by
    intro h_mem
    rcases List.mem_cons.1 h_mem with h_eq | h_mem
    · exact h_target.2.2.1 h_eq.symm
    · exact absurd rfl (h_dirs' _ (List.mem_reverse.1 h_mem)).2.2.1
  rw [push_name h_target, ← List.cons_append, append_ascend_eq_iff h_names h_plain] at h ⊢
  rw [h.2, List.append_right_inj]

/-- The same of the empty segment, which stands for the root. -/
theorem arrives_iff_of_empty {names : List String} {levels : Nat} (h_climbs : 0 < levels)
    (h_full : IsName suffix)
    (h_normal : normalise (placed other [] suffix) = placed other [] suffix)
    (h : names ++ ascend isRooted levels [] = []) :
    normalise (placed other [] "") = placed other [] "" ∧
        names ++ ascend (isAbsolute (other ++ "/")) levels (trail (other ++ "/"))
          = trail (other ++ "/") ↔
      (isAbsolute (other ++ "/") = true ∨ levels ≤ (trail (other ++ "/")).length) ∧
        [] = (trail (other ++ "/")).take levels := by
  rw [(List.append_eq_nil_iff.1 h).1]
  have h_iff := @append_ascend_eq_iff (isAbsolute (other ++ "/")) (trail (other ++ "/")) [] []
    levels (by simp) (by simp)
  rw [List.nil_append] at h_iff
  refine (and_congr_right' h_iff).trans (and_iff_right_of_imp fun h_levels => ?_)
  -- there is at least one level to climb and nothing to climb through, so `other` is a root
  have h_nil : trail (other ++ "/") = [] :=
    (List.take_eq_nil_iff.1 h_levels.2.symm).resolve_left h_climbs.ne'
  simp only [placed, List.nil_append, String.intercalate_singleton, String.append_empty]
    at h_normal ⊢
  exact normalise_append_slash h_full h_normal h_nil

/-- The same of a step up, which stands on others. -/
theorem arrives_iff_of_up {names floor : List String} {levels : Nat} (h_climbs : 0 < levels)
    (h_full : IsName (".." ++ suffix))
    (h_normal : normalise (placed other [] (".." ++ suffix)) = placed other [] (".." ++ suffix))
    (h : names ++ ascend isRooted levels (".." :: floor) = ".." :: ".." :: floor) :
    normalise (placed other [] "..") = placed other [] ".." ∧
        names ++ ascend (isAbsolute (other ++ "/")) levels (trail (other ++ "/"))
          = push (isAbsolute (other ++ "/")) (trail (other ++ "/")) ".." ↔
      (isAbsolute (other ++ "/") = true ∨ levels ≤ (trail (other ++ "/")).length) ∧
        (".." :: floor).take levels = (trail (other ++ "/")).take levels := by
  -- the path has climbed a single level
  obtain ⟨rfl, rfl⟩ : names = [] ∧ levels = 1 := by
    have h_split : names ++ List.replicate levels ".." ++ (".." :: floor)
        = [".."] ++ (".." :: floor) := by
      rw [List.append_assoc, ← @ascend_cons isRooted, h]
      rfl
    have h_ups := List.append_eq_singleton_iff.1 (List.append_cancel_right h_split)
    rcases h_ups with ⟨h_names, h_ups⟩ | ⟨-, h_ups⟩
    · exact ⟨h_names, by simpa using congrArg List.length h_ups⟩
    · exact absurd ((List.replicate_eq_nil_iff _).1 h_ups) h_climbs.ne'
  have h_up : '/' ∉ "..".toList := by decide
  have h_stays : [] ++ ascend (isAbsolute (other ++ "/")) 1 (trail (other ++ "/"))
      = push (isAbsolute (other ++ "/")) (trail (other ++ "/")) ".." := rfl
  rw [and_iff_left h_stays]
  constructor
  · -- a normal form that ends in a step up stands on steps up, and then the one segment to climb
    -- through is the same
    intro h_other
    obtain ⟨-, ⟨h_empty, -⟩ | ⟨-, below, h_below⟩⟩ :=
      eq_nil_of_not_isName (List.forall_mem_nil _) h_up (fun h => h.2.2.1 rfl) h_other
    · exact absurd h_empty (by decide)
    · simp [h_below]
  · rintro ⟨-, h_take⟩
    cases h_floor : trail (other ++ "/") with
    | nil =>
      rw [h_floor] at h_take
      cases h_take
    | cons last below =>
      obtain rfl : ".." = last := by simpa [h_floor] using h_take
      simp only [placed, List.nil_append, String.intercalate_singleton] at h_normal ⊢
      exact normalise_append_eq_self h_full h_up (by rw [h_floor]; rfl) h_normal

/-- **A path that climbs above one directory and arrives below it** arrives at the same place below
another exactly if there are as many segments to climb through, and the same. -/
theorem reached_iff_of_reached (h_dirs : ∀ n ∈ dirs, IsName n) (h_last : '/' ∉ last.toList)
    (h_last' : '/' ∉ last'.toList) (h_dirs' : ∀ n ∈ dirs', IsName n)
    (h_target : '/' ∉ target.toList) (h_full : IsName (target ++ suffix))
    (h_more : isAbsolute more = false)
    (h_normal : normalise (placed other dirs' (target ++ suffix))
      = placed other dirs' (target ++ suffix))
    (h_climbs : 0 < climb dirs.length (segments more))
    (h : normalise (join (directory (placed one dirs last)) more) = placed one dirs' target) :
    normalise (join (directory (placed other dirs last')) more) = placed other dirs' target ↔
      (isAbsolute (other ++ "/") = true ∨
        climb dirs.length (segments more) ≤ (trail (other ++ "/")).length) ∧
      (trail (one ++ "/")).take (climb dirs.length (segments more))
        = (trail (other ++ "/")).take (climb dirs.length (segments more)) := by
  obtain ⟨h_self, h⟩ := (normalise_join_directory_eq_iff h_dirs h_last h_dirs' h_target h_more).1 h
  rw [normalise_join_directory_eq_iff h_dirs h_last' h_dirs' h_target h_more]
  by_cases h_name : IsName target
  · -- below `dirs` a climb leaves names only
    have h_names : ".." ∉ (segments more).foldl (push true) dirs.reverse := fun h_mem =>
      (isName_of_mem_foldl_push (fun s hs => notMem_of_mem_segments hs)
        (fun n hn => h_dirs n (List.mem_reverse.1 hn)) ".." h_mem).2.2.1 rfl
    have h_normal' : normalise (placed other dirs' target) = placed other dirs' target := by
      obtain ⟨parent, -, -, h_parent⟩ := exists_parent other h_dirs'
      rw [h_parent] at h_normal ⊢
      exact normalise_append_eq_self h_full h_target (push_name h_name) h_normal
    rw [and_iff_right h_normal']
    exact append_ascend_eq_push_iff h_names h_dirs' h_name h
  · -- a name need not be one without its suffix, but little else can be left of it
    obtain ⟨rfl, h_one⟩ := eq_nil_of_not_isName h_dirs' h_target h_name h_self
    rcases h_one with ⟨rfl, h_one⟩ | ⟨rfl, floor, h_one⟩
    · rw [String.empty_append] at h_full h_normal
      rw [h_one, push_skip (.inl rfl)] at h
      rw [h_one, push_skip (.inl rfl), List.take_nil]
      exact arrives_iff_of_empty h_climbs h_full h_normal h
    · rw [h_one] at h ⊢
      exact arrives_iff_of_up h_climbs h_full h_normal h

end Arrival

/-! ### Ancestors -/

/-- Steps up alone are a trail of a relative path. -/
theorem isTrail_replicate (levels : Nat) : IsTrail false (List.replicate levels "..") := by
  refine ⟨fun s hs => ?_, by simp, List.pairwise_replicate.2 (.inr fun _ => rfl)⟩
  rw [(List.mem_replicate.1 hs).2]
  decide

/-- A path of steps up is relative, even if there are none. -/
theorem isAbsolute_upwards (levels : Nat) :
    isAbsolute ("/".intercalate (List.replicate levels "..")) = false := by
  have h := isAbsolute_intercalate_reverse (isTrail_replicate levels)
  rwa [List.reverse_replicate] at h

/-- **The directory some levels above another.** -/
def ancestor (levels : Nat) (path : String) : String :=
  normalise (join path ("/".intercalate (List.replicate levels "..")))

/-- Where steps up lead from a path. -/
theorem trail_join_upwards (levels : Nat) (path : String) :
    trail (join path ("/".intercalate (List.replicate levels "..")))
      = ascend (isAbsolute path) levels (trail path) := by
  rw [trail_join (isAbsolute_upwards levels)]
  cases levels with
  | zero => rfl
  | succ levels =>
    rw [segments_intercalate (fun s hs => ((isTrail_replicate _).segment s hs).2.2) (by simp)]
    rfl

/-- **From two directories a relative path leads to one place** exactly if the ancestors that it
climbs to are the same. -/
theorem normalise_join_eq_iff {a b more : String} (h : isAbsolute more = false) :
    normalise (join a more) = normalise (join b more) ↔
      ancestor (climb 0 (segments more)) a = ancestor (climb 0 (segments more)) b := by
  -- the names behind the ancestor are the same from both directories, so only the ancestors are
  -- left to compare
  have h_trail : ∀ base, trail (join base more) = (segments more).foldl (push true) [] ++
      ascend (isAbsolute base) (climb 0 (segments more)) (trail base) := fun base =>
    @trail_join_of_trail_eq _ base more [] (by simp) rfl h
  unfold ancestor
  rw [normalise_eq_iff, normalise_eq_iff, root_join h, root_join h,
    root_join (isAbsolute_upwards _), root_join (isAbsolute_upwards _), h_trail, h_trail,
    trail_join_upwards, trail_join_upwards, List.append_right_inj]

end DeclarationBundle.Path
