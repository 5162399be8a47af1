import DeclarationBundle.Proofs.FileTree.Likeness
import DeclarationBundle.Proofs.ModuleId.CrossReference
import DeclarationBundle.Proofs.Text.Encoding

/-!
# Searches in trees that look alike

Two searches, one in each of two trees, are held against each other. What they find below a
directory is compared as it is seen from there, in any order, and as far as it is short enough to be
followed from both directories (`Same`).

* Each part of a search keeps this relation, for twins: the names in a directory (`Twin.namesIn`),
  what lies below it (`Twin.below`) and what the last segment of a pattern leads to
  (`Twin.matchIn`).
* What is found below an entry goes with the entry (`Same.flatMap`), since what is too long to be
  followed stays so with anything behind it.
* A pattern read from a directory finds, segment by segment, what is the same from both
  (`exists_searchWithin_finds`). The directory itself must be no pattern.
-/

namespace DeclarationBundle.FileTree

open DeclarationBundle.Path (IsName Leads Spells depthAfter slashes asDirectory)

variable {t t' : FileTree} {cwd cwd' d d' name : String} {levels : Nat} {only : Bool}
  {xs xs' ys ys' : List String}

/-! ### Short paths -/

/-- A path that is short enough is so without its end. -/
theorem isShort_append {front more : String} (h : isShort (front ++ more) = true) :
    isShort front = true := by
  unfold isShort at h ⊢
  rw [Utf8.encode_append, List.length_append] at h
  exact decide_eq_true (Nat.lt_of_le_of_lt (Nat.le_add_right ..) (of_decide_eq_true h))

/-- If a path with a directory before it is short enough, so is the directory. -/
theorem isShort_join {more : String} (h_more : Path.isAbsolute more = false)
    (h : isShort (Path.join d more) = true) : isShort d = true := by
  rw [Path.join_eq_asDirectory_append h_more] at h
  have h_directory := isShort_append h
  unfold asDirectory at h_directory
  split at h_directory
  · exact h_directory
  · exact isShort_append h_directory

/-- What is short enough to be followed from two directories. -/
def fits (d d' x : String) : Bool :=
  isShort (Path.join d x) && isShort (Path.join d' x)

/-- Both paths have to be short enough. -/
theorem fits_iff {x : String} :
    fits d d' x = true ↔ isShort (Path.join d x) = true ∧ isShort (Path.join d' x) = true :=
  Bool.and_eq_true_iff

/-- Neither of the directories comes first. -/
theorem fits_comm (d d' x : String) : fits d d' x = fits d' d x :=
  Bool.and_comm ..

/-- What lies further down fits if it does from there. -/
theorem fits_join (d d' x y : String) :
    fits d d' (Path.join x y) = fits (Path.join d x) (Path.join d' x) y := by
  unfold fits
  rw [Path.join_assoc, Path.join_assoc]

/-- Directories that anything fits behind are short enough themselves. -/
theorem isShort_of_fits {x : String} (h_x : Path.isAbsolute x = false) (h : fits d d' x = true) :
    isShort d = true ∧ isShort d' = true :=
  (fits_iff.1 h).imp (isShort_join h_x) (isShort_join h_x)

/-- What is too long stays so with anything behind it. -/
theorem fits_join_eq_false {x y : String} (h_y : Path.isAbsolute y = false)
    (h : fits d d' x = false) : fits d d' (Path.join x y) = false := by
  -- if the longer path did fit, so would its beginning
  by_contra h_fits
  rw [Bool.not_eq_false, fits_join] at h_fits
  have h_x : fits d d' x = true := fits_iff.2 (isShort_of_fits h_y h_fits)
  exact Bool.noConfusion (h.symm.trans h_x)

/-! ### The same findings -/

/-- **The same findings** from two directories, as far as they fit, in any order. -/
def Same (d d' : String) (xs xs' : List String) : Prop :=
  (xs.filter (fits d d')).Perm (xs'.filter (fits d d'))

/-- Findings that are the same stay so when others are put behind them. -/
theorem Same.append (h : Same d d' xs xs') (h_more : Same d d' ys ys') :
    Same d d' (xs ++ ys) (xs' ++ ys') := by
  unfold Same
  rw [List.filter_append, List.filter_append]
  exact List.Perm.append h h_more

/-- Findings are the same as themselves. -/
theorem Same.refl (d d' : String) (xs : List String) : Same d d' xs xs :=
  List.Perm.refl _

/-- Findings that are the same stay so when they are filtered by any condition. -/
theorem Same.filter (h : Same d d' xs xs') (keep : String → Bool) :
    Same d d' (xs.filter keep) (xs'.filter keep) := by
  unfold Same
  rw [List.filter_comm, List.filter_comm (fits d d')]
  exact List.Perm.filter keep h

/-- Findings from a directory further down, seen from above. -/
theorem Same.map_join {x : String} (h : Same (Path.join d x) (Path.join d' x) ys ys') :
    Same d d' (ys.map (Path.join x)) (ys'.map (Path.join x)) := by
  have h_fits : fits d d' ∘ Path.join x = fits (Path.join d x) (Path.join d' x) := by
    funext y
    rw [Function.comp_apply, fits_join]
  unfold Same
  rw [List.filter_map, List.filter_map, h_fits]
  exact List.Perm.map _ h

/-- Findings on a condition that is the same wherever it matters. -/
theorem Same.ite {c c' : Bool} {x : String} (h : fits d d' x = true → c = c') :
    Same d d' (if c then [x] else []) (if c' then [x] else []) := by
  cases h_fits : fits d d' x with
  | true =>
    rw [h h_fits]
    exact Same.refl ..
  -- what does not fit is not looked at, be it found or not
  | false =>
    have h_none : ∀ b : Bool, (if b then [x] else []).filter (fits d d') = [] := by
      intro b
      cases b <;> simp [h_fits]
    unfold Same
    rw [h_none, h_none]

/-- What is too long leads to nothing that fits. -/
theorem filter_flatMap_of_long {f : String → List String}
    (h : ∀ x ∈ xs, fits d d' x = false → ∀ y ∈ f x, fits d d' y = false) :
    (xs.flatMap f).filter (fits d d')
      = (xs.filter (fits d d')).flatMap fun x => (f x).filter (fits d d') := by
  rw [List.filter_flatMap]
  -- item by item: one that is too long adds nothing to either side
  induction xs with
  | nil => rfl
  | cons x xs ih =>
    obtain ⟨h_x, h_xs⟩ := List.forall_mem_cons.1 h
    rw [List.flatMap_cons, ih h_xs]
    cases h_fits : fits d d' x with
    | true => rw [List.filter_cons_of_pos h_fits, List.flatMap_cons]
    | false =>
      have h_none : (f x).filter (fits d d') = [] :=
        List.filter_eq_nil_iff.2 fun y hy => by simp [h_x h_fits y hy]
      rw [List.filter_cons_of_neg (by simp [h_fits]), h_none, List.nil_append]

/-- **What is found at each of the same findings is the same**, if nothing too long leads to what
fits. -/
theorem Same.flatMap {f f' : String → List String} (h : Same d d' xs xs')
    (h_same : ∀ x ∈ xs, Same d d' (f x) (f' x))
    (h_long : ∀ x ∈ xs, fits d d' x = false → ∀ y ∈ f x, fits d d' y = false)
    (h_long' : ∀ x ∈ xs', fits d d' x = false → ∀ y ∈ f' x, fits d d' y = false) :
    Same d d' (xs.flatMap f) (xs'.flatMap f') := by
  unfold Same
  rw [filter_flatMap_of_long h_long, filter_flatMap_of_long h_long']
  exact List.Perm.flatMap h fun x hx => h_same x (List.mem_filter.1 hx).1

/-- What is found from something too long is too long. -/
theorem fits_eq_false_of_mem_map {x : String} (h_relative : ∀ y ∈ ys, Path.isAbsolute y = false)
    (h : fits d d' x = false) : ∀ z ∈ ys.map (Path.join x), fits d d' z = false := by
  intro z hz
  obtain ⟨y, hy, rfl⟩ := List.mem_map.1 hz
  exact fits_join_eq_false (h_relative y hy) h

/-! ### Names in a directory -/

/-- What twins agree on, as far as both can be followed: they are directories both or neither is. -/
theorem Twin.isDirectory_eq (h : Twin t t' cwd cwd' levels d d') (h_short : isShort d = true)
    (h_short' : isShort d' = true) : t.isDirectory cwd d = t'.isDirectory cwd' d' := by
  unfold isDirectory
  rw [h.stat_eq h_short h_short']

/-- Of twins both are files or neither is. -/
theorem Twin.isFile_eq (h : Twin t t' cwd cwd' levels d d') (h_short : isShort d = true)
    (h_short' : isShort d' = true) : t.isFile cwd d = t'.isFile cwd' d' := by
  unfold isFile
  rw [h.stat_eq h_short h_short']

/-- There is something at both or at neither. -/
theorem Twin.hasEntry_eq (h : Twin t t' cwd cwd' levels d d') (h_short : isShort d = true)
    (h_short' : isShort d' = true) : t.hasEntry cwd d = t'.hasEntry cwd' d' := by
  unfold hasEntry
  rw [h.stat_eq h_short h_short']

/-- A name leads twins one step down, and gives them one level more to climb. -/
theorem Twin.join_name (h : Twin t t' cwd cwd' levels d d') (h_name : IsName name) :
    Twin t t' cwd cwd' (levels + 1) (Path.join d name) (Path.join d' name) := by
  refine h.join (Path.isAbsolute_of_notMem h_name.2.2.2) ?_
  rw [Path.segments_of_notMem h_name.2.2.2]
  exact Path.depthAfter_names (List.forall_mem_singleton.2 h_name) levels

/-- Whatever leads somewhere leads twins to twins. -/
theorem Twin.join_of_leads (h : Twin t t' cwd cwd' levels d d') {reached : Nat} {x : String}
    (h_x : Leads levels reached x) :
    Twin t t' cwd cwd' reached (Path.join d x) (Path.join d' x) := by
  obtain ⟨h_relative, r, h_le, h_r⟩ := h_x
  exact (h.join h_relative h_r).mono h_le

/-- A directory with a path is meant by that path. -/
theorem orHere_of_ne (h : d ≠ "") : orHere d = d :=
  if_neg h

/-- **A name is found in a directory** if the path leads to one that holds the name, and if the name
itself leads to a directory where only these are asked for. -/
theorem mem_namesIn (h_ne : d ≠ "") : name ∈ t.namesIn cwd only d ↔
    t.isDirectory cwd d = true ∧ (∃ place, t.landing cwd d = .ok place ∧ name ∈ t.names place) ∧
      (only = true → t.isDirectory cwd (Path.join d name) = true) := by
  have h_landing : t.follow (origin cwd d) (Path.segments d) = t.landing cwd d := rfl
  unfold namesIn isDirectoryIn
  simp only [orHere_of_ne h_ne, h_landing]
  split
  · next h_directory =>
    rw [and_iff_right h_directory]
    cases t.landing cwd d with
    | error errno => simp
    | ok place => cases only <;> simp
  · next h_directory => exact iff_of_false List.not_mem_nil fun h => h_directory h.1

/-- In a proper tree, what is found in a directory are names. -/
theorem isName_of_mem_namesIn (h_proper : t.IsProper) (h_ne : d ≠ "")
    (h : name ∈ t.namesIn cwd only d) : IsName name := by
  obtain ⟨-, ⟨place, -, h_mem⟩, -⟩ := (mem_namesIn h_ne).1 h
  exact h_proper.isName h_mem

/-- None of them is found twice. -/
theorem nodup_namesIn (t : FileTree) (cwd d : String) (only : Bool) :
    (t.namesIn cwd only d).Nodup := by
  unfold namesIn
  simp only
  split
  · split
    · exact (nodup_names ..).filter _
    · exact List.nodup_nil
  · exact List.nodup_nil

/-- A name that fits is found in both of two twins if it is in one of them. -/
theorem Twin.mem_namesIn (h : Twin t t' cwd cwd' levels d d') (h_proper : t.IsProper)
    (h_fits : fits d d' name = true) (h_mem : name ∈ t.namesIn cwd only d) :
    name ∈ t'.namesIn cwd' only d' := by
  have h_name := isName_of_mem_namesIn h_proper h.ne_empty h_mem
  have h_short := isShort_of_fits (Path.isAbsolute_of_notMem h_name.2.2.2) h_fits
  obtain ⟨h_directory, ⟨place, h_landing, h_names⟩, h_only⟩ :=
    (FileTree.mem_namesIn h.ne_empty).1 h_mem
  refine (FileTree.mem_namesIn h.ne_empty').2 ⟨?_, ?_, fun h_true => ?_⟩
  · rwa [← h.isDirectory_eq h_short.1 h_short.2]
  · -- the other directory has the same names in it, wherever it is
    have h_arrive := h.arrive
    rw [h_landing] at h_arrive
    generalize t'.landing cwd' d' = r' at h_arrive
    cases h_arrive with
    | @place _ place' h_alike =>
      refine ⟨place', rfl, mem_names_iff.2 ?_⟩
      rw [← h_alike.below]
      exact mem_names_iff.1 h_names
  · rw [← (h.join_name h_name).isDirectory_eq (fits_iff.1 h_fits).1 (fits_iff.1 h_fits).2]
    exact h_only h_true

section Proper

variable (h_proper : t.IsProper) (h_proper' : t'.IsProper)

include h_proper h_proper'

/-- **Twins have the same names in them.** -/
theorem Twin.namesIn (h : Twin t t' cwd cwd' levels d d') :
    Same d d' (t.namesIn cwd only d) (t'.namesIn cwd' only d') := by
  -- neither directory has a name twice, so that it is enough to compare what is in them
  have h_nodup := (nodup_namesIn t cwd d only).filter (fits d d')
  have h_nodup' := (nodup_namesIn t' cwd' d' only).filter (fits d d')
  refine (List.perm_ext_iff_of_nodup h_nodup h_nodup').2 fun n => ?_
  rw [List.mem_filter, List.mem_filter]
  constructor
  · rintro ⟨h_mem, h_fits⟩
    exact ⟨h.mem_namesIn h_proper h_fits h_mem, h_fits⟩
  · rintro ⟨h_mem, h_fits⟩
    exact ⟨h.symm.mem_namesIn h_proper' (fits_comm d d' n ▸ h_fits) h_mem, h_fits⟩

end Proper

/-! ### What lies below -/

/-- Names one below the other. -/
def IsDescent (path : String) : Prop :=
  ∃ names : List String, names ≠ [] ∧ (∀ n ∈ names, IsName n) ∧ path = "/".intercalate names

/-- A descent is a relative path. -/
theorem IsDescent.isAbsolute {x : String} (h : IsDescent x) : Path.isAbsolute x = false := by
  obtain ⟨names, h_ne, h_names, rfl⟩ := h
  have h_absolute := Path.isAbsolute_intercalate_append h_names h_ne ""
  rwa [String.append_empty] at h_absolute

/-- A descent is not empty. -/
theorem IsDescent.ne_empty {x : String} (h : IsDescent x) : x ≠ "" := by
  obtain ⟨names, h_ne, h_names, rfl⟩ := h
  exact (Path.endsInName_intercalate h_names h_ne).ne_empty

/-- A descent leads no higher than where it starts. -/
theorem IsDescent.depthAfter {x : String} (h : IsDescent x) (depth : Nat) :
    ∃ reached, depth ≤ reached ∧ Path.depthAfter depth (Path.segments x) = some reached := by
  obtain ⟨names, h_ne, h_names, rfl⟩ := h
  rw [Path.segments_intercalate (fun n hn => (h_names n hn).2.2.2) h_ne]
  exact ⟨_, Nat.le_add_right .., Path.depthAfter_names h_names depth⟩

/-- A name is a descent of one step. -/
theorem isDescent_name (h : IsName name) : IsDescent name :=
  ⟨[name], List.cons_ne_nil name [], List.forall_mem_singleton.2 h,
    String.intercalate_singleton.symm⟩

/-- A name with a descent behind it is a descent of one step more. -/
theorem IsDescent.join {x : String} (h : IsDescent x) (h_name : IsName name) :
    IsDescent (Path.join name x) := by
  rw [h_name.endsInName.join_eq h.isAbsolute]
  obtain ⟨names, h_ne, h_names, rfl⟩ := h
  refine ⟨name :: names, List.cons_ne_nil name names, List.forall_mem_cons.2 ⟨h_name, h_names⟩, ?_⟩
  rw [← List.singleton_append, String.intercalate_append_of_ne_nil (by simp) h_ne,
    String.intercalate_singleton]

/-- Paths that are not empty are joined as usual. -/
theorem joined_of_ne {x : String} (h : d ≠ "") (h_x : x ≠ "") : joined d x = Path.join d x := by
  rw [joined, if_neg h, if_neg h_x]

/-- The bound is no limit: there is nothing deeper in the tree. -/
def Suffices (t : FileTree) (bound : Nat) (reached : Except Errno Place) : Prop :=
  ∀ place, reached = .ok place → t.depth ≤ bound + place.length

/-- One step down, a bound that is less by one suffices. -/
theorem Suffices.join {bound : Nat} (h_name : IsName name)
    (h : t.Suffices bound (t.landing cwd d)) :
    t.Suffices (bound - 1) (t.landing cwd (Path.join d name)) := by
  intro inner h_inner
  rw [landing_join t cwd d (Path.isAbsolute_of_notMem h_name.2.2.2),
    Path.segments_of_notMem h_name.2.2.2] at h_inner
  cases h_landing : t.landing cwd d with
  | error errno => rw [h_landing] at h_inner; cases h_inner
  | ok place =>
    rw [h_landing] at h_inner
    have h_step : t.follow place [name] = .ok inner := h_inner
    -- a name leads one step down, so one step less is left below it
    rw [follow_cons (find?_of_follow_cons h_step), next, if_neg (not_or.2 ⟨h_name.1, h_name.2.1⟩),
      if_neg h_name.2.2.1] at h_step
    split at h_step
    · cases h_step
    · have h_place := h place h_landing
      cases h_step
      rw [List.length_append, List.length_singleton]
      omega

section Below

variable (h_proper : t.IsProper)

include h_proper

/-- **What lies below a directory** is found by descents. -/
theorem isDescent_of_mem_below {bound : Nat} {x : String} (h_ne : d ≠ "")
    (h : x ∈ t.below cwd only bound d) : IsDescent x := by
  -- on the bound: a finding is a name in the directory, or a finding below that name
  induction bound generalizing d x with
  | zero => cases h
  | succ bound ih =>
    rw [below, List.mem_flatMap] at h
    obtain ⟨n, h_mem, h_x⟩ := h
    have h_name := isName_of_mem_namesIn h_proper h_ne (List.mem_filter.1 h_mem).1
    have h_down : joined d n = Path.join d n := joined_of_ne h_ne h_name.1
    obtain rfl | h_x := List.mem_cons.1 h_x
    · exact isDescent_name h_name
    · obtain ⟨y, hy, rfl⟩ := List.mem_map.1 h_x
      rw [h_down] at hy
      have h_descent := ih (join_ne_empty h_ne (isDescent_name h_name).isAbsolute) hy
      rw [joined_of_ne h_name.1 h_descent.ne_empty]
      exact h_descent.join h_name

/-- What lies below a directory, with a bound that is no limit. -/
theorem below_eq {bound : Nat} (h_ne : d ≠ "") (h : t.Suffices bound (t.landing cwd d)) :
    t.below cwd only bound d = ((t.namesIn cwd only d).filter (!isHidden ·)).flatMap fun n =>
      n :: (t.below cwd only (bound - 1) (Path.join d n)).map (Path.join n) := by
  cases bound with
  | zero =>
    -- as deep as this there are no names
    have h_none : t.namesIn cwd only d = [] := by
      apply List.eq_nil_iff_forall_not_mem.2
      intro n h_mem
      obtain ⟨-, ⟨place, h_landing, h_names⟩, -⟩ := (mem_namesIn h_ne).1 h_mem
      rw [names_eq_nil (by simpa using h place h_landing)] at h_names
      cases h_names
    rw [h_none]
    rfl
  | succ bound =>
    rw [below]
    refine List.flatMap_congr fun n h_mem => ?_
    have h_name := isName_of_mem_namesIn h_proper h_ne (List.mem_filter.1 h_mem).1
    have h_down : joined d n = Path.join d n := joined_of_ne h_ne h_name.1
    rw [h_down, Nat.add_sub_cancel]
    refine congrArg (n :: ·) (List.map_congr_left fun y hy => joined_of_ne h_name.1 ?_)
    exact (isDescent_of_mem_below h_proper
      (join_ne_empty h_ne (isDescent_name h_name).isAbsolute) hy).ne_empty

end Below

section Proper

variable (h_proper : t.IsProper) (h_proper' : t'.IsProper)

include h_proper h_proper'

/-- One step down: what lies below twins is the same if it is so for the names in them. -/
theorem Twin.below_step (h : Twin t t' cwd cwd' levels d d') {bound bound' : Nat}
    (h_bound : t.Suffices bound (t.landing cwd d))
    (h_bound' : t'.Suffices bound' (t'.landing cwd' d'))
    (h_down : ∀ n ∈ t.namesIn cwd only d, Same (Path.join d n) (Path.join d' n)
      (t.below cwd only (bound - 1) (Path.join d n))
      (t'.below cwd' only (bound' - 1) (Path.join d' n))) :
    Same d d' (t.below cwd only bound d) (t'.below cwd' only bound' d') := by
  -- what is too long for a name is too long for what lies beneath it
  have h_long : ∀ {u : FileTree} {dir start : String} {b : Nat}, u.IsProper → dir ≠ "" →
      ∀ n, fits d d' n = false →
        ∀ y ∈ n :: (u.below start only b dir).map (Path.join n), fits d d' y = false := by
    intro u dir start b h_u h_dir n h_fits y hy
    obtain rfl | hy := List.mem_cons.1 hy
    · exact h_fits
    · exact fits_eq_false_of_mem_map
        (fun z hz => (isDescent_of_mem_below h_u h_dir hz).isAbsolute) h_fits y hy
  have h_join : ∀ {u : FileTree} {dir start : String}, u.IsProper → dir ≠ "" →
      ∀ n ∈ u.namesIn start only dir, Path.join dir n ≠ "" := by
    intro u dir start h_u h_dir n hn
    exact join_ne_empty h_dir (isDescent_name (isName_of_mem_namesIn h_u h_dir hn)).isAbsolute
  rw [below_eq h_proper h.ne_empty h_bound, below_eq h_proper' h.ne_empty' h_bound']
  refine Same.flatMap ((h.namesIn h_proper h_proper').filter _) ?_ ?_ ?_
  · intro n hn
    exact Same.append (Same.refl d d' [n]) (h_down n (List.mem_filter.1 hn).1).map_join
  · intro n hn
    exact h_long h_proper (h_join h_proper h.ne_empty n (List.mem_filter.1 hn).1) n
  · intro n hn
    exact h_long h_proper' (h_join h_proper' h.ne_empty' n (List.mem_filter.1 hn).1) n

/-- **The same lies below twins.** -/
theorem Twin.below (h : Twin t t' cwd cwd' levels d d') {bound bound' : Nat}
    (h_bound : t.Suffices bound (t.landing cwd d))
    (h_bound' : t'.Suffices bound' (t'.landing cwd' d')) :
    Same d d' (t.below cwd only bound d) (t'.below cwd' only bound' d') := by
  -- on one of the bounds, as both trees are descended together
  induction bound generalizing bound' levels d d' with
  | zero =>
    refine h.below_step h_proper h_proper' h_bound h_bound' fun n hn => ?_
    obtain ⟨-, ⟨place, h_landing, h_names⟩, -⟩ := (FileTree.mem_namesIn h.ne_empty).1 hn
    rw [names_eq_nil (by simpa using h_bound place h_landing)] at h_names
    cases h_names
  | succ bound ih =>
    refine h.below_step h_proper h_proper' h_bound h_bound' fun n hn => ?_
    have h_name := isName_of_mem_namesIn h_proper h.ne_empty hn
    exact ih (h.join_name h_name) (h_bound.join h_name) (h_bound'.join h_name)

end Proper

/-! ### The last segment of a pattern -/

/-- The segments that a pattern has for certain: `**` may stand for no directory at all. -/
def certain (segments : List String) : List String :=
  segments.filter (· != anyDepth)

/-- What is certain of some segments is so of each. -/
theorem certain_append (segments more : List String) :
    certain (segments ++ more) = certain segments ++ certain more :=
  List.filter_append ..

/-- Without `**` all segments are certain. -/
theorem certain_eq_self {segments : List String} (h : anyDepth ∉ segments) :
    certain segments = segments :=
  List.filter_eq_self.2 fun _ hs => bne_iff_ne.2 fun h_eq => h (h_eq ▸ hs)

/-- What a segment of a pattern leads to goes as deep as the segment does. -/
theorem leads_of_mem_matchIn (h_proper : t.IsProper) (h_ne : d ≠ "") {last x : String}
    (h_last : '/' ∉ last.toList) {reached : Nat}
    (h_depth : depthAfter levels (certain [last]) = some reached)
    (h : x ∈ t.matchIn cwd only d last) : Leads levels reached x := by
  unfold matchIn at h
  -- the segment is `**`, a pattern of names, or no pattern at all
  by_cases h_any : last = anyDepth
  · subst h_any
    rw [if_pos rfl, List.mem_append] at h
    obtain rfl : levels = reached := Option.some.inj h_depth
    obtain h | h := h
    · obtain rfl : x = "" := by
        split at h
        · exact List.mem_singleton.1 h
        · cases h
      exact Path.leads_empty levels
    · have h_descent := isDescent_of_mem_below h_proper h_ne h
      exact ⟨h_descent.isAbsolute, h_descent.depthAfter levels⟩
  · rw [certain_eq_self (by simpa using Ne.symm h_any)] at h_depth
    rw [if_neg h_any] at h
    split at h
    · next h_pattern =>
      have h_name := isName_of_mem_namesIn h_proper h_ne (List.mem_filter.1 h).1
      -- a pattern is none of the segments that are no names
      have h_reached : depthAfter levels [last] = some (levels + 1) := by
        refine Path.depthAfter_name (not_or.2 ⟨?_, ?_⟩) ?_ <;> rintro rfl <;> cases h_pattern
      obtain rfl : levels + 1 = reached := Option.some.inj (h_reached.symm.trans h_depth)
      exact Path.leads_name h_name levels
    · have h_eq : x = last := by
        split at h
        · next h_empty =>
          rw [h_empty]
          split at h
          · exact List.mem_singleton.1 h
          · cases h
        · split at h
          · exact List.mem_singleton.1 h
          · cases h
      subst h_eq
      refine ⟨Path.isAbsolute_of_notMem h_last, reached, le_rfl, ?_⟩
      rwa [Path.segments_of_notMem h_last]

/-- The longest way down is a bound that is no limit, wherever one starts. -/
theorem suffices_depth (t : FileTree) (reached : Except Errno Place) : t.Suffices t.depth reached :=
  fun _ _ => Nat.le_add_right ..

/-- **A segment of a pattern leads twins to the same findings.** -/
theorem Twin.matchIn (h_proper : t.IsProper) (h_proper' : t'.IsProper)
    (h : Twin t t' cwd cwd' levels d d') {last : String} (h_last : '/' ∉ last.toList)
    {reached : Nat}
    (h_depth : depthAfter levels (certain [last]) = some reached) :
    Same d d' (t.matchIn cwd only d last) (t'.matchIn cwd' only d' last) := by
  have h_here : fits d d' "" = true → t.isDirectory cwd d = t'.isDirectory cwd' d' := by
    intro h_fits
    have h_short := isShort_of_fits rfl h_fits
    exact h.isDirectory_eq h_short.1 h_short.2
  unfold FileTree.matchIn
  by_cases h_any : last = anyDepth
  · -- the directory itself, and all that lies below it
    rw [if_pos h_any, if_pos h_any]
    refine Same.append (Same.ite fun h_fits => ?_) (h.below h_proper h_proper' ?_ ?_)
    · rw [h_here h_fits, decide_eq_false h.ne_empty, decide_eq_false h.ne_empty']
    · exact suffices_depth t _
    · exact suffices_depth t' _
  · rw [if_neg h_any, if_neg h_any]
    split
    · -- a pattern is held against the names in the directory
      exact (h.namesIn h_proper h_proper').filter _
    · split
      · exact Same.ite h_here
      · next h_ne =>
        rw [joined_of_ne h.ne_empty h_ne, joined_of_ne h.ne_empty' h_ne]
        refine Same.ite fun h_fits => ?_
        rw [certain_eq_self (by simpa using Ne.symm h_any)] at h_depth
        have h_join := h.join (Path.isAbsolute_of_notMem h_last)
          ((Path.segments_of_notMem h_last).symm ▸ h_depth)
        exact h_join.hasEntry_eq (fits_iff.1 h_fits).1 (fits_iff.1 h_fits).2

/-! ### Patterns -/

/-- A path is a pattern if a part of it is. -/
theorem isPattern_append (a b : String) :
    Wildcard.isPattern (a ++ b) = (Wildcard.isPattern a || Wildcard.isPattern b) := by
  unfold Wildcard.isPattern
  rw [String.toList_append, List.any_append]

/-- Slashes are none. -/
theorem isPattern_slashes (n : Nat) : Wildcard.isPattern (slashes n) = false := by
  unfold Wildcard.isPattern slashes
  rw [String.toList_ofList, List.any_eq_false]
  intro c hc
  rw [List.eq_of_mem_replicate hc]
  decide

/-- Slashes at the end make no pattern. -/
theorem isPattern_dropEndWhile (path : String) :
    Wildcard.isPattern (Text.dropEndWhile (· == '/') path) = Wildcard.isPattern path := by
  obtain ⟨n, h_split⟩ := Path.exists_eq_append_slashes path
  conv_rhs => rw [h_split]
  rw [isPattern_append, isPattern_slashes, Bool.or_false]

/-- How a path is spelled makes no difference to whether it is a pattern. -/
theorem isPattern_of_spells {path spelled : String} (h : Spells path spelled) :
    Wildcard.isPattern spelled = Wildcard.isPattern path := by
  obtain ⟨-, n, h_spelled⟩ := h
  rw [h_spelled, isPattern_append, isPattern_slashes, isPattern_dropEndWhile, Bool.or_false]

/-- Nor does the slash behind a directory. -/
theorem isPattern_asDirectory (path : String) :
    Wildcard.isPattern (asDirectory path) = Wildcard.isPattern path := by
  unfold asDirectory
  split
  · rfl
  · rw [isPattern_append]
    exact Bool.or_false _

/-- A pattern stays one with anything before it. -/
theorem isPattern_append_of_right {a b : String} (h : Wildcard.isPattern b = true) :
    Wildcard.isPattern (a ++ b) = true := by
  rw [isPattern_append, h, Bool.or_true]

/-- A segment that is a pattern makes one of the path. -/
theorem isPattern_of_mem_segments {path segment : String} (h_mem : segment ∈ Path.segments path)
    (h : Wildcard.isPattern segment = true) : Wildcard.isPattern path = true := by
  have h_parts : ∀ parts : List String, segment ∈ parts →
      Wildcard.isPattern ("/".intercalate parts) = true := by
    intro parts h_mem
    -- on the parts, between which only slashes stand
    induction parts with
    | nil => cases h_mem
    | cons first rest ih =>
      by_cases h_rest : rest = []
      · subst h_rest
        rwa [String.intercalate_singleton, ← List.mem_singleton.1 h_mem]
      · rw [← List.singleton_append, String.intercalate_append_of_ne_nil (by simp) h_rest,
          String.intercalate_singleton]
        obtain rfl | h_mem := List.mem_cons.1 h_mem
        · rw [isPattern_append, isPattern_append, h]
          rfl
        · exact isPattern_append_of_right (ih h_mem)
  rw [← Path.intercalate_segments path]
  exact h_parts _ h_mem

/-- A path that is no pattern has no segment `**`. -/
theorem anyDepth_notMem_segments {path : String} (h : Wildcard.isPattern path = false) :
    anyDepth ∉ Path.segments path := by
  intro h_mem
  have h_pattern : Wildcard.isPattern path = true := isPattern_of_mem_segments h_mem (by decide)
  exact Bool.noConfusion (h.symm.trans h_pattern)

/-- **A path split at its last segment**, wherever it is read from. -/
structure Splits (path dirs last : String) (n : Nat) : Prop where
  notMem : '/' ∉ last.toList
  ne_empty : dirs ≠ ""
  relative : Path.isAbsolute dirs = false
  segments : Path.segments path = Path.segments dirs ++ List.replicate n "" ++ [last]
  directory : ∀ {front}, Path.directory (front ++ path) = front ++ dirs
  fileName : ∀ {front}, Path.fileName (front ++ path) = last

/-- A relative path has one segment only, or it splits at its last one. How many slashes stand
before that segment makes no difference. -/
theorem exists_splits {path : String} (h_relative : Path.isAbsolute path = false) :
    '/' ∉ path.toList ∨ ∃ dirs last n, Splits path dirs last n := by
  obtain h_last | ⟨parent, last, h_last, rfl⟩ := Path.exists_last_segment path
  · exact .inl h_last
  · obtain ⟨n, h_parent⟩ := Path.exists_eq_append_slashes parent
    -- a path that has nothing but slashes before its last segment is absolute
    have h_ne : Text.dropEndWhile (· == '/') parent ≠ "" := by
      intro h_empty
      rw [h_parent, h_empty, String.empty_append, ← Path.slashes_succ] at h_relative
      simp [Path.isAbsolute, Text.startsWith, slashes, List.replicate_succ, List.isPrefixOf]
        at h_relative
    refine .inr ⟨_, last, n, h_last, h_ne, ?_, ?_, Path.directory_append_of_ne h_ne h_last, ?_⟩
    · rwa [h_parent, String.append_assoc, String.append_assoc,
        Path.isAbsolute_append_of_ne h_ne] at h_relative
    · rw [Path.segments_append, Path.segments_of_notMem h_last]
      conv_lhs => rw [h_parent, Path.segments_append_slashes]
    · intro front
      rw [← String.append_assoc, ← String.append_assoc, ModuleId.fileName_append h_last]

/-- How deep a pattern leads is how deep its last segment leads from where the others do. -/
theorem Splits.exists_depthAfter {path dirs last : String} {n reached : Nat}
    (h : Splits path dirs last n)
    (h_depth : depthAfter levels (certain (Path.segments path)) = some reached) :
    ∃ mid, depthAfter levels (certain (Path.segments dirs)) = some mid ∧
      depthAfter mid (certain [last]) = some reached := by
  have h_slashes : certain (List.replicate n "") = List.replicate n "" :=
    certain_eq_self fun h_mem => absurd (List.eq_of_mem_replicate h_mem) (by decide)
  rw [h.segments, certain_append, certain_append, h_slashes, Path.depthAfter_append,
    Path.depthAfter_append] at h_depth
  cases h_mid : depthAfter levels (certain (Path.segments dirs)) with
  | none => rw [h_mid] at h_depth; cases h_depth
  | some mid =>
    rw [h_mid, Option.bind_some, Path.depthAfter_replicate_empty, Option.bind_some] at h_depth
    exact ⟨mid, rfl, h_depth⟩

/-- What one step of a search comes to. -/
theorem searchWithin_succ {bound : Nat} {pattern : String} (h : Wildcard.isPattern pattern = true)
    (h_ne : Path.directory pattern ≠ "") :
    t.searchWithin cwd (bound + 1) only pattern =
      (if Wildcard.isPattern (Path.directory pattern) then
          t.searchWithin cwd bound true (Path.directory pattern)
        else [Path.directory pattern]).flatMap fun found =>
          (t.matchIn cwd only found (Path.fileName pattern)).map (Path.join found) := by
  rw [searchWithin]
  simp only [h, Bool.not_true, Bool.false_eq_true, if_false, if_neg h_ne]

/-- **How findings spell the directory that a pattern is read from.** The slashes that it ends in
are left out if the search goes through the names in it. -/
def spelling (base pattern : String) : String :=
  if Wildcard.isPattern ((Path.segments pattern).headD "") then Path.directory (asDirectory base)
  else base

/-- Either spelling is one of the directory. -/
theorem spells_spelling {base : String} (h_ne : base ≠ "") (pattern : String) :
    Spells base (spelling base pattern) := by
  unfold spelling
  split
  · exact Path.spells_directory h_ne
  · exact Path.spells_self h_ne

/-- The first segment is in the directories before the last one. -/
theorem Splits.spelling_eq {path dirs last base : String} {n : Nat} (h : Splits path dirs last n) :
    spelling base path = spelling base dirs := by
  obtain ⟨first, rest, h_dirs⟩ : ∃ first rest, Path.segments dirs = first :: rest :=
    List.exists_cons_of_ne_nil (Text.fields_ne_nil '/' dirs)
  unfold spelling
  rw [h.segments, h_dirs]
  rfl

/-- Directories that are no pattern are not searched, so the base is spelled as it was given. -/
theorem spelling_of_isPattern_eq_false {base dirs : String}
    (h : Wildcard.isPattern dirs = false) : spelling base dirs = base := by
  obtain ⟨first, rest, h_dirs⟩ : ∃ first rest, Path.segments dirs = first :: rest :=
    List.exists_cons_of_ne_nil (Text.fields_ne_nil '/' dirs)
  have h_first : first ∈ Path.segments dirs := by simp [h_dirs]
  refine if_neg fun h_pattern => ?_
  rw [h_dirs] at h_pattern
  exact Bool.noConfusion (h.symm.trans (isPattern_of_mem_segments h_first h_pattern))

/-- A pattern of one segment has the search go through the names in the base. -/
theorem spelling_of_notMem {base pattern : String} (h_last : '/' ∉ pattern.toList)
    (h : Wildcard.isPattern pattern = true) :
    spelling base pattern = Path.directory (asDirectory base) := by
  refine if_pos ?_
  rwa [Path.segments_of_notMem h_last]

/-- One step of a search for a pattern of a single segment. -/
theorem searchWithin_eq_of_notMem {base pattern : String} {bound : Nat} (h_ne : base ≠ "")
    (h_plain : Wildcard.isPattern base = false) (h_pattern : Wildcard.isPattern pattern = true)
    (h_last : '/' ∉ pattern.toList) :
    t.searchWithin cwd (bound + 1) only (asDirectory base ++ pattern)
      = (t.matchIn cwd only (spelling base pattern) pattern).map
          (Path.join (spelling base pattern)) := by
  obtain ⟨front, h_front⟩ := Path.exists_asDirectory_eq_append_slash h_ne
  have h_directory : Path.directory (asDirectory base ++ pattern) = spelling base pattern := by
    rw [Path.directory_asDirectory_append h_ne h_last, spelling_of_notMem h_last h_pattern]
  have h_name : Path.fileName (asDirectory base ++ pattern) = pattern := by
    rw [h_front, ModuleId.fileName_append h_last]
  have h_spells := spells_spelling h_ne pattern
  rw [searchWithin_succ (isPattern_append_of_right h_pattern) (h_directory ▸ h_spells.1),
    h_directory, h_name, isPattern_of_spells h_spells, h_plain, if_neg Bool.false_ne_true,
    List.flatMap_singleton]

/-- One step of a search for a pattern of several segments. -/
theorem Splits.searchWithin_eq {base pattern dirs last : String} {n bound : Nat}
    (h : Splits pattern dirs last n) (h_plain : Wildcard.isPattern base = false)
    (h_pattern : Wildcard.isPattern pattern = true) :
    t.searchWithin cwd (bound + 1) only (asDirectory base ++ pattern)
      = (if Wildcard.isPattern dirs then t.searchWithin cwd bound true (asDirectory base ++ dirs)
          else [asDirectory base ++ dirs]).flatMap fun found =>
            (t.matchIn cwd only found last).map (Path.join found) := by
  have h_join : Path.directory (asDirectory base ++ pattern) ≠ "" := by
    rw [h.directory]
    exact fun h_empty => h.ne_empty (String.append_eq_empty_iff.1 h_empty).2
  rw [searchWithin_succ (isPattern_append_of_right h_pattern) h_join, h.directory, h.fileName,
    isPattern_append, isPattern_asDirectory, h_plain, Bool.false_or]

/-- **What two searches find from two directories**: the same, seen from each, and nothing that
climbs too high. -/
structure Finds (levels reached : Nat) (e e' : String) (found found' xs xs' : List String) :
    Prop where
  eq : found = xs.map (Path.join e)
  eq' : found' = xs'.map (Path.join e')
  same : Same e e' xs xs'
  leads : ∀ x ∈ xs, Leads levels reached x
  leads' : ∀ x ∈ xs', Leads levels reached x

section Searches

variable (h_proper : t.IsProper) (h_proper' : t'.IsProper)

include h_proper h_proper'

omit h_proper' in
/-- What a segment leads to from findings goes as deep as the segment does from there. -/
theorem leads_of_mem_flatMap_matchIn {e last z : String} {reached further : Nat} (h_ne : e ≠ "")
    (h_last : '/' ∉ last.toList) (h_depth : depthAfter reached (certain [last]) = some further)
    (h_leads : ∀ x ∈ xs, Leads levels reached x)
    (h : z ∈ xs.flatMap fun x => (t.matchIn cwd only (Path.join e x) last).map (Path.join x)) :
    Leads levels further z := by
  obtain ⟨x, hx, hz⟩ := List.mem_flatMap.1 h
  obtain ⟨y, hy, rfl⟩ := List.mem_map.1 hz
  have h_x := h_leads x hx
  exact h_x.join (leads_of_mem_matchIn h_proper (join_ne_empty h_ne h_x.1) h_last h_depth hy)

/-- One segment more: the findings go on to what the segment leads to from there. -/
theorem Finds.exists_flatMap_matchIn {e e' last : String} {found found' : List String}
    {reached further : Nat} (h : Finds levels reached e e' found found' xs xs')
    (h_twin : Twin t t' cwd cwd' levels e e') (h_last : '/' ∉ last.toList)
    (h_depth : depthAfter reached (certain [last]) = some further) :
    ∃ ys ys', Finds levels further e e'
      (found.flatMap fun p => (t.matchIn cwd only p last).map (Path.join p))
      (found'.flatMap fun p => (t'.matchIn cwd' only p last).map (Path.join p)) ys ys' := by
  -- what a segment leads to from a finding, seen from above
  have h_seen : ∀ {u : FileTree} {start dir : String} (zs : List String),
      ((zs.map (Path.join dir)).flatMap fun p => (u.matchIn start only p last).map (Path.join p))
        = (zs.flatMap fun x => (u.matchIn start only (Path.join dir x) last).map (Path.join x)).map
            (Path.join dir) := by
    intro u start dir zs
    rw [List.flatMap_map, List.map_flatMap]
    refine List.flatMap_congr fun x _ => ?_
    rw [List.map_map]
    exact List.map_congr_left fun y _ => (Path.join_assoc dir x y).symm
  obtain ⟨rfl, rfl, h_same, h_leads, h_leads'⟩ := h
  -- each finding leads to twins again, from where the next segment is looked for
  have h_next : ∀ {x}, Leads levels reached x →
      Twin t t' cwd cwd' reached (Path.join e x) (Path.join e' x) := h_twin.join_of_leads
  refine ⟨_, _, h_seen xs, h_seen xs', Same.flatMap h_same ?_ ?_ ?_, fun z hz => ?_, fun z hz => ?_⟩
  · intro x hx
    exact ((h_next (h_leads x hx)).matchIn h_proper h_proper' h_last h_depth).map_join
  · intro x hx
    exact fits_eq_false_of_mem_map fun y hy =>
      (leads_of_mem_matchIn h_proper (h_next (h_leads x hx)).ne_empty h_last h_depth hy).1
  · intro x hx
    exact fits_eq_false_of_mem_map fun y hy =>
      (leads_of_mem_matchIn h_proper' (h_next (h_leads' x hx)).ne_empty' h_last h_depth hy).1
  · exact leads_of_mem_flatMap_matchIn h_proper h_twin.ne_empty h_last h_depth h_leads hz
  · exact leads_of_mem_flatMap_matchIn h_proper' h_twin.ne_empty' h_last h_depth h_leads' hz

variable {base base' : String} (h_ne : base ≠ "") (h_ne' : base' ≠ "")
  (h_plain : Wildcard.isPattern base = false) (h_plain' : Wildcard.isPattern base' = false)

include h_ne h_ne' h_plain h_plain'

/-- A pattern of a single segment is looked for in the directory itself. -/
theorem exists_searchWithin_finds_of_notMem {pattern : String} {bound bound' reached : Nat}
    (h_twin : Twin t t' cwd cwd' levels (spelling base pattern) (spelling base' pattern))
    (h_pattern : Wildcard.isPattern pattern = true) (h_last : '/' ∉ pattern.toList)
    (h_depth : depthAfter levels (certain [pattern]) = some reached) :
    ∃ xs xs', Finds levels reached (spelling base pattern) (spelling base' pattern)
      (t.searchWithin cwd (bound + 1) only (asDirectory base ++ pattern))
      (t'.searchWithin cwd' (bound' + 1) only (asDirectory base' ++ pattern)) xs xs' := by
  exact ⟨_, _, searchWithin_eq_of_notMem h_ne h_plain h_pattern h_last,
    searchWithin_eq_of_notMem h_ne' h_plain' h_pattern h_last,
    h_twin.matchIn h_proper h_proper' h_last h_depth,
    fun _ => leads_of_mem_matchIn h_proper h_twin.ne_empty h_last h_depth,
    fun _ => leads_of_mem_matchIn h_proper' h_twin.ne_empty' h_last h_depth⟩

/-- **A pattern read from two directories finds the same from both**, if their own paths are no
patterns. The induction is on the segments of the pattern, from the end. -/
theorem exists_searchWithin_finds {pattern : String} {bound bound' reached : Nat}
    (h_twin : Twin t t' cwd cwd' levels (spelling base pattern) (spelling base' pattern))
    (h_pattern : Wildcard.isPattern pattern = true) (h_relative : Path.isAbsolute pattern = false)
    (h_bound : (Path.segments pattern).length ≤ bound)
    (h_bound' : (Path.segments pattern).length ≤ bound')
    (h_depth : depthAfter levels (certain (Path.segments pattern)) = some reached) :
    ∃ xs xs', Finds levels reached (spelling base pattern) (spelling base' pattern)
      (t.searchWithin cwd bound only (asDirectory base ++ pattern))
      (t'.searchWithin cwd' bound' only (asDirectory base' ++ pattern)) xs xs' := by
  have h_positive : 0 < (Path.segments pattern).length :=
    List.length_pos_of_ne_nil (Text.fields_ne_nil '/' pattern)
  induction bound generalizing bound' pattern reached only with
  | zero => omega
  | succ bound ih =>
    obtain ⟨bound', rfl⟩ := Nat.exists_eq_succ_of_ne_zero (show bound' ≠ 0 by omega)
    obtain h_last | ⟨dirs, last, n, h⟩ := exists_splits h_relative
    · rw [Path.segments_of_notMem h_last] at h_depth
      exact exists_searchWithin_finds_of_notMem h_proper h_proper' h_ne h_ne' h_plain h_plain'
        h_twin h_pattern h_last h_depth
    · -- the last segment is looked for in all that the directories before it lead to
      obtain ⟨mid, h_mid, h_further⟩ := h.exists_depthAfter h_depth
      have h_length : (Path.segments dirs).length + 1 ≤ (Path.segments pattern).length := by
        rw [h.segments]
        simp
      rw [h.spelling_eq, h.spelling_eq] at h_twin ⊢
      rw [h.searchWithin_eq h_plain h_pattern, h.searchWithin_eq h_plain' h_pattern]
      cases h_more : Wildcard.isPattern dirs with
      | true =>
        obtain ⟨xs, xs', h_finds⟩ := ih h_twin h_more h.relative (Nat.le_of_succ_le_succ
          (h_length.trans h_bound)) (Nat.le_of_succ_le_succ (h_length.trans h_bound')) h_mid
          (List.length_pos_of_ne_nil (Text.fields_ne_nil '/' dirs))
        exact h_finds.exists_flatMap_matchIn h_proper h_proper' h_twin h.notMem h_further
      | false =>
        -- directories that are no pattern are read as they are
        rw [certain_eq_self (anyDepth_notMem_segments h_more)] at h_mid
        rw [spelling_of_isPattern_eq_false h_more,
          spelling_of_isPattern_eq_false h_more] at h_twin ⊢
        have h_leads : ∀ x ∈ [dirs], Leads levels mid x :=
          List.forall_mem_singleton.2 ⟨h.relative, mid, le_rfl, h_mid⟩
        have h_read : ∀ dir, [asDirectory dir ++ dirs] = [dirs].map (Path.join dir) := by
          intro dir
          rw [List.map_singleton, Path.join_eq_asDirectory_append h.relative]
        have h_finds : Finds levels mid base base' [asDirectory base ++ dirs]
            [asDirectory base' ++ dirs] [dirs] [dirs] :=
          ⟨h_read base, h_read base', Same.refl .., h_leads, h_leads⟩
        exact h_finds.exists_flatMap_matchIn h_proper h_proper' h_twin h.notMem h_further

/-- **A search finds the same from twins**: the bound that it comes with is enough for the segments
of the pattern. -/
theorem exists_search_finds {pattern : String} {reached : Nat}
    (h_twin : Twin t t' cwd cwd' levels (spelling base pattern) (spelling base' pattern))
    (h_pattern : Wildcard.isPattern pattern = true) (h_relative : Path.isAbsolute pattern = false)
    (h_depth : depthAfter levels (certain (Path.segments pattern)) = some reached) :
    ∃ xs xs', Finds levels reached (spelling base pattern) (spelling base' pattern)
      (t.search cwd (Path.join base pattern)) (t'.search cwd' (Path.join base' pattern))
      xs xs' := by
  have h_bound := Path.length_segments_le_join base h_relative
  have h_bound' := Path.length_segments_le_join base' h_relative
  rw [Path.join_eq_asDirectory_append h_relative] at h_bound h_bound'
  rw [search, search, Path.join_eq_asDirectory_append h_relative,
    Path.join_eq_asDirectory_append h_relative]
  exact exists_searchWithin_finds h_proper h_proper' h_ne h_ne' h_plain h_plain' h_twin h_pattern
    h_relative h_bound h_bound' h_depth

end Searches

end DeclarationBundle.FileTree
