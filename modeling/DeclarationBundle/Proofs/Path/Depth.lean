import DeclarationBundle.Proofs.Path.Trail

/-!
# How deep segments lead

Followed from some steps below a directory, segments lead to a certain depth below it, unless they
lead above it on the way (`depthAfter`). To start deeper is to end at least as deep
(`exists_depthAfter_of_le`).

The segments of a joined path are those of both parts, the slash between them aside
(`exists_segments_join`), so that a joined path leads as deep as one part after the other
(`depthAfter_join`). A relative path `Leads` from one depth to another one, or deeper.

Two paths that differ in the slashes at the end only spell the same (`Spells`). The directory that a
segment behind a path stands in is a spelling of the path (`spells_directory`).

A joined path has a null character in it if one of its parts has (`hasNull_join`): the slash that
comes between them is none, and so are the slashes in which spellings differ (`Spells.hasNull_eq`).
-/

namespace DeclarationBundle.Path

/-- **The depth that some segments lead to**, from `depth` steps below a directory. There is none if
they lead above it on the way. -/
def depthAfter : Nat → List String → Option Nat
  | depth, [] => some depth
  | depth, segment :: segments =>
    if segment = "" ∨ segment = "." then depthAfter depth segments
    else if segment = ".." then
      match depth with
      | 0 => none
      | depth + 1 => depthAfter depth segments
    else depthAfter (depth + 1) segments

section

variable {depth : Nat} {segment : String} {segments : List String}

/-- A segment that stays where it is does not change the depth. -/
theorem depthAfter_skip (h : segment = "" ∨ segment = ".") :
    depthAfter depth (segment :: segments) = depthAfter depth segments := by
  conv_lhs => unfold depthAfter
  rw [if_pos h]

/-- A name leads one step down. -/
theorem depthAfter_name (h : ¬ (segment = "" ∨ segment = ".")) (h_up : segment ≠ "..") :
    depthAfter depth (segment :: segments) = depthAfter (depth + 1) segments := by
  conv_lhs => unfold depthAfter
  rw [if_neg h, if_neg h_up]

/-- There is a depth exactly if the segments stay within the directory. -/
theorem isSome_depthAfter (depth : Nat) (segments : List String) :
    (depthAfter depth segments).isSome = staysWithin depth segments := by
  -- both follow the segments one by one, from any depth
  induction segments generalizing depth with
  | nil => rfl
  | cons segment segments ih =>
    by_cases h_skip : segment = "" ∨ segment = "."
    · unfold staysWithin
      rw [depthAfter_skip h_skip, if_pos h_skip, ih]
    · by_cases h_up : segment = ".."
      · subst h_up
        cases depth with
        -- a step up from depth 0 leads above the directory, so there is no depth
        | zero => rfl
        | succ depth => exact ih depth
      · unfold staysWithin
        rw [depthAfter_name h_skip h_up, if_neg h_skip, if_neg h_up, ih]

/-- Some segments after others lead on from the depth that these have reached, if they have reached
one. -/
theorem depthAfter_append (depth : Nat) (segments more : List String) :
    depthAfter depth (segments ++ more)
      = (depthAfter depth segments).bind fun reached => depthAfter reached more := by
  induction segments generalizing depth with
  | nil => rfl
  | cons segment segments ih =>
    rw [List.cons_append]
    by_cases h_skip : segment = "" ∨ segment = "."
    · rw [depthAfter_skip h_skip, depthAfter_skip h_skip, ih]
    · by_cases h_up : segment = ".."
      · subst h_up
        cases depth with
        | zero => rfl
        | succ depth => exact ih depth
      · rw [depthAfter_name h_skip h_up, depthAfter_name h_skip h_up, ih]

/-- Empty segments do not change the depth, however many there are. -/
theorem depthAfter_replicate_empty (depth n : Nat) :
    depthAfter depth (List.replicate n "") = some depth := by
  induction n with
  | zero => rfl
  | succ n ih => rw [List.replicate_succ, depthAfter_skip (.inl rfl), ih]

/-- Each name leads one step down. -/
theorem depthAfter_names {names : List String} (h : ∀ n ∈ names, IsName n) (depth : Nat) :
    depthAfter depth names = some (depth + names.length) := by
  induction names generalizing depth with
  | nil => rfl
  | cons n names ih =>
    obtain ⟨⟨h_empty, h_dot, h_up, -⟩, h_names⟩ := List.forall_mem_cons.1 h
    rw [depthAfter_name (not_or.2 ⟨h_empty, h_dot⟩) h_up, ih h_names, List.length_cons,
      Nat.add_right_comm, Nat.add_assoc]

/-- **To start deeper is to end at least as deep.** -/
theorem exists_depthAfter_of_le {deeper reached : Nat} (h_le : depth ≤ deeper)
    (h : depthAfter depth segments = some reached) :
    ∃ r, reached ≤ r ∧ depthAfter deeper segments = some r := by
  induction segments generalizing depth deeper with
  | nil =>
    cases h
    exact ⟨deeper, h_le, rfl⟩
  | cons segment segments ih =>
    by_cases h_skip : segment = "" ∨ segment = "."
    · rw [depthAfter_skip h_skip] at h ⊢
      exact ih h_le h
    · by_cases h_up : segment = ".."
      · subst h_up
        cases depth with
        | zero => cases h
        | succ depth =>
          -- who is deeper can take the step up as well
          obtain ⟨d, rfl⟩ := Nat.exists_eq_succ_of_ne_zero (Nat.ne_zero_of_lt h_le)
          exact ih (Nat.le_of_succ_le_succ h_le) h
      · rw [depthAfter_name h_skip h_up] at h ⊢
        exact ih (Nat.succ_le_succ h_le) h

end

/-! ### Joined paths -/

/-- Each slash at the end of a path makes one empty segment. -/
theorem segments_append_slashes (path : String) (n : Nat) :
    segments (path ++ slashes n) = segments path ++ List.replicate n "" := by
  induction n with
  | zero =>
    show segments (path ++ "") = segments path ++ []
    rw [String.append_empty, List.append_nil]
  | succ n ih =>
    rw [slashes_succ, ← String.append_assoc, segments_append_slash, ih, List.replicate_succ',
      List.append_assoc]

/-- **The segments of a joined path.** A slash that the base ends in is one empty segment of it. -/
theorem exists_segments_join (base : String) {more : String} (h : isAbsolute more = false) :
    ∃ front, segments (join base more) = front ++ segments more ∧
      (segments base = front ∨ segments base = front ++ [""]) := by
  rw [join_eq_asDirectory_append h]
  unfold asDirectory
  split
  · next h_end =>
    rw [Bool.or_eq_true, decide_eq_true_iff] at h_end
    rcases h_end with rfl | h_end
    · exact ⟨[], by rw [String.empty_append, List.nil_append], .inr rfl⟩
    · obtain ⟨front, rfl⟩ := Text.endsWith_iff.1 h_end
      exact ⟨segments front, segments_append front more, .inr (segments_append_slash front)⟩
  · exact ⟨segments base, segments_append base more, .inl rfl⟩

/-- A joined path has at least the segments of what was joined. -/
theorem length_segments_le_join (base : String) {more : String} (h : isAbsolute more = false) :
    (segments more).length ≤ (segments (join base more)).length := by
  obtain ⟨front, h_segments, -⟩ := exists_segments_join base h
  rw [h_segments, List.length_append]
  exact Nat.le_add_left ..

/-- A joined path leads as deep as its second part from where the first has led. -/
theorem depthAfter_join (depth : Nat) (base : String) {more : String}
    (h : isAbsolute more = false) :
    depthAfter depth (segments (join base more))
      = (depthAfter depth (segments base)).bind fun reached =>
          depthAfter reached (segments more) := by
  obtain ⟨front, h_segments, h_base | h_base⟩ := exists_segments_join base h
  · rw [h_segments, h_base, depthAfter_append]
  · -- the slash at the end of the base is a segment that leads nowhere
    have h_slash : depthAfter depth (front ++ [""]) = depthAfter depth front := by
      rw [depthAfter_append]
      cases depthAfter depth front <;> rfl
    rw [h_segments, h_base, h_slash, depthAfter_append]

/-- **A relative path that leads at least `reached` steps below a directory** from `depth` steps
below it, and never above it on the way. -/
def Leads (depth reached : Nat) (path : String) : Prop :=
  isAbsolute path = false ∧ ∃ r, reached ≤ r ∧ depthAfter depth (segments path) = some r

/-- The empty path stays where it is. -/
theorem leads_empty (depth : Nat) : Leads depth depth "" :=
  ⟨rfl, depth, le_rfl, rfl⟩

/-- A name leads one step down. -/
theorem leads_name {name : String} (h : IsName name) (depth : Nat) :
    Leads depth (depth + 1) name := by
  refine ⟨isAbsolute_of_notMem h.2.2.2, depth + 1, le_rfl, ?_⟩
  rw [segments_of_notMem h.2.2.2]
  exact depthAfter_names (List.forall_mem_singleton.2 h) depth

/-- Where one path leads another can go on from. It may find itself deeper than it asks for, but
that does no harm. -/
theorem Leads.join {depth reached further : Nat} {path more : String} (h : Leads depth reached path)
    (h_more : Leads reached further more) : Leads depth further (join path more) := by
  obtain ⟨h_relative, r, h_le, h_depth⟩ := h
  obtain ⟨h_relative', r', h_le', h_depth'⟩ := h_more
  -- the second path starts where the first has led, which may be deeper than `reached`
  obtain ⟨last, h_last, h_further⟩ := exists_depthAfter_of_le h_le h_depth'
  refine ⟨?_, last, h_le'.trans h_last, ?_⟩
  · rwa [isAbsolute_eq_of_root_eq (root_join h_relative')]
  · rw [depthAfter_join depth path h_relative', h_depth]
    exact h_further

/-! ### Slashes at the end -/

/-- Slashes behind a path are trimmed together with its own. -/
theorem dropEndWhile_append_slashes (path : String) (n : Nat) :
    Text.dropEndWhile (· == '/') (path ++ slashes n) = Text.dropEndWhile (· == '/') path := by
  have h_all : ∀ c ∈ List.replicate n '/', (c == '/') = true := by
    intro c hc
    rw [List.eq_of_mem_replicate hc]
    rfl
  apply String.toList_inj.1
  rw [Text.toList_dropEndWhile, Text.toList_dropEndWhile, String.toList_append, slashes,
    String.toList_ofList, List.reverse_append, List.reverse_replicate,
    List.dropWhile_append_of_pos h_all]

/-- **The same path but for the slashes at the end.** -/
def Spells (path spelled : String) : Prop :=
  spelled ≠ "" ∧ ∃ n, spelled = Text.dropEndWhile (· == '/') path ++ slashes n

/-- A path spells itself. -/
theorem spells_self {path : String} (h : path ≠ "") : Spells path path :=
  ⟨h, exists_eq_append_slashes path⟩

/-- A path that has been trimmed has nothing left to be trimmed. -/
theorem dropEndWhile_dropEndWhile (path : String) :
    Text.dropEndWhile (· == '/') (Text.dropEndWhile (· == '/') path)
      = Text.dropEndWhile (· == '/') path := by
  obtain ⟨n, h_split⟩ := exists_eq_append_slashes path
  conv_rhs => rw [h_split]
  exact (dropEndWhile_append_slashes _ n).symm

/-! ### Null characters -/

/-- A null character stands in one of the parts of a path, as it is a single character. -/
theorem hasNull_append (path more : String) :
    hasNull (path ++ more) = (hasNull path || hasNull more) := by
  unfold hasNull
  rw [String.toList_append, Bool.eq_iff_iff, Bool.or_eq_true]
  simp only [List.contains_iff_mem, List.mem_append]

/-- There is none among slashes. -/
theorem hasNull_slashes (n : Nat) : hasNull (slashes n) = false := by
  unfold hasNull slashes
  rw [String.toList_ofList, Bool.eq_false_iff, Ne, List.contains_iff_mem]
  exact fun h => absurd (List.eq_of_mem_replicate h) (by decide)

/-- To join paths brings no null character in and drops none, if the second path is relative. An
absolute one would replace the first. -/
theorem hasNull_join (base : String) {more : String} (h : isAbsolute more = false) :
    hasNull (join base more) = (hasNull base || hasNull more) := by
  have h_directory : hasNull (asDirectory base) = hasNull base := by
    unfold asDirectory
    split
    · rfl
    · exact (hasNull_append base "/").trans (Bool.or_false _)
  rw [join_eq_asDirectory_append h, hasNull_append, h_directory]

/-- Two spellings of a path have a null character in them, or neither has. -/
theorem Spells.hasNull_eq {path spelled : String} (h : Spells path spelled) :
    hasNull spelled = hasNull path := by
  obtain ⟨-, n, rfl⟩ := h
  obtain ⟨m, h_split⟩ := exists_eq_append_slashes path
  conv_rhs => rw [h_split]
  rw [hasNull_append, hasNull_append, hasNull_slashes, hasNull_slashes]

/-! ### Directories of segments -/

/-- What a relative path is appended to ends in a slash. -/
theorem Spells.exists_asDirectory_eq {path spelled : String} (h : Spells path spelled) :
    ∃ n, asDirectory spelled = Text.dropEndWhile (· == '/') path ++ slashes (n + 1) := by
  obtain ⟨h_ne, n, h_split⟩ := h
  cases n with
  | zero =>
    have h_strip : spelled = Text.dropEndWhile (· == '/') path := by
      rw [h_split]
      exact String.append_empty
    -- without slashes at its end it ends in a name, so one is put in
    have h_ends : EndsInName spelled := by
      rw [h_strip]
      exact endsInName_dropEndWhile (h_strip ▸ h_ne)
    refine ⟨0, ?_⟩
    rw [← h_strip]
    exact if_neg (by simp [h_ne, h_ends.endsWith_slash])
  | succ n =>
    refine ⟨n, ?_⟩
    -- there is one already, and none is put in
    have h_end : Text.endsWith spelled "/" = true :=
      Text.endsWith_iff.2 ⟨_, by rw [h_split, slashes_succ, String.append_assoc]⟩
    rw [← h_split]
    exact if_pos (by simp [h_end])

/-- What a relative path is appended to ends in a slash, unless it is empty. -/
theorem exists_asDirectory_eq_append_slash {path : String} (h : path ≠ "") :
    ∃ front, asDirectory path = front ++ "/" := by
  obtain ⟨n, h_directory⟩ := (spells_self h).exists_asDirectory_eq
  exact ⟨_, by rw [h_directory, slashes_succ, String.append_assoc]⟩

/-- Which segment it is makes no difference to the directory that it stands in. -/
theorem directory_asDirectory_append {path last : String} (h : path ≠ "")
    (h_last : '/' ∉ last.toList) :
    directory (asDirectory path ++ last) = directory (asDirectory path) := by
  obtain ⟨front, h_front⟩ := exists_asDirectory_eq_append_slash h
  have h_none : '/' ∉ ("" : String).toList := by simp
  have h_empty := @dropEndWhile_append_slash front "" h_none
  rw [String.append_empty] at h_empty
  unfold directory
  rw [h_front, dropEndWhile_append_slash h_last, h_empty]

/-- **The directory of a segment behind a path** is that path. -/
theorem spells_directory {path : String} (h : path ≠ "") :
    Spells path (directory (asDirectory path)) := by
  obtain ⟨n, h_directory⟩ := (spells_self h).exists_asDirectory_eq
  have h_strip : Text.dropEndWhile (· == '/') (asDirectory path)
      = Text.dropEndWhile (· == '/') path := by
    rw [h_directory, dropEndWhile_append_slashes, dropEndWhile_dropEndWhile]
  obtain ⟨front, h_front⟩ := exists_asDirectory_eq_append_slash h
  have h_none : '/' ∉ ("" : String).toList := by simp
  have h_head := @dropEndWhile_append_slash front "" h_none
  rw [String.append_empty, ← h_front] at h_head
  unfold directory
  simp only [h_head, h_strip]
  split
  · -- nothing but slashes: the directory keeps all of them
    refine ⟨?_, n + 1, h_directory⟩
    rw [h_front]
    simp
  · next h_ne => exact ⟨h_ne, 0, String.append_empty.symm⟩

/-- The directory of a segment further down keeps what stands before it. -/
theorem directory_append_of_ne {front parent last : String}
    (h : Text.dropEndWhile (· == '/') parent ≠ "") (h_last : '/' ∉ last.toList) :
    directory (front ++ (parent ++ "/" ++ last))
      = front ++ Text.dropEndWhile (· == '/') parent := by
  obtain ⟨n, h_split⟩ := exists_eq_append_slashes parent
  have h_ends := (endsInName_dropEndWhile h).append front
  have h_strip : Text.dropEndWhile (· == '/') (front ++ parent ++ "/")
      = front ++ Text.dropEndWhile (· == '/') parent := by
    conv_lhs => rw [h_split]
    rw [String.append_assoc, String.append_assoc, ← slashes_succ, ← String.append_assoc,
      dropEndWhile_append_slashes, h_ends.dropEndWhile_slash]
  unfold directory
  rw [← String.append_assoc, ← String.append_assoc, dropEndWhile_append_slash h_last]
  simp only [h_strip]
  rw [if_neg h_ends.ne_empty]

end DeclarationBundle.Path
