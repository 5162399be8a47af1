import Mathlib
import DeclarationBundle.Path.Basic

/-!
# Normal forms of paths

A path is read through its segments. Those that resolving leaves in an absolute path are names
(`IsName`), and an absolute path in normal form is its names below the root (`rooted`):

* `foldl_push_join`: to resolve a joined path is to resolve the directory and to go on from there;
* `foldl_push_climb`: segments that are followed from below a directory do the same to every path
  that leads to it, rooted or not, up to the levels that they climb out of it; if they never do,
  they leave the path alone (`foldl_push_append`, `foldl_push_eq_walk`);
* `normalise_rooted` and `exists_eq_rooted`: the absolute paths in normal form are those of the form
  `rooted names`, and the names are determined by the path (`rooted_inj`).

`IsBelow` is the place of a file strictly below a directory. On paths in normal form it compares
names (`isBelow_rooted_iff`), and so does `Path.isUnder` (`isUnder_rooted_iff`), which is how the
library decides whether a file belongs to a project.
-/

namespace DeclarationBundle.Path

/-- A segment that leads down. -/
def IsName (segment : String) : Prop :=
  segment ≠ "" ∧ segment ≠ "." ∧ segment ≠ ".." ∧ '/' ∉ segment.toList

instance : DecidablePred IsName := fun segment =>
  inferInstanceAs (Decidable (segment ≠ "" ∧ segment ≠ "." ∧ segment ≠ ".." ∧ '/' ∉ segment.toList))

/-- The absolute path of some names. -/
def rooted (names : List String) : String :=
  "/" ++ "/".intercalate names

/-- **Absolute and in normal form**, with a single slash at the beginning. -/
def IsRooted (path : String) : Prop :=
  root path = "/" ∧ normalise path = path

/-! ### Resolving segments -/

section Push

variable {isRooted : Bool} {done : List String} {segment : String}

/-- An empty segment, from a slash too many, and one that stays where it is change nothing. -/
theorem push_skip (h : segment = "" ∨ segment = ".") : push isRooted done segment = done := by
  unfold push
  rw [if_pos h]

/-- A name is one step further down. -/
theorem push_name (h : IsName segment) : push isRooted done segment = segment :: done := by
  obtain ⟨h_empty, h_dot, h_up, -⟩ := h
  unfold push
  rw [if_neg (by simp [h_empty, h_dot]), if_neg h_up]

/-- A step up takes back the last step, unless that leads up itself. -/
theorem push_up {last : String} (h : last ≠ "..") : push isRooted (last :: done) ".." = done := by
  unfold push
  rw [if_neg (by decide), if_pos rfl]
  exact if_neg h

end Push

/-- Names lead straight down, one after the other. -/
theorem foldl_push_names {isRooted : Bool} {names : List String} (h : ∀ n ∈ names, IsName n)
    (done : List String) : names.foldl (push isRooted) done = names.reverse ++ done := by
  induction names generalizing done with
  | nil => rfl
  | cons n names ih =>
    rw [List.foldl_cons, push_name (h n (List.mem_cons_self ..)),
      ih (fun m hm => h m (List.mem_cons_of_mem _ hm)), List.reverse_cons, List.append_assoc]
    rfl

section Trail

variable {isRooted : Bool} {done : List String}

/-- **What trails look like.** No segment is empty or stays where it is, none of an absolute path
leads up, and what a step up stands on are steps up. -/
structure IsTrail (isRooted : Bool) (done : List String) : Prop where
  segment : ∀ s ∈ done, s ≠ "" ∧ s ≠ "." ∧ '/' ∉ s.toList
  rooted : isRooted = true → ".." ∉ done
  ups : done.Pairwise fun above below => above = ".." → below = ".."

/-- At its beginning a path has come nowhere. -/
theorem isTrail_nil : IsTrail isRooted [] :=
  ⟨by simp, by simp, List.Pairwise.nil⟩

/-- What is left of a trail when its last step is taken back is a trail. -/
theorem IsTrail.tail {s : String} (h : IsTrail isRooted (s :: done)) : IsTrail isRooted done :=
  ⟨fun t ht => h.segment t (List.mem_cons_of_mem _ ht),
    fun h_rooted ht => h.rooted h_rooted (List.mem_cons_of_mem _ ht),
    (List.pairwise_cons.1 h.ups).2⟩

/-- A step more makes a trail of a trail, whichever way it leads. Only a step up needs a look at
what it stands on: it takes back a name, it adds to steps up, and it is lost at the root. -/
theorem IsTrail.push (h : IsTrail isRooted done) {segment : String}
    (h_segment : '/' ∉ segment.toList) : IsTrail isRooted (push isRooted done segment) := by
  unfold Path.push
  split
  · exact h
  · next h_skip =>
    push Not at h_skip
    split
    · next h_up =>
      cases done with
      | nil =>
        cases isRooted with
        | true => exact isTrail_nil
        -- a relative path climbs out of where it starts
        | false => exact ⟨by decide, by simp, List.pairwise_singleton ..⟩
      | cons last before =>
        dsimp only
        split
        · next h_last =>
          -- a step up on a step up: all that it stands on are steps up as well
          subst h_last
          refine ⟨List.forall_mem_cons.2 ⟨by decide, h.segment⟩, ?_, ?_⟩
          · intro h_rooted
            exact absurd (List.mem_cons_self ..) (h.rooted h_rooted)
          · refine List.pairwise_cons.2 ⟨fun s hs _ => ?_, h.ups⟩
            rcases List.mem_cons.1 hs with rfl | hs
            · rfl
            · exact (List.pairwise_cons.1 h.ups).1 s hs rfl
        · exact h.tail
    · next h_up =>
      -- a name; it stands on anything
      refine ⟨List.forall_mem_cons.2 ⟨⟨h_skip.1, h_skip.2, h_segment⟩, h.segment⟩, ?_, ?_⟩
      · intro h_rooted h_mem
        rcases List.mem_cons.1 h_mem with h_eq | h_mem
        · exact h_up h_eq.symm
        · exact h.rooted h_rooted h_mem
      · exact List.pairwise_cons.2 ⟨fun s _ h_eq => absurd h_eq h_up, h.ups⟩

/-- So do any number of steps. -/
theorem IsTrail.foldl_push (h : IsTrail isRooted done) {segments : List String}
    (h_segments : ∀ s ∈ segments, '/' ∉ s.toList) :
    IsTrail isRooted (segments.foldl (Path.push isRooted) done) := by
  induction segments generalizing done with
  | nil => exact h
  | cons s segments ih =>
    obtain ⟨h_s, h_segments⟩ := List.forall_mem_cons.1 h_segments
    exact ih (h.push h_s) h_segments

/-- Names make up a trail, in a path of either kind. -/
theorem isTrail_of_isName (h : ∀ n ∈ done, IsName n) : IsTrail isRooted done := by
  refine ⟨fun n hn => ?_, fun _ h_mem => (h _ h_mem).2.2.1 rfl,
    List.pairwise_of_forall_mem_list fun n hn _ _ h_up => absurd h_up (h n hn).2.2.1⟩
  obtain ⟨h_empty, h_dot, -, h_slash⟩ := h n hn
  exact ⟨h_empty, h_dot, h_slash⟩

/-- The trail of an absolute path is made of names: it has nothing to climb out of. -/
theorem IsTrail.isName (h : IsTrail true done) : ∀ n ∈ done, IsName n := by
  intro n hn
  obtain ⟨h_empty, h_dot, h_slash⟩ := h.segment n hn
  refine ⟨h_empty, h_dot, ?_, h_slash⟩
  rintro rfl
  exact h.rooted rfl hn

end Trail

/-- What resolving leaves in an absolute path are names. -/
theorem isName_of_mem_foldl_push {segments : List String}
    (h_segments : ∀ s ∈ segments, '/' ∉ s.toList) {done : List String}
    (h_done : ∀ n ∈ done, IsName n) : ∀ n ∈ segments.foldl (push true) done, IsName n :=
  ((isTrail_of_isName h_done).foldl_push h_segments).isName

/-- Whether some segments, followed from `depth` steps below a directory, never lead above it. -/
def staysWithin : Nat → List String → Bool
  | _, [] => true
  | depth, segment :: segments =>
    if segment = "" ∨ segment = "." then staysWithin depth segments
    else if segment = ".." then
      match depth with
      | 0 => false
      | depth + 1 => staysWithin depth segments
    else staysWithin (depth + 1) segments

/-- **How many levels some segments climb** above a directory, followed from `depth` steps below
it. -/
def climb : Nat → List String → Nat
  | _, [] => 0
  | depth, segment :: segments =>
    if segment = "" ∨ segment = "." then climb depth segments
    else if segment = ".." then
      match depth with
      | 0 => climb 0 segments + 1
      | depth + 1 => climb depth segments
    else climb (depth + 1) segments

/-- Segments that stay within a directory do not climb out of it. `staysWithin` and `climb` follow
the segments in the same way, so the induction is on these, whatever the depth. -/
theorem climb_of_staysWithin {segments : List String} {depth : Nat}
    (h : staysWithin depth segments = true) : climb depth segments = 0 := by
  induction segments generalizing depth with
  | nil => rfl
  | cons s segments ih =>
    unfold staysWithin at h
    unfold climb
    split at h
    · next h_skip =>
      rw [if_pos h_skip]
      exact ih h
    · next h_skip =>
      rw [if_neg h_skip]
      split at h
      · next h_up =>
        rw [if_pos h_up]
        -- at depth 0 a step up would leave the directory
        cases depth with
        | zero => simp at h
        | succ depth => exact ih h
      · next h_up =>
        rw [if_neg h_up]
        exact ih h

/-- Steps up from the end of a path. -/
def ascend (isRooted : Bool) (levels : Nat) (floor : List String) : List String :=
  (List.replicate levels "..").foldl (push isRooted) floor

/-- **Segments followed from below a directory** climb out of it first, and leave some names below
what they climb to. The names do not depend on the directory, nor does the climb depend on what
stands below it. -/
theorem foldl_push_climb {isRooted : Bool} {segments done : List String}
    (h_done : ∀ s ∈ done, s ≠ "..") (floor : List String) :
    segments.foldl (push isRooted) (done ++ floor) = segments.foldl (push true) done ++
      ascend isRooted (climb done.length segments) floor := by
  induction segments generalizing done floor with
  | nil => rfl
  | cons s segments ih =>
    rw [List.foldl_cons, List.foldl_cons]
    unfold climb
    split
    · next h_skip =>
      rw [push_skip h_skip, push_skip h_skip]
      exact ih h_done floor
    · next h_skip =>
      split
      · next h_up =>
        subst h_up
        cases done with
        | nil =>
          -- the step up is taken from `floor`
          exact @ih [] (fun t ht => by cases ht) (push isRooted floor "..")
        | cons last before =>
          -- the step up takes back a name of `done`, and `floor` is not reached
          have h_last := h_done last (List.mem_cons_self ..)
          rw [List.cons_append, push_up h_last, push_up h_last]
          exact ih (fun t ht => h_done t (List.mem_cons_of_mem _ ht)) floor
      · next h_up =>
        -- anything else is added in front, in paths of either kind
        have h_push : ∀ (b : Bool) (before : List String), push b before s = s :: before := by
          intro b before
          unfold push
          rw [if_neg h_skip, if_neg h_up]
        rw [h_push, h_push, ← List.cons_append]
        exact @ih (s :: done) (List.forall_mem_cons.2 ⟨h_up, h_done⟩) floor

/-- Segments that stay within a directory never reach what leads to it. -/
theorem foldl_push_append {isRooted : Bool} {segments done : List String}
    (h : staysWithin done.length segments = true) (h_done : ∀ s ∈ done, s ≠ "..")
    (floor : List String) :
    segments.foldl (push isRooted) (done ++ floor) = segments.foldl (push true) done ++ floor := by
  rw [foldl_push_climb h_done, climb_of_staysWithin h]
  rfl

/-! ### Segments -/

/-- A slash between two paths parts their segments. -/
theorem segments_append (a b : String) : segments (a ++ "/" ++ b) = segments a ++ segments b :=
  Text.fields_append '/' a b

/-- Segments can be read off what they make up, if there is one at all: of none, the empty path is
made, which has an empty segment. -/
theorem segments_intercalate {parts : List String} (h : ∀ s ∈ parts, '/' ∉ s.toList)
    (h_ne : parts ≠ []) : segments ("/".intercalate parts) = parts :=
  Text.fields_intercalate h h_ne

/-- The segments of a path make it up again. -/
theorem intercalate_segments (path : String) : "/".intercalate (segments path) = path :=
  Text.intercalate_fields '/' path

/-- No segment has a slash in it. -/
theorem notMem_of_mem_segments {path s : String} (h : s ∈ segments path) : '/' ∉ s.toList :=
  Text.notMem_of_mem_fields h

/-- The slash at the beginning of an absolute path makes an empty segment before its names. -/
theorem segments_rooted {names : List String} (h : ∀ n ∈ names, '/' ∉ n.toList)
    (h_ne : names ≠ []) : segments (rooted names) = "" :: names := by
  have h_append := segments_append "" ("/".intercalate names)
  rw [String.empty_append, segments_intercalate h h_ne] at h_append
  exact h_append

/-- The segments of a path below the root are its names and some empty ones. -/
theorem filter_segments_rooted {names : List String} {keep : String → Bool}
    (h : ∀ n ∈ names, '/' ∉ n.toList) (h_keep : ∀ n ∈ names, keep n = true)
    (h_empty : keep "" = false) : (segments (rooted names)).filter keep = names := by
  have h_skip : ¬ keep "" = true := by simp [h_empty]
  by_cases h_nil : names = []
  · subst h_nil
    -- the path is a slash alone, which has an empty segment on either side
    show ["", ""].filter keep = []
    rw [List.filter_cons_of_neg h_skip, List.filter_cons_of_neg h_skip, List.filter_nil]
  · rw [segments_rooted h h_nil, List.filter_cons_of_neg h_skip, List.filter_eq_self.2 h_keep]

/-- What `names` keeps of an absolute path in normal form are its names. -/
theorem names_rooted {names : List String} (h : ∀ n ∈ names, IsName n) :
    Path.names (rooted names) = names :=
  filter_segments_rooted (fun n hn => (h n hn).2.2.2) (fun n hn => by simpa using (h n hn).1) rfl

/-- What `steps` keeps of it are its names as well, none of which is empty or a dot. -/
theorem steps_rooted {names : List String} (h : ∀ n ∈ names, IsName n) :
    steps (rooted names) = names :=
  filter_segments_rooted (fun n hn => (h n hn).2.2.2)
    (fun n hn => by simpa using ⟨(h n hn).1, (h n hn).2.1⟩) rfl

/-- Resolving does not see the empty segments that stand for the slashes at either end. -/
theorem foldl_push_rooted {isRooted : Bool} {names : List String} (h : ∀ n ∈ names, IsName n)
    (done : List String) :
    (segments (rooted names)).foldl (push isRooted) done = names.reverse ++ done := by
  by_cases h_ne : names = []
  · subst h_ne
    rfl
  · rw [segments_rooted (fun n hn => (h n hn).2.2.2) h_ne, List.foldl_cons, push_skip (.inl rfl),
      foldl_push_names h]

/-- To follow a relative path that is made of names is to add the names. -/
theorem foldl_push_intercalate {isRooted : Bool} {names : List String} (h : ∀ n ∈ names, IsName n)
    (done : List String) :
    (segments ("/".intercalate names)).foldl (push isRooted) done = names.reverse ++ done := by
  by_cases h_ne : names = []
  · subst h_ne
    rfl
  · rw [segments_intercalate (fun n hn => (h n hn).2.2.2) h_ne, foldl_push_names h]

/-- Only empty segments make up the empty path. -/
theorem eq_of_intercalate_eq_empty {parts : List String} (h : "/".intercalate parts = "") :
    ∀ s ∈ parts, s = "" := by
  intro s hs
  induction parts with
  | nil => cases hs
  | cons first rest ih =>
    by_cases h_ne : rest = []
    · subst h_ne
      rw [String.intercalate_singleton] at h
      rw [List.mem_singleton.1 hs, h]
    · rw [String.intercalate_cons_of_ne_nil h_ne] at h
      simp at h

/-- The names can be read off what they make up. -/
theorem intercalate_inj {xs ys : List String} (hx : ∀ n ∈ xs, IsName n) (hy : ∀ n ∈ ys, IsName n) :
    "/".intercalate xs = "/".intercalate ys ↔ xs = ys := by
  refine ⟨fun h => ?_, fun h => by rw [h]⟩
  -- both sides are resolved: that gives the names back, in reverse
  have h_fold := @foldl_push_intercalate true xs hx []
  rw [h, foldl_push_intercalate hy, List.append_nil, List.append_nil] at h_fold
  exact (List.reverse_injective h_fold).symm

/-- The names of an absolute path are determined by the path. -/
theorem rooted_inj {xs ys : List String} (hx : ∀ n ∈ xs, IsName n) (hy : ∀ n ∈ ys, IsName n) :
    rooted xs = rooted ys ↔ xs = ys := by
  unfold rooted
  rw [String.append_right_inj, intercalate_inj hx hy]

/-- What lies below a path is written behind it, after a slash. Neither part may be without names:
the root ends in a slash already, and nothing is to follow the last name. -/
theorem rooted_append {xs ys : List String} (hx : xs ≠ []) (hy : ys ≠ []) :
    rooted (xs ++ ys) = rooted xs ++ "/" ++ "/".intercalate ys := by
  unfold rooted
  rw [String.intercalate_append_of_ne_nil hx hy]
  simp only [String.append_assoc]

/-- What stands before the last segment does not depend on it. -/
theorem exists_rooted_concat_eq (names : List String) :
    ∃ parent, ∀ last, rooted (names ++ [last]) = parent ++ "/" ++ last := by
  by_cases h_ne : names = []
  · exact ⟨"", fun last => by simp [h_ne, rooted]⟩
  · exact ⟨rooted names, fun last => by
      rw [rooted_append h_ne (by simp), String.intercalate_singleton]⟩

/-! ### The root -/

/-- A relative path has no root. -/
theorem root_of_isAbsolute_eq_false {path : String} (h : isAbsolute path = false) :
    root path = "" := by
  unfold isAbsolute Text.startsWith at h
  unfold root Text.startsWith
  cases h_chars : path.toList with
  | nil => simp
  | cons c rest =>
    rw [h_chars] at h
    have h_first : c ≠ '/' := by
      rintro rfl
      simp at h
    simp [h_first.symm]

/-- A slash that no other follows is the root. -/
theorem root_of_toList {path : String} {rest : List Char} (h : path.toList = '/' :: rest)
    (h_rest : rest.head? ≠ some '/') : root path = "/" := by
  unfold root Text.startsWith
  rw [h]
  cases rest with
  | nil => simp
  | cons c rest =>
    have h_second : c ≠ '/' := fun hc => h_rest (by rw [hc]; rfl)
    simp [h_second.symm]

/-- A path from the root is absolute. -/
theorem isAbsolute_rooted (names : List String) : isAbsolute (rooted names) = true :=
  Text.startsWith_iff.2 ⟨_, rfl⟩

/-- A name begins with something other than a slash. -/
theorem IsName.exists_cons {n : String} (h : IsName n) :
    ∃ c rest, n.toList = c :: rest ∧ c ≠ '/' := by
  obtain ⟨h_empty, -, -, h_slash⟩ := h
  cases h_chars : n.toList with
  | nil => exact absurd (String.toList_eq_nil_iff.1 h_chars) h_empty
  | cons c rest =>
    refine ⟨c, rest, rfl, ?_⟩
    rintro rfl
    rw [h_chars] at h_slash
    exact h_slash (List.mem_cons_self ..)

/-- So does what names make up. -/
theorem exists_cons_intercalate {names : List String} (h : ∀ n ∈ names, IsName n)
    (h_ne : names ≠ []) :
    ∃ c rest, ("/".intercalate names).toList = c :: rest ∧ c ≠ '/' := by
  obtain ⟨n, names, rfl⟩ := List.exists_cons_of_ne_nil h_ne
  obtain ⟨c, rest, h_chars, h_first⟩ := (h n (List.mem_cons_self ..)).exists_cons
  by_cases h_rest : names = []
  · exact ⟨c, rest, by simp [h_rest, h_chars], h_first⟩
  · rw [String.intercalate_cons_of_ne_nil h_rest]
    exact ⟨c, rest ++ '/' :: ("/".intercalate names).toList, by simp [h_chars], h_first⟩

/-- A path that begins with anything but a slash is relative. -/
theorem isAbsolute_of_toList {path : String} {c : Char} {rest : List Char}
    (h : path.toList = c :: rest) (h_first : c ≠ '/') : isAbsolute path = false := by
  simp [isAbsolute, Text.startsWith, h, List.isPrefixOf, h_first.symm]

/-- So a path that begins with a name is relative, whatever follows. -/
theorem isAbsolute_intercalate_append {names : List String} (h : ∀ n ∈ names, IsName n)
    (h_ne : names ≠ []) (more : String) : isAbsolute ("/".intercalate names ++ more) = false := by
  obtain ⟨c, rest, h_chars, h_first⟩ := exists_cons_intercalate h h_ne
  have h_toList : ("/".intercalate names ++ more).toList = c :: (rest ++ more.toList) := by
    simp [h_chars]
  exact isAbsolute_of_toList h_toList h_first

/-- Nothing that follows the names of an absolute path changes its root. -/
theorem root_rooted_append {names : List String} (h : ∀ n ∈ names, IsName n) {more : String}
    (h_more : names = [] → isAbsolute more = false) : root (rooted names ++ more) = "/" := by
  by_cases h_ne : names = []
  · subst h_ne
    have h_toList : (rooted [] ++ more).toList = '/' :: more.toList := by simp [rooted]
    refine root_of_toList h_toList ?_
    intro h_head
    obtain ⟨rest, h_rest⟩ := List.head?_eq_some_iff.1 h_head
    have h_slash := h_more rfl
    simp [isAbsolute, Text.startsWith, h_rest] at h_slash
  · obtain ⟨c, rest, h_chars, h_first⟩ := exists_cons_intercalate h h_ne
    have h_toList : (rooted names ++ more).toList = '/' :: c :: (rest ++ more.toList) := by
      simp [rooted, h_chars]
    exact root_of_toList h_toList (by simpa using h_first)

/-- The root of an absolute path in normal form is a single slash: a second one would have to begin
a name. -/
theorem root_rooted {names : List String} (h : ∀ n ∈ names, IsName n) :
    root (rooted names) = "/" := by
  rw [← String.append_empty (s := rooted names)]
  exact root_rooted_append h fun _ => rfl

/-! ### The end of a path -/

/-- A path whose last character belongs to a segment. -/
def EndsInName (path : String) : Prop :=
  ∃ front last, path.toList = front ++ [last] ∧ last ≠ '/'

/-- A name ends in something other than a slash. -/
theorem IsName.endsInName {n : String} (h : IsName n) : EndsInName n := by
  obtain ⟨h_empty, -, -, h_slash⟩ := h
  have h_ne : n.toList ≠ [] := fun h => h_empty (String.toList_eq_nil_iff.1 h)
  refine ⟨n.toList.dropLast, n.toList.getLast h_ne, (List.dropLast_append_getLast h_ne).symm, ?_⟩
  intro h_last
  exact h_slash (h_last ▸ List.getLast_mem h_ne)

/-- What stands before a path has nothing to do with its end. -/
theorem EndsInName.append {path : String} (h : EndsInName path) (front : String) :
    EndsInName (front ++ path) := by
  obtain ⟨init, last, h_chars, h_last⟩ := h
  exact ⟨front.toList ++ init, last, by simp [h_chars], h_last⟩

/-- A path that is made of names ends in the last of them. -/
theorem endsInName_intercalate {names : List String} (h : ∀ n ∈ names, IsName n)
    (h_ne : names ≠ []) : EndsInName ("/".intercalate names) := by
  induction names with
  | nil => exact absurd rfl h_ne
  | cons n names ih =>
    by_cases h_rest : names = []
    · subst h_rest
      rw [String.intercalate_singleton]
      exact (h n (List.mem_cons_self ..)).endsInName
    · rw [String.intercalate_cons_of_ne_nil h_rest]
      exact (ih (fun m hm => h m (List.mem_cons_of_mem _ hm)) h_rest).append _

/-- So does an absolute one that leads below the root. -/
theorem endsInName_rooted {names : List String} (h : ∀ n ∈ names, IsName n) (h_ne : names ≠ []) :
    EndsInName (rooted names) :=
  (endsInName_intercalate h h_ne).append _

/-- The empty path ends in nothing. -/
theorem EndsInName.ne_empty {path : String} (h : EndsInName path) : path ≠ "" := by
  rintro rfl
  obtain ⟨front, last, h_chars, -⟩ := h
  simp at h_chars

/-- No slash stands at the end of a name. -/
theorem EndsInName.endsWith_slash {path : String} (h : EndsInName path) :
    Text.endsWith path "/" = false := by
  obtain ⟨front, last, h_chars, h_last⟩ := h
  rw [Bool.eq_false_iff]
  intro h_slash
  obtain ⟨front', rfl⟩ := Text.endsWith_iff.1 h_slash
  rw [String.toList_append] at h_chars
  have h_eq := (List.append_inj' h_chars rfl).2
  exact h_last (by simpa using h_eq.symm)

/-- There is no slash to be trimmed from a path that ends in a name. -/
theorem EndsInName.dropEndWhile_slash {path : String} (h : EndsInName path) :
    Text.dropEndWhile (· == '/') path = path := by
  obtain ⟨front, last, h_chars, h_last⟩ := h
  apply String.toList_inj.1
  rw [Text.toList_dropEndWhile, h_chars]
  simp [h_last]

/-- A slash is put in where a path that ends in a name is joined with another. -/
theorem EndsInName.join_eq {path more : String} (h : EndsInName path)
    (h_more : isAbsolute more = false) : join path more = path ++ "/" ++ more := by
  unfold join
  rw [if_neg (by simp [h_more]), if_neg (by simp [h.ne_empty, h.endsWith_slash])]

/-- The text before the last slash, before it is trimmed. -/
theorem dropEndWhile_append_slash {front last : String} (h : '/' ∉ last.toList) :
    Text.dropEndWhile (· != '/') (front ++ "/" ++ last) = front ++ "/" := by
  apply String.toList_inj.1
  have h_last : ∀ c ∈ last.toList.reverse, (c != '/') = true := by
    intro c hc
    rw [List.mem_reverse] at hc
    rw [bne_iff_ne]
    rintro rfl
    exact h hc
  rw [Text.toList_dropEndWhile]
  simp [List.dropWhile_append_of_pos h_last]

/-- The directory of a path is what stands before its last segment. It is trimmed of slashes at its
end, but it has none. -/
theorem EndsInName.directory_append {path last : String} (h : EndsInName path)
    (h_last : '/' ∉ last.toList) : directory (path ++ "/" ++ last) = path := by
  have h_trim : Text.dropEndWhile (· == '/') (path ++ "/") = path := by
    rw [← String.toList_inj, Text.toList_dropEndWhile]
    have h_path := congrArg String.toList h.dropEndWhile_slash
    rw [Text.toList_dropEndWhile] at h_path
    simpa using h_path
  unfold directory
  simp only [dropEndWhile_append_slash h_last, h_trim, if_neg h.ne_empty]

/-- The directory of an absolute path in normal form is the path without its last name. The file at
the root is special, since the slash before its name is not trimmed. -/
theorem directory_rooted {names : List String} (h : ∀ n ∈ names, IsName n) {last : String}
    (h_last : '/' ∉ last.toList) : directory (rooted (names ++ [last])) = rooted names := by
  by_cases h_ne : names = []
  · subst h_ne
    -- only the slash of the root stands before the name
    have h_head : Text.dropEndWhile (· != '/') ("" ++ "/" ++ last) = "" ++ "/" :=
      dropEndWhile_append_slash h_last
    rw [String.empty_append] at h_head
    unfold directory rooted
    simp only [List.nil_append, String.intercalate_singleton, h_head]
    decide
  · rw [rooted_append h_ne (by simp), String.intercalate_singleton]
    exact (endsInName_rooted h h_ne).directory_append h_last

/-! ### Normal forms -/

/-- The normal form of an absolute path, if there is a single slash at its beginning. -/
theorem normalise_of_root {path : String} (h : root path = "/") :
    normalise path = rooted (resolve true (segments path)) := by
  unfold normalise
  simp only [h]
  rw [if_neg]
  · rfl
  · intro h_empty
    simp at h_empty

/-- A path that is made of names below the root is in normal form. -/
theorem normalise_rooted {names : List String} (h : ∀ n ∈ names, IsName n) :
    normalise (rooted names) = rooted names := by
  rw [normalise_of_root (root_rooted h), resolve, foldl_push_rooted h, List.append_nil,
    List.reverse_reverse]

/-- So all such paths are of the kind that `IsRooted` describes; the next theorem says that there
are no others. -/
theorem isRooted_rooted {names : List String} (h : ∀ n ∈ names, IsName n) :
    IsRooted (rooted names) :=
  ⟨root_rooted h, normalise_rooted h⟩

/-- **An absolute path in normal form is its names below the root.** -/
theorem IsRooted.exists_eq_rooted {path : String} (h : IsRooted path) :
    ∃ names, (∀ n ∈ names, IsName n) ∧ path = rooted names := by
  refine ⟨resolve true (segments path), ?_, ?_⟩
  · intro n hn
    refine isName_of_mem_foldl_push (fun s hs => notMem_of_mem_segments hs) ?_ n
      (List.mem_reverse.1 hn)
    intro m hm
    cases hm
  · -- a path in normal form is what its own segments resolve to
    rw [← normalise_of_root h.1, h.2]

/-- To resolve a joined path is to resolve the directory and to go on from there. -/
theorem foldl_push_join {isRooted : Bool} {base more : String} (h : isAbsolute more = false)
    (done : List String) :
    (segments (join base more)).foldl (push isRooted) done
      = (segments more).foldl (push isRooted) ((segments base).foldl (push isRooted) done) := by
  have h_slash : ∀ front : String, (segments (front ++ "/" ++ more)).foldl (push isRooted) done
      = (segments more).foldl (push isRooted) ((segments front).foldl (push isRooted) done) := by
    intro front
    rw [segments_append, List.foldl_append]
  unfold join
  rw [if_neg (by simp [h])]
  split
  · next h_end =>
    rw [Bool.or_eq_true, decide_eq_true_iff] at h_end
    rcases h_end with rfl | h_end
    · rw [String.empty_append]
      rfl
    · -- the slash at the end of `base` is one empty segment more
      obtain ⟨front, rfl⟩ := Text.endsWith_iff.1 h_end
      have h_base : segments (front ++ "/") = segments front ++ [""] := by
        have h_append := segments_append front ""
        rwa [String.append_empty] at h_append
      rw [h_slash, h_base, List.foldl_append]
      rfl
  · exact h_slash base

/-- To join a relative path to an absolute one in normal form does not change the root. At the root
itself no slash is put in, and the relative path does not bring one along. -/
theorem root_join_rooted {names : List String} (h : ∀ n ∈ names, IsName n) {more : String}
    (h_more : isAbsolute more = false) : root (join (rooted names) more) = "/" := by
  by_cases h_ne : names = []
  · subst h_ne
    unfold join
    rw [if_neg (by simp [h_more]), if_pos (by decide)]
    exact root_rooted_append h fun _ => h_more
  · rw [(endsInName_rooted h h_ne).join_eq h_more, String.append_assoc]
    exact root_rooted_append h fun h_nil => absurd h_nil h_ne

/-- The names that a path leads to from the directory of some names. -/
def walk (names : List String) (path : String) : List String :=
  ((segments path).foldl (push true) names.reverse).reverse

/-- What a path leads to from a directory is made of names. -/
theorem isName_of_mem_walk {names : List String} (h : ∀ n ∈ names, IsName n) (path : String) :
    ∀ n ∈ walk names path, IsName n := by
  intro n hn
  exact isName_of_mem_foldl_push (fun s hs => notMem_of_mem_segments hs)
    (fun m hm => h m (List.mem_reverse.1 hm)) n (List.mem_reverse.1 hn)

/-- The normal form of a joined path is what the second path leads to from the directory of the
first. -/
theorem normalise_join_rooted {names : List String} (h : ∀ n ∈ names, IsName n) {more : String}
    (h_more : isAbsolute more = false) :
    normalise (join (rooted names) more) = rooted (walk names more) := by
  rw [normalise_of_root (root_join_rooted h h_more), resolve, foldl_push_join h_more,
    foldl_push_rooted h, List.append_nil]
  rfl

/-- A relative path in normal form, if anything is left of it: an empty one would become `.`. -/
theorem normalise_join_intercalate {names : List String} (h : ∀ n ∈ names, IsName n)
    (h_ne : names ≠ []) {more : String} (h_more : isAbsolute more = false)
    (h_left : ∃ n ∈ (segments more).foldl (push false) names.reverse, n ≠ "") :
    normalise (join ("/".intercalate names) more)
      = "/".intercalate ((segments more).foldl (push false) names.reverse).reverse := by
  have h_join := (endsInName_intercalate h h_ne).join_eq h_more
  have h_root : root (join ("/".intercalate names) more) = "" := by
    rw [h_join, String.append_assoc]
    exact root_of_isAbsolute_eq_false (isAbsolute_intercalate_append h h_ne _)
  have h_fold : (segments (join ("/".intercalate names) more)).foldl (push false) []
      = (segments more).foldl (push false) names.reverse := by
    rw [foldl_push_join h_more, foldl_push_intercalate h, List.append_nil]
  unfold normalise resolve
  simp only [h_root, String.empty_append]
  -- the path is relative and something is left of it, so no dot has to stand in for it
  rw [show (("" : String) != "") = false from rfl, h_fold, if_neg]
  intro h_empty
  obtain ⟨n, hn, h_name⟩ := h_left
  exact h_name (eq_of_intercalate_eq_empty h_empty n (List.mem_reverse.2 hn))

section StaysWithin

variable {floor dirs : List String} {more : String} (h_floor : ∀ n ∈ floor, IsName n)
  (h_dirs : ∀ n ∈ dirs, IsName n) (h_stays : staysWithin dirs.length (segments more) = true)

include h_dirs h_stays

/-- A walk that stays within `floor` does the same whatever `floor` is, in a path of either kind. -/
theorem foldl_push_eq_walk (isRooted : Bool) :
    (segments more).foldl (push isRooted) (floor ++ dirs).reverse
      = (floor ++ walk dirs more).reverse := by
  -- the trail of the path has its last name first
  have h_depth : staysWithin dirs.reverse.length (segments more) = true := by
    rw [List.length_reverse]
    exact h_stays
  rw [List.reverse_append, foldl_push_append h_depth
    (fun s hs => (h_dirs s (List.mem_reverse.1 hs)).2.2.1), List.reverse_append]
  unfold walk
  rw [List.reverse_reverse]

include h_floor

/-- The normal form of an absolute path from below `floor` that stays within it begins with `floor`.
-/
theorem normalise_join_rooted_append (h_more : isAbsolute more = false) :
    normalise (join (rooted (floor ++ dirs)) more) = rooted (floor ++ walk dirs more) := by
  have h_all : ∀ n ∈ floor ++ dirs, IsName n := List.forall_mem_append.2 ⟨h_floor, h_dirs⟩
  rw [normalise_join_rooted h_all h_more, walk, foldl_push_eq_walk h_dirs h_stays,
    List.reverse_reverse]

/-- The same holds of a relative path, with the same names behind `floor`. This is what makes ids
comparable with files. -/
theorem normalise_join_intercalate_append (h_ne : floor ≠ []) (h_more : isAbsolute more = false) :
    normalise (join ("/".intercalate (floor ++ dirs)) more)
      = "/".intercalate (floor ++ walk dirs more) := by
  have h_all : ∀ n ∈ floor ++ dirs, IsName n := List.forall_mem_append.2 ⟨h_floor, h_dirs⟩
  obtain ⟨first, rest, h_first⟩ := List.exists_cons_of_ne_nil h_ne
  rw [normalise_join_intercalate h_all (by simp [h_ne]) h_more, foldl_push_eq_walk h_dirs h_stays,
    List.reverse_reverse]
  rw [foldl_push_eq_walk h_dirs h_stays]
  exact ⟨first, by simp [h_first], (h_floor first (by simp [h_first])).1⟩

end StaysWithin

/-! ### Below a directory -/

/-- **`file` lies strictly below `base`**: some names lead there. -/
def IsBelow (file base : String) : Prop :=
  ∃ names, names ≠ [] ∧ (∀ n ∈ names, IsName n) ∧ file = join base ("/".intercalate names)

/-- To join names to a directory in normal form is to add them to its names, at the root as well as
below it. -/
theorem join_rooted_intercalate {above names : List String} (h_above : ∀ n ∈ above, IsName n)
    (h : ∀ n ∈ names, IsName n) (h_ne : names ≠ []) :
    join (rooted above) ("/".intercalate names) = rooted (above ++ names) := by
  have h_relative : isAbsolute ("/".intercalate names) = false := by
    rw [← String.append_empty (s := "/".intercalate names)]
    exact isAbsolute_intercalate_append h h_ne ""
  by_cases h_nil : above = []
  · subst h_nil
    unfold join
    rw [if_neg (by simp [h_relative]), if_pos (by decide)]
    simp [rooted]
  · rw [(endsInName_rooted h_above h_nil).join_eq h_relative, rooted_append h_nil h_ne]

/-- There is one way down from a directory to what lies below it. -/
theorem eq_of_join_rooted_eq {above xs ys : List String} (h_above : ∀ n ∈ above, IsName n)
    (hx : ∀ n ∈ xs, IsName n) (hx_ne : xs ≠ []) (hy : ∀ n ∈ ys, IsName n) (hy_ne : ys ≠ [])
    (h : join (rooted above) ("/".intercalate xs) = join (rooted above) ("/".intercalate ys)) :
    xs = ys := by
  rw [join_rooted_intercalate h_above hx hx_ne, join_rooted_intercalate h_above hy hy_ne,
    rooted_inj (List.forall_mem_append.2 ⟨h_above, hx⟩)
      (List.forall_mem_append.2 ⟨h_above, hy⟩)] at h
  exact List.append_cancel_left h

/-- What lies strictly below a directory in normal form has the names of the directory and at least
one more. -/
theorem isBelow_rooted_iff {file : String} {above : List String} (h_above : ∀ n ∈ above, IsName n) :
    IsBelow file (rooted above) ↔
      ∃ names, names ≠ [] ∧ (∀ n ∈ names, IsName n) ∧ file = rooted (above ++ names) := by
  unfold IsBelow
  refine exists_congr fun names => ?_
  constructor
  · rintro ⟨h_ne, h, h_file⟩
    exact ⟨h_ne, h, h_file.trans (join_rooted_intercalate h_above h h_ne)⟩
  · rintro ⟨h_ne, h, h_file⟩
    exact ⟨h_ne, h, h_file.trans (join_rooted_intercalate h_above h h_ne).symm⟩

/-- On normal forms, `isUnder` compares names. -/
theorem isUnder_rooted_iff {xs ys : List String} (hx : ∀ n ∈ xs, IsName n)
    (hy : ∀ n ∈ ys, IsName n) :
    isUnder (rooted xs) (rooted ys) = true ↔ ys <+: xs := by
  -- the base is compared with a slash at its end: the one of the root, or one that is put in
  have h_base : Text.dropEndWhile (· == '/') (rooted ys) ++ "/"
      = if ys = [] then rooted ys else rooted ys ++ "/" := by
    split
    · next h_nil =>
      subst h_nil
      decide
    · next h_ne => rw [(endsInName_rooted hy h_ne).dropEndWhile_slash]
  unfold isUnder
  simp only [normalise_rooted hx, normalise_rooted hy, h_base, Bool.or_eq_true, beq_iff_eq,
    rooted_inj hx hy]
  constructor
  · rintro (rfl | h)
    · exact List.prefix_refl _
    · obtain ⟨rest, h_rest⟩ := Text.startsWith_iff.1 h
      split at h_rest
      · next h_nil => exact h_nil ▸ List.nil_prefix
      · next h_ne =>
        -- the slash after `ys` makes the segments of one a beginning of those of the other
        have h_xs : xs ≠ [] := by
          rintro rfl
          have h_length := congrArg (fun s => s.toList.length) h_rest
          -- the root is shorter than any base with a name in it
          obtain ⟨c, front, h_chars, -⟩ := exists_cons_intercalate hy h_ne
          simp [rooted, h_chars] at h_length
        have h_segments := congrArg segments h_rest
        rw [segments_append, segments_rooted (fun n hn => (hx n hn).2.2.2) h_xs,
          segments_rooted (fun n hn => (hy n hn).2.2.2) h_ne, List.cons_append] at h_segments
        exact ⟨segments rest, (List.cons.inj h_segments).2.symm⟩
  · rintro ⟨zs, rfl⟩
    by_cases h_nil : zs = []
    · exact .inl (by simp [h_nil])
    · refine .inr (Text.startsWith_iff.2 ?_)
      split
      · next h_ys => exact ⟨"/".intercalate zs, by simp [h_ys, rooted]⟩
      · next h_ne => exact ⟨"/".intercalate zs, rooted_append h_ne h_nil⟩

end DeclarationBundle.Path
