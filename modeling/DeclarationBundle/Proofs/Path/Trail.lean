import DeclarationBundle.Proofs.Path.NormalForm

/-!
# Where paths lead

What is left of a path once it is resolved is its `trail`, the last segment first. The normal form
of a path is its root followed by its trail, so that two paths have the same normal form exactly if
they have the same root and the same trail (`normalise_eq_iff`). Any path has a trail, relative or
absolute; those of relative paths may begin above the directory that they are read from.

* To resolve a trail again changes nothing (`IsTrail.foldl_push_reverse`), so a normal form is its
  own (`normalise_normalise`).
* `root_join` and `trail_join` say where a joined path leads, and `join_assoc` that it does not
  matter which two of three paths are joined first.
* `placed` puts a segment some directories below a path. The `directory` of such a path leads where
  the directories lead (`trail_directory_placed`).
* What is read from an absolute directory is absolute (`isAbsolute_absolute`).
-/

namespace DeclarationBundle.Path

/-- What is left of a path once it is resolved, the last segment first. -/
def trail (path : String) : List String :=
  (segments path).foldl (push (isAbsolute path)) []

/-! ### Roots -/

/-- A path begins with no slash that counts, with one, or with two. Three or more count as one. -/
theorem root_cases (path : String) : root path = "" ∨ root path = "/" ∨ root path = "//" := by
  unfold root
  split
  · exact .inr (.inr rfl)
  · split
    · exact .inr (.inl rfl)
    · exact .inl rfl

/-- The absolute paths are those with a root. -/
theorem root_bne (path : String) : (root path != "") = isAbsolute path := by
  cases h : isAbsolute path with
  | false => rw [root_of_isAbsolute_eq_false h]; rfl
  | true =>
    unfold isAbsolute at h
    unfold root
    rw [h]
    split <;> rfl

/-- So two paths with the same root are absolute or relative alike. -/
theorem isAbsolute_eq_of_root_eq {a b : String} (h : root a = root b) :
    isAbsolute a = isAbsolute b := by
  rw [← root_bne, ← root_bne, h]

/-- What does not begin with a slash adds nothing to a root. -/
theorem root_append {path more : String} (h : isAbsolute more = false) :
    root (path ++ more) = root path := by
  have h_first : more.toList.head? ≠ some '/' := by
    intro h_head
    obtain ⟨rest, h_rest⟩ := List.head?_eq_some_iff.1 h_head
    simp [isAbsolute, Text.startsWith, h_rest] at h
  unfold root Text.startsWith
  rw [String.toList_append]
  -- the root can be seen at the first three characters
  rcases path.toList with _ | ⟨a, _ | ⟨b, _ | ⟨c, rest⟩⟩⟩ <;>
    cases h_more : more.toList with
    | nil => simp
    | cons d more =>
      have h_d : ¬ '/' = d := fun h_d => h_first (by rw [h_more, h_d]; rfl)
      simp [List.isPrefixOf, h_d]

/-- Nor does anything that is put behind a name change the root before it. -/
theorem EndsInName.root_append {path : String} (h : EndsInName path) (more : String) :
    root (path ++ more) = root path := by
  obtain ⟨front, last, h_chars, h_last⟩ := h
  have h_last : ¬ '/' = last := fun h => h_last h.symm
  unfold root Text.startsWith
  rw [String.toList_append, h_chars]
  rcases front with _ | ⟨a, _ | ⟨b, _ | ⟨c, rest⟩⟩⟩ <;> simp [List.isPrefixOf, h_last]

/-- A path that does not end in a slash ends in a name, unless it is empty. -/
theorem endsInName_of_endsWith {path : String} (h_ne : path ≠ "")
    (h : Text.endsWith path "/" = false) : EndsInName path := by
  have h_chars : path.toList ≠ [] := fun h => h_ne (String.toList_eq_nil_iff.1 h)
  refine ⟨path.toList.dropLast, path.toList.getLast h_chars,
    (List.dropLast_append_getLast h_chars).symm, fun h_last => ?_⟩
  have h_split := List.dropLast_append_getLast h_chars
  rw [h_last] at h_split
  have h_ends : Text.endsWith path "/" = true := by
    refine Text.endsWith_iff.2 ⟨String.ofList path.toList.dropLast, ?_⟩
    apply String.toList_inj.1
    simpa using h_split.symm
  rw [h] at h_ends
  cases h_ends

/-! ### Trails -/

variable {isRooted : Bool} {done : List String}

/-- What a path resolves to looks like a trail, whatever its segments are. -/
theorem isTrail_trail (path : String) : IsTrail (isAbsolute path) (trail path) :=
  isTrail_nil.foldl_push fun _ hs => notMem_of_mem_segments hs

/-- Resolving what has been resolved changes nothing. -/
theorem IsTrail.foldl_push_reverse (h : IsTrail isRooted done) :
    done.reverse.foldl (Path.push isRooted) [] = done := by
  induction done with
  | nil => rfl
  | cons s done ih =>
    obtain ⟨⟨h_empty, h_dot, -⟩, -⟩ := List.forall_mem_cons.1 h.segment
    -- the last step is taken after all the others, which give the rest of the trail back
    rw [List.reverse_cons, List.foldl_append, ih h.tail]
    show Path.push isRooted done s = s :: done
    unfold Path.push
    rw [if_neg (by simp [h_empty, h_dot])]
    split
    · next h_up =>
      subst h_up
      cases done with
      | nil =>
        cases isRooted with
        | true => exact absurd (List.mem_cons_self ..) (h.rooted rfl)
        | false => rfl
      | cons last before =>
        -- what a step up stands on leads up itself, so the step is not taken back
        have h_last : last = ".." :=
          (List.pairwise_cons.1 h.ups).1 last (List.mem_cons_self ..) rfl
        subst h_last
        rfl
    · rfl

/-! ### Normal forms -/

/-- A slash at the beginning of a path makes one empty segment more. -/
theorem segments_slash_append (text : String) : segments ("/" ++ text) = "" :: segments text := by
  have h_append := segments_append "" text
  rwa [String.empty_append] at h_append

/-- The normal form of a path is its root and its trail, or a dot if there is nothing in either. -/
theorem normalise_eq (path : String) : normalise path =
    if root path ++ "/".intercalate (trail path).reverse = "" then "."
    else root path ++ "/".intercalate (trail path).reverse := by
  unfold normalise resolve trail
  simp only [root_bne]

/-- The slashes of a root separate empty segments. -/
theorem exists_segments_root_append (path text : String) :
    ∃ n, segments (root path ++ text) = List.replicate n "" ++ segments text := by
  rcases root_cases path with h | h | h
  · exact ⟨0, by rw [h, String.empty_append]; rfl⟩
  · exact ⟨1, by rw [h, segments_slash_append]; rfl⟩
  · refine ⟨2, ?_⟩
    rw [h, show ("//" : String) = "/" ++ "/" from rfl, String.append_assoc, segments_slash_append,
      segments_slash_append]
    rfl

/-- Empty segments lead nowhere, however many there are. -/
theorem foldl_push_replicate_empty (n : Nat) :
    (List.replicate n "").foldl (push isRooted) done = done := by
  induction n with
  | zero => rfl
  | succ n ih => rw [List.replicate_succ, List.foldl_cons, push_skip (.inl rfl), ih]

/-- The text of a trail does not begin with a slash, as its segments are not empty. -/
theorem isAbsolute_intercalate_reverse (h : IsTrail isRooted done) :
    isAbsolute ("/".intercalate done.reverse) = false := by
  by_cases h_ne : done = []
  · subst h_ne
    rfl
  -- a slash at the beginning would make the first segment an empty one
  rw [Bool.eq_false_iff]
  intro h_slash
  obtain ⟨rest, h_rest⟩ := Text.startsWith_iff.1 h_slash
  have h_segments := congrArg segments h_rest
  rw [segments_slash_append, segments_intercalate
    (fun s hs => (h.segment s (List.mem_reverse.1 hs)).2.2) (by simpa using h_ne)] at h_segments
  have h_mem : "" ∈ done.reverse := by simp [h_segments]
  exact (h.segment "" (List.mem_reverse.1 h_mem)).1 rfl

/-- The text of a path that leads somewhere else than where it is read from. -/
theorem normalise_of_ne {path : String} (h : root path ≠ "" ∨ trail path ≠ []) :
    normalise path = root path ++ "/".intercalate (trail path).reverse := by
  rw [normalise_eq, if_neg]
  intro h_empty
  rw [String.append_eq_empty_iff] at h_empty
  rcases h with h | h
  · exact h h_empty.1
  · obtain ⟨s, rest, h_trail⟩ := List.exists_cons_of_ne_nil h
    have h_s := eq_of_intercalate_eq_empty h_empty.2 s (by simp [h_trail])
    exact ((isTrail_trail path).segment s (by simp [h_trail])).1 h_s

/-- The segments of a normal form are those of the trail, after some empty ones. -/
theorem exists_segments_normalise {path : String} (h : trail path ≠ []) :
    ∃ n, segments (normalise path) = List.replicate n "" ++ (trail path).reverse := by
  obtain ⟨n, h_segments⟩ := exists_segments_root_append path ("/".intercalate (trail path).reverse)
  have h_trail := isTrail_trail path
  rw [segments_intercalate (fun s hs => (h_trail.segment s (List.mem_reverse.1 hs)).2.2)
    (by simpa using h)] at h_segments
  exact ⟨n, by rw [normalise_of_ne (.inr h), h_segments]⟩

/-- A path and its normal form have the same root: nothing in the trail is taken for a part of
it. -/
theorem root_normalise (path : String) : root (normalise path) = root path := by
  have h_text : root (root path ++ "/".intercalate (trail path).reverse) = root path := by
    rw [root_append (isAbsolute_intercalate_reverse (isTrail_trail path))]
    rcases root_cases path with h | h | h <;> rw [h] <;> decide
  rw [normalise_eq]
  split
  · next h_empty =>
    -- the normal form is a dot, which has no root either
    rw [(String.append_eq_empty_iff.1 h_empty).1]
    decide
  · exact h_text

/-- A path and its normal form lead to the same place. -/
theorem trail_normalise (path : String) : trail (normalise path) = trail path := by
  have h_absolute := isAbsolute_eq_of_root_eq (root_normalise path)
  by_cases h : trail path = []
  · rw [h, trail, normalise_eq, h]
    rcases root_cases path with h_root | h_root | h_root <;> rw [h_root] <;> decide
  · -- the normal form has the segments of the trail, and to resolve these gives them back
    obtain ⟨n, h_segments⟩ := exists_segments_normalise h
    rw [trail, h_segments, List.foldl_append, foldl_push_replicate_empty, h_absolute,
      (isTrail_trail path).foldl_push_reverse]

/-- **Paths with the same normal form** have the same root and the same trail. -/
theorem normalise_eq_iff {a b : String} :
    normalise a = normalise b ↔ root a = root b ∧ trail a = trail b := by
  constructor
  · intro h
    exact ⟨by rw [← root_normalise a, h, root_normalise],
      by rw [← trail_normalise a, h, trail_normalise]⟩
  · rintro ⟨h_root, h_trail⟩
    rw [normalise_eq, normalise_eq, h_root, h_trail]

/-- To bring a path into normal form a second time changes nothing. -/
theorem normalise_normalise (path : String) : normalise (normalise path) = normalise path :=
  normalise_eq_iff.2 ⟨root_normalise path, trail_normalise path⟩

/-! ### Joined paths -/

/-- A joined path starts where its first part does. -/
theorem root_join {base more : String} (h : isAbsolute more = false) :
    root (join base more) = root base := by
  unfold join
  rw [if_neg (by simp [h])]
  split
  · exact root_append h
  · next h_end =>
    simp only [Bool.or_eq_true, decide_eq_true_eq, not_or, Bool.not_eq_true] at h_end
    rw [String.append_assoc, (endsInName_of_endsWith h_end.1 h_end.2).root_append]

/-- A joined path leads where the second part leads from where the first has led. -/
theorem trail_join {base more : String} (h : isAbsolute more = false) :
    trail (join base more) = (segments more).foldl (push (isAbsolute base)) (trail base) := by
  unfold trail
  rw [isAbsolute_eq_of_root_eq (root_join h), foldl_push_join h]

/-- The text that a relative path is appended to. -/
def asDirectory (base : String) : String :=
  if base = "" || Text.endsWith base "/" then base else base ++ "/"

/-- To join a relative path is to write it behind the other, after a slash if there is none. -/
theorem join_eq_asDirectory_append {base more : String} (h : isAbsolute more = false) :
    join base more = asDirectory base ++ more := by
  unfold join asDirectory
  rw [if_neg (by simp [h])]
  split <;> rfl

/-- Whether a path ends in a slash can be seen at its last part. -/
theorem endsWith_append {front path : String} (h : path ≠ "") :
    Text.endsWith (front ++ path) "/" = Text.endsWith path "/" := by
  cases h_slash : Text.endsWith path "/" with
  | false => exact ((endsInName_of_endsWith h h_slash).append front).endsWith_slash
  | true =>
    obtain ⟨start, rfl⟩ := Text.endsWith_iff.1 h_slash
    exact Text.endsWith_iff.2 ⟨front ++ start, String.append_assoc.symm⟩

/-- The slash that is put in behind two parts is the one behind the second. -/
theorem asDirectory_append (a b : String) :
    asDirectory (asDirectory a ++ b) = asDirectory a ++ asDirectory b := by
  by_cases h_empty : b = ""
  · subst h_empty
    show asDirectory (asDirectory a ++ "") = asDirectory a ++ ""
    rw [String.append_empty]
    -- `asDirectory a` ends in a slash, if it is not empty
    by_cases h : (decide (a = "") || Text.endsWith a "/") = true
    · have h_a : asDirectory a = a := if_pos h
      rw [h_a, h_a]
    · have h_a : asDirectory a = a ++ "/" := if_neg h
      rw [h_a]
      exact if_pos (by rw [endsWith_append (by decide)]; simp [Text.endsWith])
  · have h_ne : asDirectory a ++ b ≠ "" := fun h => h_empty (String.append_eq_empty_iff.1 h).2
    cases h_end : Text.endsWith b "/" with
    | true =>
      have h_b : asDirectory b = b := if_pos (by simp [h_end])
      rw [h_b]
      exact if_pos (by simp [endsWith_append h_empty, h_end])
    | false =>
      have h_b : asDirectory b = b ++ "/" := if_neg (by simp [h_empty, h_end])
      rw [h_b, ← String.append_assoc]
      exact if_neg (by simp [h_ne, endsWith_append h_empty, h_end])

/-- **Which two of three paths are joined first makes no difference.** An absolute path among them
drops what stands before it either way, and relative ones are written one behind the other. -/
theorem join_assoc (a b c : String) : join a (join b c) = join (join a b) c := by
  have h_absolute : ∀ base path : String, isAbsolute path = true → join base path = path :=
    fun base path h => if_pos h
  cases h_c : isAbsolute c with
  | true => rw [h_absolute b c h_c, h_absolute a c h_c, h_absolute (join a b) c h_c]
  | false =>
    have h_join := isAbsolute_eq_of_root_eq (@root_join b c h_c)
    cases h_b : isAbsolute b with
    | true => rw [h_absolute a b h_b, h_absolute a (join b c) (h_join.trans h_b)]
    | false =>
      rw [join_eq_asDirectory_append (h_join.trans h_b), join_eq_asDirectory_append h_c,
        join_eq_asDirectory_append h_c, join_eq_asDirectory_append h_b, asDirectory_append,
        String.append_assoc]

/-! ### Parents -/

/-- A slash at the end of a path makes one empty segment more. -/
theorem segments_append_slash (text : String) : segments (text ++ "/") = segments text ++ [""] := by
  have h_append := segments_append text ""
  rwa [String.append_empty] at h_append

/-- Without a slash a path is a single segment. -/
theorem segments_of_notMem {segment : String} (h : '/' ∉ segment.toList) :
    segments segment = [segment] := by
  have h_single :=
    segments_intercalate (List.forall_mem_singleton.2 h) (List.cons_ne_nil segment [])
  rwa [String.intercalate_singleton] at h_single

/-- A path without a slash is relative. -/
theorem isAbsolute_of_notMem {segment : String} (h : '/' ∉ segment.toList) :
    isAbsolute segment = false := by
  rw [Bool.eq_false_iff]
  intro h_slash
  obtain ⟨rest, rfl⟩ := Text.startsWith_iff.1 h_slash
  exact h (by simp)

/-- A path is a single segment, or its last segment stands behind a slash. -/
theorem exists_last_segment (path : String) :
    '/' ∉ path.toList ∨ ∃ parent last, '/' ∉ last.toList ∧ path = parent ++ "/" ++ last := by
  obtain ⟨dirs, last, h_segments⟩ :=
    (List.eq_nil_or_concat' (segments path)).resolve_left (Text.fields_ne_nil '/' path)
  have h_mem : last ∈ segments path := by simp [h_segments]
  have h_last := notMem_of_mem_segments h_mem
  have h_path : path = "/".intercalate (dirs ++ [last]) := by
    rw [← h_segments, intercalate_segments]
  by_cases h_nil : dirs = []
  · rw [h_nil, List.nil_append, String.intercalate_singleton] at h_path
    exact .inl (h_path ▸ h_last)
  · rw [String.intercalate_append_of_ne_nil h_nil (by simp), String.intercalate_singleton] at h_path
    exact .inr ⟨"/".intercalate dirs, last, h_last, h_path⟩

/-- Some slashes. -/
def slashes (n : Nat) : String :=
  String.ofList (List.replicate n '/')

/-- One slash more is one slash behind the others. -/
theorem slashes_succ (n : Nat) : slashes (n + 1) = slashes n ++ "/" := by
  apply String.toList_inj.1
  simp [slashes, List.replicate_succ']

/-- Slashes at the end of a path lead nowhere. -/
theorem foldl_push_append_slashes (path : String) (n : Nat) :
    (segments (path ++ slashes n)).foldl (push isRooted) done
      = (segments path).foldl (push isRooted) done := by
  induction n with
  | zero => rw [show slashes 0 = "" from rfl, String.append_empty]
  | succ n ih =>
    rw [slashes_succ, ← String.append_assoc, segments_append_slash, List.foldl_append, ih]
    rfl

/-- What is trimmed from the end of a path are slashes, and nothing else. -/
theorem exists_eq_append_slashes (path : String) :
    ∃ n, path = Text.dropEndWhile (· == '/') path ++ slashes n := by
  set last := path.toList.reverse.takeWhile (· == '/') with h_last
  have h_all : last.reverse = List.replicate last.length '/' := by
    rw [List.eq_replicate_iff, List.length_reverse]
    exact ⟨rfl, fun c hc => by simpa using List.mem_takeWhile_imp (List.mem_reverse.1 hc)⟩
  refine ⟨last.length, String.toList_inj.1 ?_⟩
  -- the path is parted where, read from its end, the slashes stop
  calc path.toList
      = (last ++ path.toList.reverse.dropWhile (· == '/')).reverse := by
        rw [h_last, List.takeWhile_append_dropWhile, List.reverse_reverse]
    _ = (path.toList.reverse.dropWhile (· == '/')).reverse ++ last.reverse := List.reverse_append
    _ = (Text.dropEndWhile (· == '/') path ++ slashes last.length).toList := by
        rw [String.toList_append, Text.toList_dropEndWhile, slashes, String.toList_ofList, h_all]

/-- A path that was trimmed of the slashes at its end ends in a name, if anything is left of it. -/
theorem endsInName_dropEndWhile {path : String} (h : Text.dropEndWhile (· == '/') path ≠ "") :
    EndsInName (Text.dropEndWhile (· == '/') path) := by
  cases h_chars : path.toList.reverse.dropWhile (· == '/') with
  | nil =>
    refine absurd (String.toList_inj.1 ?_) h
    rw [Text.toList_dropEndWhile, h_chars]
    rfl
  | cons last rest =>
    refine ⟨rest.reverse, last, by rw [Text.toList_dropEndWhile, h_chars, List.reverse_cons], ?_⟩
    have h_last := List.head?_dropWhile_not (· == '/') path.toList.reverse
    rw [h_chars] at h_last
    simpa using h_last

/-- The directory of a path has the root of what stands before the last segment. -/
theorem root_directory {parent last : String} (h : '/' ∉ last.toList) :
    root (directory (parent ++ "/" ++ last)) = root (parent ++ "/") := by
  obtain ⟨n, h_split⟩ := exists_eq_append_slashes (parent ++ "/")
  unfold directory
  simp only [dropEndWhile_append_slash h]
  split
  · rfl
  · next h_ne =>
    conv_rhs => rw [h_split]
    rw [(endsInName_dropEndWhile h_ne).root_append]

/-- The directory leads where what stands before the last segment does: the two differ in slashes
only. -/
theorem trail_directory {parent last : String} (h : '/' ∉ last.toList) :
    trail (directory (parent ++ "/" ++ last)) = trail (parent ++ "/") := by
  obtain ⟨n, h_split⟩ := exists_eq_append_slashes (parent ++ "/")
  unfold trail
  rw [isAbsolute_eq_of_root_eq (root_directory h)]
  unfold directory
  simp only [dropEndWhile_append_slash h]
  split
  · rfl
  · have h_fold := @foldl_push_append_slashes (isAbsolute (parent ++ "/")) []
      (Text.dropEndWhile (· == '/') (parent ++ "/")) n
    rw [← h_split] at h_fold
    exact h_fold.symm

/-- The last segment of a path is one step more from what stands before it. -/
theorem trail_append_segment {parent last : String} (h : '/' ∉ last.toList) :
    trail (parent ++ "/" ++ last)
      = push (isAbsolute (parent ++ "/")) (trail (parent ++ "/")) last := by
  have h_root := @root_append (parent ++ "/") last (isAbsolute_of_notMem h)
  unfold trail
  rw [isAbsolute_eq_of_root_eq h_root, segments_append, segments_append_slash,
    segments_of_notMem h, List.foldl_append, List.foldl_append]
  rfl

/-- The path of a segment some directories below another path. -/
def placed (above : String) (dirs : List String) (last : String) : String :=
  above ++ "/" ++ "/".intercalate (dirs ++ [last])

/-- **The directory that a segment is placed in** is where some names lead from `above`. -/
theorem exists_parent (above : String) {dirs : List String} (h_dirs : ∀ n ∈ dirs, IsName n) :
    ∃ parent, root (parent ++ "/") = root (above ++ "/") ∧
      trail (parent ++ "/") = dirs.reverse ++ trail (above ++ "/") ∧
      ∀ last, placed above dirs last = parent ++ "/" ++ last := by
  unfold placed
  by_cases h_ne : dirs = []
  · subst h_ne
    exact ⟨above, rfl, rfl, fun last => by rw [List.nil_append, String.intercalate_singleton]⟩
  · have h_root : root (above ++ "/" ++ ("/".intercalate dirs ++ "/")) = root (above ++ "/") :=
      root_append (isAbsolute_intercalate_append h_dirs h_ne "/")
    rw [← String.append_assoc] at h_root
    refine ⟨above ++ "/" ++ "/".intercalate dirs, h_root, ?_, fun last => ?_⟩
    · -- what resolves to the names is followed by an empty segment, for the slash
      unfold trail
      rw [isAbsolute_eq_of_root_eq h_root, segments_append_slash, segments_append_slash,
        segments_append, List.foldl_append, List.foldl_append, foldl_push_intercalate h_dirs,
        List.foldl_append]
      rfl
    · rw [String.intercalate_append_of_ne_nil h_ne (by simp), String.intercalate_singleton]
      simp only [String.append_assoc]

section Placed

variable (above : String) {last : String} {dirs : List String} (h_dirs : ∀ n ∈ dirs, IsName n)
  (h_last : '/' ∉ last.toList)

include h_dirs h_last

/-- Where a path starts does not change when a segment is placed below it. -/
theorem root_placed : root (placed above dirs last) = root (above ++ "/") := by
  obtain ⟨parent, h_root, -, h_split⟩ := exists_parent above h_dirs
  rw [h_split, root_append (isAbsolute_of_notMem h_last), h_root]

/-- The segment is one step more from the directory that it is placed in. -/
theorem trail_placed : trail (placed above dirs last)
    = push (isAbsolute (above ++ "/")) (dirs.reverse ++ trail (above ++ "/")) last := by
  obtain ⟨parent, h_root, h_trail, h_split⟩ := exists_parent above h_dirs
  rw [h_split, trail_append_segment h_last, isAbsolute_eq_of_root_eq h_root, h_trail]

/-- The directory of a segment that was placed starts where the path does. -/
theorem root_directory_placed :
    root (directory (placed above dirs last)) = root (above ++ "/") := by
  obtain ⟨parent, h_root, -, h_split⟩ := exists_parent above h_dirs
  rw [h_split, root_directory h_last, h_root]

/-- The directory of a segment that was placed leads to the names that it was placed below. -/
theorem trail_directory_placed :
    trail (directory (placed above dirs last)) = dirs.reverse ++ trail (above ++ "/") := by
  obtain ⟨parent, -, h_trail, h_split⟩ := exists_parent above h_dirs
  rw [h_split, trail_directory h_last, h_trail]

end Placed

/-- The normal form of a path whose last segment stays when it is resolved. -/
theorem normalise_append_segment {parent last : String} (h_last : '/' ∉ last.toList)
    (h : push (isAbsolute (parent ++ "/")) (trail (parent ++ "/")) last
      = last :: trail (parent ++ "/")) :
    normalise (parent ++ "/" ++ last) = root (parent ++ "/") ++
      "/".intercalate ((trail (parent ++ "/")).reverse ++ [last]) := by
  have h_trail := (@trail_append_segment parent last h_last).trans h
  rw [normalise_of_ne (.inr (by simp [h_trail])), h_trail,
    root_append (isAbsolute_of_notMem h_last), List.reverse_cons]

/-- Whether a path is in normal form does not depend on its last segment, if that stays. -/
theorem normalise_append_eq_self {parent x y : String} (hx : IsName x) (hy : '/' ∉ y.toList)
    (h_stays : push (isAbsolute (parent ++ "/")) (trail (parent ++ "/")) y
      = y :: trail (parent ++ "/"))
    (h : normalise (parent ++ "/" ++ x) = parent ++ "/" ++ x) :
    normalise (parent ++ "/" ++ y) = parent ++ "/" ++ y := by
  -- what the normal form has before the last segment, which is the same for all that stay
  obtain ⟨front, h_front⟩ : ∃ front, ∀ last,
      "/".intercalate ((trail (parent ++ "/")).reverse ++ [last]) = front ++ last := by
    by_cases h_ne : trail (parent ++ "/") = []
    · exact ⟨"", fun last => by
        rw [h_ne, List.reverse_nil, List.nil_append, String.intercalate_singleton,
          String.empty_append]⟩
    · exact ⟨_, fun last => by
        rw [String.intercalate_append_of_ne_nil (by simpa using h_ne) (by simp),
          String.intercalate_singleton]⟩
  rw [normalise_append_segment hx.2.2.2 (push_name hx), h_front, ← String.append_assoc,
    String.append_left_inj] at h
  rw [normalise_append_segment hy h_stays, h_front, ← String.append_assoc, h]

/-- The root that a path in normal form stands in is in normal form. -/
theorem normalise_append_slash {parent last : String} (h_last : IsName last)
    (h : normalise (parent ++ "/" ++ last) = parent ++ "/" ++ last)
    (h_trail : trail (parent ++ "/") = []) : normalise (parent ++ "/") = parent ++ "/" := by
  rw [normalise_append_segment h_last.2.2.2 (push_name h_last), h_trail, List.reverse_nil,
    List.nil_append, String.intercalate_singleton, String.append_left_inj] at h
  have h_root : root (parent ++ "/") ≠ "" := by simp [h]
  rw [normalise_of_ne (.inl h_root), h_trail, h, List.reverse_nil, String.intercalate_nil,
    String.append_empty]

/-- A normal form with a slash ends in the last segment that resolving leaves, or is a root. -/
theorem trail_of_normalise_eq_self {parent last : String} (h_last : '/' ∉ last.toList)
    (h : normalise (parent ++ "/" ++ last) = parent ++ "/" ++ last) :
    last = "" ∧ trail (parent ++ "/" ++ last) = [] ∨
      trail (parent ++ "/" ++ last) = last :: trail (parent ++ "/") := by
  set path := parent ++ "/" ++ last with h_path
  have h_segments : segments path = segments parent ++ [last] := by
    rw [h_path, segments_append, segments_of_notMem h_last]
  cases h_trail : trail path with
  | nil =>
    refine .inl ⟨?_, rfl⟩
    have h_slash : '/' ∈ path.toList := by simp [h_path]
    -- there is nothing but slashes in it
    have h_all : ∀ c ∈ path.toList, c = '/' := by
      have h_eq : path = "." ∨ path = root path := by
        rw [normalise_eq, h_trail, List.reverse_nil, String.intercalate_nil,
          String.append_empty] at h
        split at h
        · exact .inl h.symm
        · exact .inr h.symm
      rcases h_eq with h_eq | h_eq
      · rw [h_eq] at h_slash
        exact absurd h_slash (by decide)
      · rw [h_eq]
        rcases root_cases path with h_root | h_root | h_root <;> rw [h_root] <;> simp
    rw [← String.toList_eq_nil_iff, List.eq_nil_iff_forall_not_mem]
    intro c hc
    exact h_last (h_all c (by simp [h_path, hc]) ▸ hc)
  | cons s below =>
    refine .inr ?_
    -- the path is its own normal form, so its segments are those of its trail
    obtain ⟨n, h_normal⟩ := @exists_segments_normalise path (by simp [h_trail])
    have h_below := isTrail_trail path
    rw [h_trail] at h_below
    rw [h, h_segments, h_trail, List.reverse_cons, ← List.append_assoc] at h_normal
    obtain ⟨h_parent, h_s⟩ := List.append_inj' h_normal rfl
    have h_absolute : isAbsolute (parent ++ "/") = isAbsolute path :=
      (isAbsolute_eq_of_root_eq (root_append (isAbsolute_of_notMem h_last))).symm
    rw [List.singleton_inj.1 h_s, trail, segments_append_slash, h_parent, List.append_assoc,
      List.foldl_append, foldl_push_replicate_empty, List.foldl_append, h_absolute,
      h_below.tail.foldl_push_reverse]
    rfl

/-- A slash behind a path does not change where it leads, unless it becomes its root. -/
theorem trail_append_slash {path : String} (h : isAbsolute (path ++ "/") = isAbsolute path) :
    trail (path ++ "/") = trail path := by
  unfold trail
  rw [h, segments_append_slash, List.foldl_append]
  rfl

/-- What a directory and the paths below it begin with. -/
theorem exists_join_eq {base : String} (h : base ≠ "") : ∃ front n,
    front = Text.dropEndWhile (· == '/') base ++ slashes n ∧ root (front ++ "/") = root base ∧
      trail (front ++ "/") = trail base ∧
      ∀ more, isAbsolute more = false → join base more = front ++ "/" ++ more := by
  obtain ⟨n, h_split⟩ := exists_eq_append_slashes base
  -- the slash before what is joined is put in, or it is the last of those at the end of the base
  cases n with
  | zero =>
    have h_strip : Text.dropEndWhile (· == '/') base = base := by
      conv_rhs => rw [h_split]
      exact String.append_empty.symm
    have h_ends : EndsInName base := by
      rw [← h_strip]
      exact endsInName_dropEndWhile (h_strip.symm ▸ h)
    have h_root := h_ends.root_append "/"
    refine ⟨base, 0, ?_, h_root, trail_append_slash (isAbsolute_eq_of_root_eq h_root),
      fun more h_more => h_ends.join_eq h_more⟩
    rw [h_strip]
    exact String.append_empty.symm
  | succ n =>
    rw [slashes_succ, ← String.append_assoc] at h_split
    refine ⟨_, n, rfl, by rw [← h_split], by rw [← h_split], fun more h_more => ?_⟩
    have h_end : Text.endsWith base "/" = true := Text.endsWith_iff.2 ⟨_, h_split⟩
    rw [← h_split]
    unfold join
    rw [if_neg (by simp [h_more]), if_pos (by simp [h_end])]

/-- Whether a path is absolute can be seen at its first part, if that is not empty. -/
theorem isAbsolute_append_of_ne {path : String} (h : path ≠ "") (more : String) :
    isAbsolute (path ++ more) = isAbsolute path := by
  obtain ⟨c, rest, h_chars⟩ := List.exists_cons_of_ne_nil (mt String.toList_eq_nil_iff.1 h)
  simp [isAbsolute, Text.startsWith, h_chars, List.isPrefixOf]

/-- Slashes after a path do not change where it leads. -/
theorem trail_append_slashes (path : String) (n : Nat) :
    trail (path ++ slashes n ++ "/") = trail path := by
  rw [String.append_assoc, ← slashes_succ]
  unfold trail
  rw [foldl_push_append_slashes]
  by_cases h_empty : path = ""
  · subst h_empty
    rfl
  · rw [isAbsolute_append_of_ne h_empty]

/-! ### Absolute paths -/

/-- A path and its normal form are absolute or relative alike. -/
theorem isAbsolute_normalise (path : String) : isAbsolute (normalise path) = isAbsolute path :=
  isAbsolute_eq_of_root_eq (root_normalise path)

/-- Read from an absolute directory, every path is absolute. -/
theorem isAbsolute_absolute {cwd : String} (h : isAbsolute cwd = true) (path : String) :
    isAbsolute (absolute cwd path) = true := by
  unfold absolute
  rw [isAbsolute_normalise]
  cases h_path : isAbsolute path with
  | true =>
    unfold join
    rwa [if_pos h_path]
  | false => rwa [isAbsolute_eq_of_root_eq (root_join h_path)]

/-- What comes of reading a path from a directory is in normal form. -/
theorem normalise_absolute (cwd path : String) :
    normalise (absolute cwd path) = absolute cwd path :=
  normalise_normalise _

/-- The directory of an absolute path is absolute. -/
theorem isAbsolute_directory {path : String} (h : isAbsolute path = true) :
    isAbsolute (directory path) = true := by
  rcases exists_last_segment path with h_last | ⟨parent, last, h_last, rfl⟩
  · rw [isAbsolute_of_notMem h_last] at h
    cases h
  · have h_ne : parent ++ "/" ≠ "" := by simp
    rwa [isAbsolute_eq_of_root_eq (root_directory h_last), ← isAbsolute_append_of_ne h_ne last]

end DeclarationBundle.Path
