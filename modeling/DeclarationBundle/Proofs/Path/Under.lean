import DeclarationBundle.Proofs.Path.Trail

/-!
# The order of directories

A path is under another one if the segments that resolving leaves of the other are a beginning of
its own. `Path.isUnder` holds one text against the beginning of another instead, and the slash that
it adds to the base makes the two tests one.

* `isUnder_normalise` — the test reads nothing but normal forms;
* `isUnder_of_trail_eq` — what leads on from where an absolute base leads is under it, whichever of
  the two roots that paths can have they begin with;
* `isUnder_isOrder` — among the paths below a single slash the test is the order of their names by
  beginnings. Both roots count as one there only because neither is compared with the other:
  `/` and `//` are under each other.
-/

namespace DeclarationBundle.Path

/-! ### Normal forms -/

/-- A path and a base may be given in normal form or not: the test brings them into it. -/
theorem isUnder_normalise (path base : String) :
    isUnder (normalise path) (normalise base) = isUnder path base := by
  unfold isUnder
  simp only [normalise_normalise]

/-- A path with a single slash at its beginning is some names below the root. -/
theorem exists_normalise_eq_rooted {path : String} (h : root path = "/") :
    ∃ names, (∀ n ∈ names, IsName n) ∧ normalise path = rooted names := by
  have h_rooted : IsRooted (normalise path) :=
    ⟨(root_normalise path).trans h, normalise_normalise path⟩
  exact h_rooted.exists_eq_rooted

/-- What is left of a root is the slash that the test adds to it. -/
theorem startsWith_of_trail_eq_nil {path base : String} (h_path : isAbsolute path = true)
    (h_base : isAbsolute base = true) (h_top : trail base = []) :
    Text.startsWith (normalise path)
      (Text.dropEndWhile (· == '/') (normalise base) ++ "/") = true := by
  have h_root : root base ≠ "" := by
    intro h_empty
    rw [← root_bne, h_empty] at h_base
    exact absurd h_base (by decide)
  have h_normal : normalise base = root base := by
    rw [normalise_of_ne (.inl h_root), h_top, List.reverse_nil, String.intercalate_nil,
      String.append_empty]
  -- the test trims the slash of the root and adds it again
  have h_strip : Text.dropEndWhile (· == '/') (root base) = "" := by
    rcases root_cases base with h | h | h <;> rw [h] <;> decide
  rw [h_normal, h_strip, String.empty_append]
  show isAbsolute (normalise path) = true
  rw [isAbsolute_normalise]
  exact h_path

/-- A base below the root ends in a name, so the slash that the test adds begins another one. -/
theorem startsWith_of_trail_eq_append {path base : String} {below : List String}
    (h_root : root path = root base) (h_trail : trail path = below ++ trail base)
    (h_below : below ≠ []) (h_names : ∀ n ∈ trail base, IsName n) (h_top : trail base ≠ []) :
    Text.startsWith (normalise path)
      (Text.dropEndWhile (· == '/') (normalise base) ++ "/") = true := by
  have h_ne : (trail base).reverse ≠ [] := by simpa using h_top
  have h_base : normalise base = root base ++ "/".intercalate (trail base).reverse :=
    normalise_of_ne (.inr h_top)
  have h_ends : EndsInName (normalise base) := by
    rw [h_base]
    exact (endsInName_intercalate (fun n hn => h_names n (List.mem_reverse.1 hn)) h_ne).append _
  -- the normal form of the path is that of the base, a slash, and what leads on
  have h_path : normalise path = normalise base ++ "/" ++ "/".intercalate below.reverse := by
    rw [normalise_of_ne (.inr (by simp [h_trail, h_below])), h_base, h_root, h_trail,
      List.reverse_append, String.intercalate_append_of_ne_nil h_ne (by simpa using h_below)]
    simp only [String.append_assoc]
  rw [h_ends.dropEndWhile_slash]
  exact Text.startsWith_iff.2 ⟨_, h_path⟩

/-- **What leads on from a base is under it.** -/
theorem isUnder_of_trail_eq {path base : String} {below : List String}
    (h_absolute : isAbsolute base = true) (h_root : root path = root base)
    (h_trail : trail path = below ++ trail base) : isUnder path base = true := by
  show (normalise path == normalise base || Text.startsWith (normalise path)
    (Text.dropEndWhile (· == '/') (normalise base) ++ "/")) = true
  rw [Bool.or_eq_true, beq_iff_eq]
  by_cases h_same : below = []
  · -- nothing leads on, so the path is the base
    left
    subst h_same
    exact normalise_eq_iff.2 ⟨h_root, h_trail⟩
  right
  by_cases h_top : trail base = []
  · -- the base is a root, which every absolute path is under
    have h_path : isAbsolute path = true := (isAbsolute_eq_of_root_eq h_root).trans h_absolute
    exact startsWith_of_trail_eq_nil h_path h_absolute h_top
  · have h_names := isTrail_trail base
    rw [h_absolute] at h_names
    exact startsWith_of_trail_eq_append h_root h_trail h_same h_names.isName h_top

/-! ### The order -/

/-- **The test compares names**, for paths that begin with a single slash. -/
theorem isUnder_iff_names {path base : String} (h_path : root path = "/")
    (h_base : root base = "/") :
    isUnder path base = true ↔ names (normalise base) <+: names (normalise path) := by
  obtain ⟨xs, hx, h_xs⟩ := exists_normalise_eq_rooted h_path
  obtain ⟨ys, hy, h_ys⟩ := exists_normalise_eq_rooted h_base
  rw [← isUnder_normalise, h_xs, h_ys, names_rooted hx, names_rooted hy]
  exact isUnder_rooted_iff hx hy

/-- The names determine the normal form. -/
theorem normalise_eq_of_names_eq {a b : String} (h_a : root a = "/") (h_b : root b = "/")
    (h : names (normalise a) = names (normalise b)) : normalise a = normalise b := by
  obtain ⟨xs, hx, h_xs⟩ := exists_normalise_eq_rooted h_a
  obtain ⟨ys, hy, h_ys⟩ := exists_normalise_eq_rooted h_b
  rw [h_xs, h_ys, names_rooted hx, names_rooted hy] at h
  rw [h_xs, h_ys, h]

/-- **The order of directories.** For paths that begin with a single slash (three and more count as
one), a path is under a base exactly if the names in the normal form of the base are a beginning of
its own. So the relation is reflexive and transitive, and it holds both ways only for paths with the
same normal form. -/
theorem isUnder_isOrder {a b c : String} (h_a : root a = "/") (h_b : root b = "/")
    (h_c : root c = "/") :
    (isUnder a b = true ↔ names (normalise b) <+: names (normalise a)) ∧
      isUnder a a = true ∧
      (isUnder a b = true → isUnder b c = true → isUnder a c = true) ∧
      (isUnder a b = true → isUnder b a = true → normalise a = normalise b) := by
  refine ⟨isUnder_iff_names h_a h_b, ?_, ?_, ?_⟩
  · exact (isUnder_iff_names h_a h_a).2 (List.prefix_refl _)
  · intro h_ab h_bc
    rw [isUnder_iff_names h_a h_b] at h_ab
    rw [isUnder_iff_names h_b h_c] at h_bc
    exact (isUnder_iff_names h_a h_c).2 (h_bc.trans h_ab)
  · intro h_ab h_ba
    rw [isUnder_iff_names h_a h_b] at h_ab
    rw [isUnder_iff_names h_b h_a] at h_ba
    -- of two lists that begin each other, neither is the longer one
    have h_names : names (normalise a) = names (normalise b) :=
      h_ba.eq_of_length (le_antisymm h_ba.length_le h_ab.length_le)
    exact normalise_eq_of_names_eq h_a h_b h_names

/-- A file below a directory below the root, each spelled with detours, and a directory whose name
goes on where another one's ends. -/
theorem isUnder_isOrder_spelled :
    root "/src/./lib//../lib/x.ts" = "/" ∧ root "/src/lib/" = "/" ∧ root "///.." = "/" ∧
      isUnder "/src/./lib//../lib/x.ts" "/src/lib/" = true ∧
      isUnder "/src/./lib//../lib/x.ts" "///.." = true ∧
      ¬ names (normalise "/src/li") <+: names (normalise "/src/lib/") := by
  have h_file : root "/src/./lib//../lib/x.ts" = "/" := by decide
  have h_directory : root "/src/lib/" = "/" := by decide
  have h_top : root "///.." = "/" := by decide
  obtain ⟨h_names, -, h_trans, -⟩ := isUnder_isOrder h_file h_directory h_top
  have h_under : isUnder "/src/./lib//../lib/x.ts" "/src/lib/" = true := h_names.2 (by decide)
  obtain ⟨h_sibling, -⟩ := @isUnder_isOrder "/src/lib/" "/src/li" "/" h_directory (by decide)
    (by decide)
  exact ⟨h_file, h_directory, h_top, h_under, h_trans h_under (by decide),
    fun h => absurd (h_sibling.2 h) (by decide)⟩

-- two slashes at the beginning are a root of their own, and yet each root is under the other
example : isUnder "/" "//" = true ∧ isUnder "//" "/" = true ∧ normalise "/" ≠ normalise "//" := by
  decide

end DeclarationBundle.Path
