import DeclarationBundle.Bundle.Selection
import DeclarationBundle.Proofs.Path.Under

/-!
# Inputs

The path of an input is tried from the working directory and, if it does not lead into the base
directory from there, read from the base directory.

* `Selection.root_of_normal` — an absolute path in normal form is the same whichever of the two it
  is read from, so that it is resolved to itself;
* `Selection.isUnder_absolute_join` — a relative path whose segments stay within an absolute base
  leads to a place under it. One that is kept as it is read from the working directory leads there
  because that is what it is kept for (`Selection.isUnder_root`);
* `Selection.roots_stable` — resolving inputs goes path by path, and once is enough.
-/

namespace DeclarationBundle.Selection

open DeclarationBundle.Path (isAbsolute isUnder absolute join normalise segments staysWithin)

variable {cwd base path : String}

/-! ### One input -/

/-- An input is read from one of the two directories. -/
theorem root_eq_or (cwd base path : String) :
    root cwd base path = absolute cwd path ∨
      root cwd base path = absolute cwd (join base path) := by
  unfold root
  dsimp only
  split
  · exact .inl rfl
  · exact .inr rfl

/-- To make a path absolute that is so already is to bring it into normal form. -/
theorem absolute_of_isAbsolute (h : isAbsolute path = true) (cwd : String) :
    absolute cwd path = normalise path := by
  have h_join : join cwd path = path := if_pos h
  unfold absolute
  rw [h_join]

/-- **A path that has been resolved is resolved to itself**, from any directories. -/
theorem root_of_normal (h_absolute : isAbsolute path = true) (h_normal : normalise path = path)
    (cwd base : String) : root cwd base path = path := by
  have h_join : join base path = path := if_pos h_absolute
  have h_self : absolute cwd path = path :=
    (absolute_of_isAbsolute h_absolute cwd).trans h_normal
  -- an absolute path is read the same from both directories
  rcases root_eq_or cwd base path with h | h
  · rw [h, h_self]
  · rw [h, h_join, h_self]

/-- A relative path that stays within an absolute base leads under it. -/
theorem isUnder_absolute_join (h_base : isAbsolute base = true) (h_path : isAbsolute path = false)
    (h_stays : staysWithin 0 (segments path) = true) (cwd : String) :
    isUnder (absolute cwd (join base path)) base = true := by
  have h_root : Path.root (join base path) = Path.root base := Path.root_join h_path
  have h_absolute : isAbsolute (join base path) = true :=
    (Path.isAbsolute_eq_of_root_eq h_root).trans h_base
  -- nothing of where the base leads is taken away again
  have h_trail : Path.trail (join base path)
      = (segments path).foldl (Path.push true) [] ++ Path.trail base := by
    rw [Path.trail_join h_path]
    exact @Path.foldl_push_append _ (segments path) [] h_stays (by simp) (Path.trail base)
  rw [absolute_of_isAbsolute h_absolute, ← Path.isUnder_normalise, Path.normalise_normalise,
    Path.isUnder_normalise]
  exact Path.isUnder_of_trail_eq h_base h_root h_trail

/-- An input that stays within an absolute base is resolved to a path under it, from whichever
directory it is read. -/
theorem isUnder_root (h_base : isAbsolute base = true) (h_path : isAbsolute path = false)
    (h_stays : staysWithin 0 (segments path) = true) :
    isUnder (root cwd base path) base = true := by
  unfold root
  dsimp only
  split
  · -- it is kept as it is read from the working directory because it leads under the base
    next h_under => exact h_under
  · exact isUnder_absolute_join h_base h_path h_stays cwd

/-! ### All of them -/

/-- **What an input is resolved to**: the path read from one of the two directories, made absolute
and normal. It is under an absolute base, unless the path is absolute itself or climbs out of the
base. -/
structure IsResolved (cwd base path file : String) : Prop where
  reading : file = absolute cwd path ∨ file = absolute cwd (join base path)
  isAbsolute : isAbsolute file = true
  normalise_eq : normalise file = file
  isUnder : Path.isAbsolute base = true → Path.isAbsolute path = false →
    staysWithin 0 (segments path) = true → isUnder file base = true

/-- From an absolute working directory, an input is resolved to an absolute path in normal form. -/
theorem isResolved_root (h_cwd : isAbsolute cwd = true) (base path : String) :
    IsResolved cwd base path (root cwd base path) := by
  refine ⟨root_eq_or cwd base path, ?_, ?_, isUnder_root⟩
  · rcases root_eq_or cwd base path with h | h <;> rw [h] <;> exact Path.isAbsolute_absolute h_cwd _
  · rcases root_eq_or cwd base path with h | h <;> rw [h] <;> exact Path.normalise_absolute cwd _

/-- **Resolving inputs is stable.** Each path is resolved on its own, in order, to an absolute path
in normal form, under the base directory unless the path is absolute or climbs out of it; and to
resolve the results once more, from any working directory, changes nothing. -/
theorem roots_stable (h_cwd : isAbsolute cwd = true) (base : String) (paths : List String) :
    List.Forall₂ (IsResolved cwd base) paths (roots cwd base paths) ∧
      ∀ cwd', roots cwd' base (roots cwd base paths) = roots cwd base paths := by
  have h_each : List.Forall₂ (IsResolved cwd base) paths (roots cwd base paths) := by
    refine List.forall₂_map_right_iff.2 (List.forall₂_same.2 ?_)
    intro path _
    exact isResolved_root h_cwd base path
  refine ⟨h_each, fun cwd' => ?_⟩
  -- a resolved path is absolute and normal, so from anywhere it is resolved to itself
  have h_self : ∀ file ∈ roots cwd base paths, root cwd' base file = file := by
    intro file h_file
    obtain ⟨path, -, rfl⟩ := List.mem_map.1 h_file
    have h_resolved := isResolved_root h_cwd base path
    exact root_of_normal h_resolved.isAbsolute h_resolved.normalise_eq cwd' base
  calc roots cwd' base (roots cwd base paths)
      = (roots cwd base paths).map id := List.map_congr_left h_self
    _ = roots cwd base paths := List.map_id _

/-- An input that leads into the base directory from the working directory, one that does not, one
that climbs out of it and an absolute one. -/
theorem roots_stable_mixed :
    let files := roots "/work" "/work/src" ["src/a.ts", "lib/../b.ts", "../c.ts", "/d/./e.ts"]
    isAbsolute "/work" = true ∧
      files = ["/work/src/a.ts", "/work/src/b.ts", "/work/c.ts", "/d/e.ts"] ∧
      isUnder "/work/src/b.ts" "/work/src" = true ∧
      roots "/work/src/lib" "/work/src" files = files := by
  intro files
  have h_cwd : isAbsolute "/work" = true := by decide
  obtain ⟨h_each, h_again⟩ := roots_stable h_cwd "/work/src"
    ["src/a.ts", "lib/../b.ts", "../c.ts", "/d/./e.ts"]
  have h_files : files = ["/work/src/a.ts", "/work/src/b.ts", "/work/c.ts", "/d/e.ts"] := by
    decide +kernel
  -- `lib/../b.ts` stays within the base directory, and it is read from there
  have h_second : IsResolved "/work" "/work/src" "lib/../b.ts" "/work/src/b.ts" := by
    have h_list : List.Forall₂ (IsResolved "/work" "/work/src")
      ["src/a.ts", "lib/../b.ts", "../c.ts", "/d/./e.ts"]
      ["/work/src/a.ts", "/work/src/b.ts", "/work/c.ts", "/d/e.ts"] := h_files ▸ h_each
    exact (List.forall₂_cons.1 (List.forall₂_cons.1 h_list).2).1
  exact ⟨h_cwd, h_files, h_second.isUnder (by decide) (by decide) (by decide), h_again _⟩

end DeclarationBundle.Selection
