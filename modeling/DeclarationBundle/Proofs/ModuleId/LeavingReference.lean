import DeclarationBundle.Proofs.ModuleId.CrossReference
import DeclarationBundle.Proofs.Path.Ascent

/-!
# References that leave the base directory

A relative reference may climb above the base directory. On disk it then climbs through the
directories that the base directory stands in, and in the bundle through the name of the bundle. If
it comes down again to the id of a module, it has come down by the last components of that name
(`Path.append_ascend_eq_iff`), and on disk it arrives at the file of the module exactly if these are
also the last components of the base directory (`ModuleId.reached_iff_of_join_eq`). Nothing makes
the two agree (`ModuleId.not_forall_reached_of_join_eq`).
-/

namespace DeclarationBundle

namespace ModuleId

/-- **A declaration file strictly below a directory**, in normal form. -/
structure IsDeclarationIn (file base : String) : Prop where
  below : Path.IsBelow file base
  noBackslash : '\\' ∉ file.toList
  declares : isDeclarationFile file = true
  normal : Path.normalise file = file

/-- How many levels a reference that is made in a file climbs above the base directory. -/
def levelsAbove (base file reference : String) : Nat :=
  Path.climb ((Path.trail (Path.directory file)).length - (Path.trail base).length)
    (Path.segments reference)

/-- **References that leave the base directory.** If a relative reference climbs above the base
directory and is linked to a module all the same, it leads to the file of the module on disk exactly
if the name of the bundle ends in the components of the base directory that it climbs through. A
relative base directory must have that many; an absolute one is not climbed beyond its root. -/
theorem reached_iff_of_join_eq {base name file target reference : String}
    (h_base : base ≠ "") (h_file : IsDeclarationIn file base)
    (h_target : IsDeclarationIn target base)
    (h_relative : Path.isAbsolute (withSlashes reference) = false)
    (h_climbs : 0 < levelsAbove base file (withSlashes reference))
    (h_link : join (ofFile file base name) reference = ofFile target base name) :
    Path.normalise (Path.join (Path.directory file) (withSlashes reference)) = stripSuffix target ↔
      (Path.isAbsolute base = true ∨
        levelsAbove base file (withSlashes reference) ≤ (Path.trail base).length) ∧
      (Path.trail name).take (levelsAbove base file (withSlashes reference))
        = (Path.trail base).take (levelsAbove base file (withSlashes reference)) := by
  obtain ⟨front, n, h_front, h_root, h_trail, h_join⟩ := Path.exists_join_eq h_base
  obtain ⟨dirs, stem, suffix, h_dirs, h_name, rfl, -, h_id⟩ :=
    exists_names h_front h_join h_file.below h_file.noBackslash h_file.declares
  obtain ⟨dirs', stem', suffix', h_dirs', h_name', h_split, h_strip, h_id'⟩ :=
    exists_names h_front h_join h_target.below h_target.noBackslash h_target.declares
  -- a name without its suffix has no slash either
  have h_slash : ∀ {stem suffix : String}, Path.IsName (stem ++ suffix) → '/' ∉ stem.toList := by
    intro stem suffix h h_mem
    exact h.2.2.2 (by simp [h_mem])
  -- the file is as far below the base directory as it has directories in between
  have h_levels : ∀ reference, levelsAbove base (Path.placed front dirs (stem ++ suffix)) reference
      = Path.climb dirs.length (Path.segments reference) := by
    intro reference
    rw [levelsAbove, Path.trail_directory_placed front h_dirs h_name.2.2.2, h_trail,
      List.length_append, Nat.add_sub_cancel, List.length_reverse]
  rw [h_levels] at h_climbs ⊢
  have h_normal := h_target.normal
  unfold join at h_link
  rw [h_split] at h_normal
  rw [h_id, h_id'] at h_link
  -- the reference arrives below the name of the bundle; below the base directory it is asked for
  rw [h_strip, ← Path.trail_append_slashes name n, ← Path.isAbsolute_eq_of_root_eq h_root,
    ← h_trail]
  exact Path.reached_iff_of_reached h_dirs (h_slash h_name) h_name.2.2.2 h_dirs' (h_slash h_name')
    h_name' h_relative h_normal h_climbs h_link

/-- A reference that climbs through two components that the name of the bundle has as well. It has a
backslash in it, which counts as a slash on both sides. -/
theorem reached_of_join_eq_same :
    Path.normalise (Path.join (Path.directory "/home/lib/src/sub/a.d.ts")
      (withSlashes "../../../lib\\src/./b")) = stripSuffix "/home/lib/src/b.d.mts" := by
  have h_file : IsDeclarationIn "/home/lib/src/sub/a.d.ts" "/home/lib/src/" :=
    ⟨⟨["sub", "a.d.ts"], by decide, by decide, by decide⟩, by decide, by decide, by decide⟩
  have h_target : IsDeclarationIn "/home/lib/src/b.d.mts" "/home/lib/src/" :=
    ⟨⟨["b.d.mts"], by decide, by decide, by decide⟩, by decide, by decide, by decide⟩
  have h_link : join (ofFile "/home/lib/src/sub/a.d.ts" "/home/lib/src/" "@x/lib/src")
      "../../../lib\\src/./b" = ofFile "/home/lib/src/b.d.mts" "/home/lib/src/" "@x/lib/src" := by
    decide
  have h_iff := reached_iff_of_join_eq (by decide) h_file h_target (by decide) (by decide) h_link
  exact h_iff.2 (by decide)

/-- The root of a bundle's name is not a place that a relative directory could be climbed to. -/
example : join (ofFile "x/a.d.ts" "x" "/x") "../../x/b" = ofFile "x/b.d.ts" "x" "/x" ∧
    Path.normalise (Path.join (Path.directory "x/a.d.ts") "../../x/b")
      ≠ stripSuffix "x/b.d.ts" := by
  decide

/-- **The name of the bundle need not agree with the base directory.** On disk the reference leads
out of it, to a file that no module was made of. -/
theorem not_forall_reached_of_join_eq :
    ¬ ∀ base name file target reference, Path.isAbsolute base = true →
      IsDeclarationIn file base → IsDeclarationIn target base → isRelative reference = true →
      0 < levelsAbove base file reference →
      join (ofFile file base name) reference = ofFile target base name →
      Path.normalise (Path.join (Path.directory file) reference) = stripSuffix target := by
  intro h
  have h_file : IsDeclarationIn "/src/a.d.ts" "/src" :=
    ⟨⟨["a.d.ts"], by decide, by decide, by decide⟩, by decide, by decide, by decide⟩
  have h_target : IsDeclarationIn "/src/b.d.ts" "/src" :=
    ⟨⟨["b.d.ts"], by decide, by decide, by decide⟩, by decide, by decide, by decide⟩
  -- the id of the file climbs through `pkg`, the path of the file through `src`
  have h_reached := h "/src" "pkg" "/src/a.d.ts" "/src/b.d.ts" "../pkg/b" (by decide) h_file
    h_target (by decide) (by decide) (by decide)
  exact absurd h_reached (by decide)

/-- A backslash separates directories in a reference between modules, and none on disk. -/
example : join (ofFile "/src/a.d.ts" "/src" "src") "../src\\b" = ofFile "/src/b.d.ts" "/src" "src" ∧
    Path.normalise (Path.join (Path.directory "/src/a.d.ts") "../src\\b")
      ≠ stripSuffix "/src/b.d.ts" := by
  decide

end ModuleId

end DeclarationBundle
