import DeclarationBundle.Path.Basic

/-!
# Which files are bundled

The files a run starts from and the files it leaves out are given by paths that are made absolute. A
path among the former that leads into the base directory from where the run was started stays as it
is; any other is read from the base directory, as all of the latter are.
-/

namespace DeclarationBundle.Selection

/-- The absolute form of the path of an input. -/
def root (cwd base path : String) : String :=
  let resolved := Path.absolute cwd path
  if Path.isUnder resolved base then resolved else Path.absolute cwd (Path.join base path)

/-- **The files that a run starts from.** -/
def roots (cwd base : String) (paths : List String) : List String :=
  paths.map (root cwd base)

/-- **The files that a run leaves out.** -/
def excluded (cwd base : String) (paths : List String) : List String :=
  paths.map fun path => Path.absolute cwd (Path.join base path)

/-- Whether a file is bundled: it lies in the base directory and is not left out. -/
def isBundled (base : String) (excluded : List String) (file : String) : Bool :=
  Path.isUnder file base && !excluded.contains (Path.normalise file)

end DeclarationBundle.Selection
