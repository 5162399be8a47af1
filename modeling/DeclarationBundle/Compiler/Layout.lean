import DeclarationBundle.ModuleId

/-!
# Where declarations are put

A compiler that writes to a directory of its own lays the declaration files out there as the sources
lie below their common root.

* `Layout.declarationName` is the name of the declaration file of a source.
* `Layout.sourceRoot` is the directory that the sources are laid out from.
* `Layout.key` is the place of a declaration file below it.
-/

namespace DeclarationBundle.Layout

/-- The extensions of sources, each with that of its declaration file. -/
def declarationExtensions : List (String × String) :=
  [(".ts", ".d.ts"), (".tsx", ".d.ts"), (".mts", ".d.mts"), (".cts", ".d.cts")]

/-- The declaration file of a source; a declaration file is its own. -/
def declarationName (path : String) : String :=
  if ModuleId.isDeclarationFile path then path
  else Path.stem path ++ ((declarationExtensions.lookup (Path.extension path)).getD ".d.ts")

/-- A file that a declaration file is made for. -/
def isSource (path : String) : Bool :=
  declarationExtensions.any (Text.endsWith path ·.1) && !ModuleId.isDeclarationFile path

/-- **The root of the sources** among some files: the deepest directory above all of them, or
`default` where there are none. -/
def sourceRoot (files : List String) (default : String) : Except Path.AncestorError String :=
  match (files.filter isSource).map Path.directory with
  | [] => .ok default
  | first :: others => Path.commonAncestor first others

/-- The place of a declaration file below the root, as both are read from `cwd`. -/
def key (cwd root declaration : String) : String :=
  Path.normalise (Path.relative cwd declaration root)

end DeclarationBundle.Layout
