import DeclarationBundle.Path.Basic

/-!
# Module ids

A bundled declaration file is known by its module id: the name of the bundle, then the path of the
file below the base directory without its declaration suffix. References between modules are joined
to ids the way paths are joined to directories.

* `ModuleId.ofFile` gives the id of a file.
* `ModuleId.join` follows a relative reference from a module.
* `ModuleId.ofMain` is the module that the bundle's own name stands for.
-/

namespace DeclarationBundle.ModuleId

/-- The endings of declaration files. -/
def declarationSuffixes : List String :=
  [".d.ts", ".d.mts", ".d.cts"]

/-- A file that already holds declarations only. -/
def isDeclarationFile (path : String) : Bool :=
  declarationSuffixes.any (Text.endsWith path)

/-- Both kinds of separator as slashes. -/
def withSlashes (path : String) : String :=
  Text.mapChars (fun c => if c = '\\' then '/' else c) path

/-- A path without its declaration suffix; a path without one loses its last extension. -/
def stripSuffix (path : String) : String :=
  match declarationSuffixes.find? (Text.endsWith path) with
  | some suffix => Text.dropEnd path suffix.length
  | none => Path.stem path

/-- The part of `file` beneath `base`, which must be above it. -/
def beneath (file base : String) : String :=
  Text.drop file (Text.dropEndWhile (fun c => c == '/' || c == '\\') base).length

/-- **The id of a file** below `base` in the bundle called `name`: `<base>/foo/bar.d.ts` is
`<name>/foo/bar`. -/
def ofFile (file base name : String) : String :=
  let path := withSlashes (stripSuffix (beneath file base))
  name ++ (if Text.startsWith path "/" then path else "/" ++ path)

/-- A reference to a module of the same project. -/
def isRelative (reference : String) : Bool :=
  Text.startsWith reference "."

/-- The module that a relative reference made in the module `id` leads to. -/
def join (id reference : String) : String :=
  Path.normalise (Path.join (Path.directory id) (withSlashes reference))

/-- The module that stands for the bundle called `name`: a relative one is read from the name. -/
def ofMain (name main : String) : String :=
  if isRelative main then Path.normalise (Path.join name (withSlashes main)) else main

end DeclarationBundle.ModuleId
