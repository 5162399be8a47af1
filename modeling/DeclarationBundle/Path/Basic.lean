import DeclarationBundle.Text.Basic

/-!
# Paths

A path is text whose segments are separated by slashes. Nothing here looks at a disk: `normalise`
folds the segments with `Path.push`, so that `a/./b//../c` is `a/c`, and every other operation is
one on the text.

* A normal path is its root followed by its segments between single slashes (`normalise`).
* A path that begins with two slashes exactly keeps both; any other number counts as one.
* `relative` and `commonAncestor` compare segments, never characters.
-/

namespace DeclarationBundle.Path

/-- The segments between slashes, empty ones included. -/
abbrev segments (path : String) : List String :=
  Text.fields '/' path

/-- The slashes that a normal form of `path` begins with. -/
def root (path : String) : String :=
  if Text.startsWith path "//" && !Text.startsWith path "///" then "//"
  else if Text.startsWith path "/" then "/"
  else ""

/-- A path that does not depend on the working directory. -/
def isAbsolute (path : String) : Bool :=
  Text.startsWith path "/"

/-- **One step of normalisation**, on the segments so far with the last one first. Empty segments
and `.` add nothing; `..` takes the last segment away, unless there is none or it is itself `..`,
when it stays in a relative path and vanishes above an absolute root. -/
def push (rooted : Bool) (done : List String) (segment : String) : List String :=
  if segment = "" ∨ segment = "." then done
  else if segment = ".." then
    match done with
    | [] => if rooted then [] else [".."]
    | last :: before => if last = ".." then ".." :: last :: before else before
  else segment :: done

/-- The segments that remain once `.`, `..` and empty segments are resolved. -/
def resolve (rooted : Bool) (path : List String) : List String :=
  (path.foldl (push rooted) []).reverse

/-- The normal form of a path; that of the empty path is `.`. -/
def normalise (path : String) : String :=
  let start := root path
  let text := start ++ "/".intercalate (resolve (start != "") (segments path))
  if text = "" then "." else text

/-- `path` read from the directory `base`: an absolute `path` stands for itself. -/
def join (base path : String) : String :=
  if isAbsolute path then path
  else if base = "" || Text.endsWith base "/" then base ++ path
  else base ++ "/" ++ path

/-- A path with a null character in it, which no system takes for a path. -/
def hasNull (path : String) : Bool :=
  path.toList.contains (Char.ofNat 0)

/-- The normal form of `path` read from the working directory. -/
def absolute (cwd path : String) : String :=
  normalise (join cwd path)

/-- The text after the last slash. -/
def fileName (path : String) : String :=
  String.ofList (path.toList.reverse.takeWhile (· != '/')).reverse

/-- The text before the last slash, without the slashes it ends in unless it holds nothing else. -/
def directory (path : String) : String :=
  let head := Text.dropEndWhile (· != '/') path
  let trimmed := Text.dropEndWhile (· == '/') head
  if trimmed = "" then head else trimmed

/-- The extension of a file name, dot included, or the empty text. The dots a name begins with are
part of its stem. -/
def extensionOf (name : List Char) : List Char :=
  let afterDots := name.dropWhile (· == '.')
  let tail := (afterDots.reverse.takeWhile (· != '.')).reverse
  if tail.length < afterDots.length then '.' :: tail else []

/-- The last extension of a path, dot included. -/
def extension (path : String) : String :=
  String.ofList (extensionOf (fileName path).toList)

/-- A path without its last extension. -/
def stem (path : String) : String :=
  Text.dropEnd path (extension path).length

/-- The longest list that both lists begin with. -/
def sharedStart : List String → List String → List String
  | a :: as, b :: bs => if a = b then a :: sharedStart as bs else []
  | _, _ => []

/-- The segments of a path that name something. -/
def names (path : String) : List String :=
  (segments path).filter (· != "")

/-- How to reach `path` from the directory `start`, both read from `cwd`: up to what they share,
then down. -/
def relative (cwd path start : String) : String :=
  let source := names (absolute cwd start)
  let target := names (absolute cwd path)
  let shared := (sharedStart source target).length
  let steps := List.replicate (source.length - shared) ".." ++ target.drop shared
  if steps = [] then "." else "/".intercalate steps

/-- Why some paths have no common ancestor. -/
inductive AncestorError
  /-- No working directory is given to read the relative ones from. -/
  | mixedRoots
  deriving DecidableEq, Repr

/-- The wording of an error. -/
def AncestorError.message : AncestorError → String
  | .mixedRoots => "Can't mix absolute and relative paths"

/-- The segments of a path that name something other than the directory they stand in. -/
def steps (path : String) : List String :=
  (segments path).filter fun s => s != "" && s != "."

/-- A path with single slashes and without the steps that lead nowhere. Unlike the normal form it
keeps every `..`, since what stands before one may be needed to get there. -/
def tidy (path : String) : String :=
  let text := root path ++ "/".intercalate (steps path)
  if text = "" then "." else text

/-- The deepest directory above every path of a nonempty list, by segments as they are written. -/
def commonAncestor (first : String) (others : List String) : Except AncestorError String :=
  if others.all (isAbsolute · == isAbsolute first) then
    let shared := others.foldl (fun shared path => sharedStart shared (steps path)) (steps first)
    .ok ((if isAbsolute first then "/" else "") ++ "/".intercalate shared)
  else
    .error .mixedRoots

/-- **`path` is `base` or lies beneath it**, both in normal form. The slash added to `base` makes
the comparison one of whole segments. -/
def isUnder (path base : String) : Bool :=
  let path := normalise path
  let base := normalise base
  path == base || Text.startsWith path (Text.dropEndWhile (· == '/') base ++ "/")

end DeclarationBundle.Path
