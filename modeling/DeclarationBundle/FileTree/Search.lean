import DeclarationBundle.FileTree.Basic
import DeclarationBundle.Text.Sorted
import DeclarationBundle.Text.Wildcard

/-!
# Searching a tree

A path may be a pattern in any of its segments, and `**` as a whole segment stands for any number of
directories. A name that begins with a dot is found only by a pattern that begins with one.

* `FileTree.search` finds all that a pattern leads to; what it finds is spelled as the pattern
  spells the way there.
* `FileTree.expand` replaces patterns among some paths by the files they lead to, in order.
-/

namespace DeclarationBundle.FileTree

/-- A name that patterns leave out. -/
def isHidden (name : String) : Bool :=
  Text.startsWith name "."

/-- The segment that stands for any number of directories. -/
def anyDepth : String := "**"

/-- A directory as it is asked for. -/
def orHere (directory : String) : String :=
  if directory = "" then "." else directory

/-- Whether an entry in a directory is one too. -/
def isDirectoryIn (t : FileTree) (cwd directory name : String) : Bool :=
  t.isDirectory cwd (Path.join (orHere directory) name)

/-- The names in a directory, if it is one. -/
def namesIn (t : FileTree) (cwd : String) (onlyDirectories : Bool) (directory : String) :
    List String :=
  let path := orHere directory
  if t.isDirectory cwd path then
    match t.follow (origin cwd path) (Path.segments path) with
    | .ok place => (t.names place).filter fun name =>
        !onlyDirectories || t.isDirectoryIn cwd path name
    | .error _ => []
  else []

/-- A name in a directory, or either alone where the other is empty. -/
def joined (directory name : String) : String :=
  if directory = "" then name else if name = "" then directory else Path.join directory name

/-- What lies in a directory, not deeper than `depth`, as seen from there: each name is followed by
what lies beneath it. -/
def below (t : FileTree) (cwd : String) (onlyDirectories : Bool) : Nat → String → List String
  | 0, _ => []
  | depth + 1, directory =>
    ((t.namesIn cwd onlyDirectories directory).filter (!isHidden ·)).flatMap fun name =>
      name :: (below t cwd onlyDirectories depth (joined directory name)).map (joined name)

/-- The length of the longest way down. -/
def depth (t : FileTree) : Nat :=
  t.entries.foldl (fun longest e => max longest e.1.length) 0

/-- What the last segment of a pattern leads to in a directory. -/
def matchIn (t : FileTree) (cwd : String) (onlyDirectories : Bool) (directory pattern : String) :
    List String :=
  if pattern = anyDepth then
    (if directory = "" || t.isDirectory cwd directory then [""] else []) ++
      t.below cwd onlyDirectories t.depth directory
  else if Wildcard.isPattern pattern then
    (t.namesIn cwd onlyDirectories directory).filter fun name =>
      (isHidden pattern || !isHidden name) && Wildcard.accepts pattern name
  else if pattern = "" then
    if t.isDirectory cwd directory then [""] else []
  else if t.hasEntry cwd (joined directory pattern) then [pattern]
  else []

/-- Searches for a pattern of at most `bound` segments. -/
def searchWithin (t : FileTree) (cwd : String) : Nat → Bool → String → List String
  | 0, _, _ => []
  | bound + 1, onlyDirectories, pattern =>
    let directory := Path.directory pattern
    let last := Path.fileName pattern
    if !Wildcard.isPattern pattern then
      if last = "" then
        if t.isDirectory cwd directory then [pattern] else []
      else if t.hasEntry cwd pattern then [pattern] else []
    else if directory = "" then t.matchIn cwd onlyDirectories "" last
    else
      let directories :=
        if Wildcard.isPattern directory then searchWithin t cwd bound true directory
        else [directory]
      directories.flatMap fun found =>
        (t.matchIn cwd onlyDirectories found last).map (Path.join found)

/-- **All that a pattern leads to** from the directory `cwd`. -/
def search (t : FileTree) (cwd pattern : String) : List String :=
  t.searchWithin cwd (Path.segments pattern).length false pattern

/-- The directory that a search of at most `bound` segments starts in: what stands before the first
segment that is a pattern. -/
def startWithin : Nat → String → String
  | 0, pattern => pattern
  | bound + 1, pattern =>
    let directory := Path.directory pattern
    if Wildcard.isPattern directory then startWithin bound directory else directory

/-- Whether the search for one of some paths cannot even start, since the path of the directory that
it would list has a null character in it. Further down the names are those of entries, and a name
that has one is that of no entry. -/
def startsNowhere (base : String) (paths : List String) : Bool :=
  paths.any fun path =>
    Wildcard.isPattern path &&
      let pattern := Path.join base path
      Path.hasNull (startWithin (Path.segments pattern).length pattern)

/-- **Some paths with their patterns expanded**: a pattern is read from the directory `base` and
stands for the files it leads to, in order; any other path stays as it is. -/
def expand (t : FileTree) (cwd base : String) (paths : List String) : List String :=
  paths.flatMap fun path =>
    if Wildcard.isPattern path then
      (Text.sorted (t.search cwd (Path.join base path))).filter (t.isFile cwd)
    else [path]

end DeclarationBundle.FileTree
