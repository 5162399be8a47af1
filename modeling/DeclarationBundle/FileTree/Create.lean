import DeclarationBundle.FileTree.Basic

/-!
# Making files

* `FileTree.makeDirectory` makes one directory, which must not be there yet.
* `FileTree.makeDirectories` makes a directory and those above it, and is content with what is
  there.
* `FileTree.openFresh` is what opening a path for output does: the directories above it are made,
  and the file is there and empty from then on. Where that fails, the directories stay that were
  made on the way (`FileTree.attempted`).
-/

namespace DeclarationBundle.FileTree

/-- Splits the segments of a path at the last name, when it has one that slashes may follow. -/
def lastName (segments : List String) : List String × Option String × Bool :=
  let trailing := segments.reverse.takeWhile (· == "")
  match segments.reverse.dropWhile (· == "") with
  | [] => ([], none, false)
  | name :: above =>
    if name = "." ∨ name = ".." then (segments, none, false)
    else (above.reverse, some name, !trailing.isEmpty)

/-- The place for a name in the directory that some segments lead to. -/
def placeIn (t : FileTree) (start : Place) (above : List String) (name : String) :
    Except Errno Place := do
  let place ← t.follow start above
  match t.find? place with
  | none => .error .noEntry
  | some (.file _) => .error .notDirectory
  | some .directory =>
    if maxNameLength < (Utf8.encode name).length then .error .nameTooLong else .ok (place ++ [name])

/-- Makes a directory. -/
def makeDirectory (t : FileTree) (cwd path : String) : Except (PathError Errno) FileTree := do
  checkPath path
  let segments := Path.segments path
  match lastName segments with
  | (above, some name, _) =>
    let place ← (t.placeIn (origin cwd path) above name).mapError .system
    if (t.find? place).isSome then .error (.system .fileExists) else .ok (t.put place .directory)
  | (_, none, _) =>
    match t.stat cwd path with
    | .ok _ => .error (.system .fileExists)
    | .error error => .error error

/-- The tidy path of some steps, the last one first. -/
def pathOf (root : String) (steps : List String) : String :=
  let text := root ++ "/".intercalate steps.reverse
  if text = "" then "." else text

/-- What goes wrong in making a directory, and the tree as it was left. -/
structure MakeError where
  error : PathError SystemError
  tree : FileTree
  deriving DecidableEq, Repr

/-- Lets an error about a directory pass if the directory is there all the same. -/
def allowExisting (t : FileTree) (cwd path : String) (error : PathError Errno) :
    Except MakeError FileTree :=
  if t.isDirectory cwd path then .ok t else .error ⟨error.about path, t⟩

/-- Makes the directory that some steps lead to, the last one first, and those above it. -/
def makeSteps (t : FileTree) (cwd root : String) : List String → Except MakeError FileTree
  | [] => .ok t
  | step :: above =>
    let path := pathOf root (step :: above)
    match t.makeDirectory cwd path with
    | .ok t => .ok t
    | .error (.system .noEntry) => do
      let t ← makeSteps t cwd root above
      match t.makeDirectory cwd path with
      | .ok t => .ok t
      | .error (.system .noEntry) => .error ⟨.system ⟨.noEntry, some path⟩, t⟩
      | .error error => t.allowExisting cwd path error
    | .error error => t.allowExisting cwd path error

/-- Makes the directory that `path` is to be written to, and those above it. -/
def makeDirectories (t : FileTree) (cwd path : String) : Except MakeError FileTree :=
  t.makeSteps cwd (Path.root path) (Path.steps path).reverse.tail

/-- The place of the file that a path names for output. -/
def target (t : FileTree) (cwd path : String) : Except (PathError Errno) Place := do
  checkPath path
  let start := origin cwd path
  match lastName (Path.segments path) with
  | (above, some name, slashes) =>
    let place ← (t.placeIn start above name).mapError .system
    if slashes then .error (.system .isDirectory)
    else
      match t.find? place with
      | some .directory => .error (.system .isDirectory)
      | _ => .ok place
  | (segments, none, _) =>
    match t.follow start segments with
    | .ok place =>
      match t.find? place with
      | none => .error (.system .noEntry)
      | some (.file _) => .error (.system .notDirectory)
      | some .directory => .error (.system .isDirectory)
    | .error errno => .error (.system errno)

/-- **Opens a path for output**: the tree with an empty file there, and the place of the file. -/
def openFresh (t : FileTree) (cwd path : String) :
    Except (PathError SystemError) (FileTree × Place) :=
  match t.makeDirectories cwd path with
  | .error made => .error made.error
  | .ok t =>
    match t.target cwd path with
    | .ok place => .ok (t.put place (.file []), place)
    | .error error => .error (error.about path)

/-- The tree after a path could not be opened for output: the directories above it that could be
made are there. -/
def attempted (t : FileTree) (cwd path : String) : FileTree :=
  match t.makeDirectories cwd path with
  | .error made => made.tree
  | .ok t => t

end DeclarationBundle.FileTree
