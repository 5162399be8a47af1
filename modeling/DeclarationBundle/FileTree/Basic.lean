import DeclarationBundle.Path.Basic
import DeclarationBundle.SystemError
import DeclarationBundle.Text.Utf8

/-!
# Trees of files

A tree of files gives an entry to some places, a place being the names on the way down from the
root. A directory is there as soon as anything lies in it.

* `FileTree.follow` leads along the segments of a path: only directories can be passed through, and
  `..` leads back up from wherever the path has led.
* `FileTree.stat` is the entry that a path leads to, `FileTree.read` the octets of a file.
-/

namespace DeclarationBundle

/-- What there is at a place. -/
inductive Entry where
  | file (bytes : Bytes)
  | directory
  deriving DecidableEq, Repr

/-- The names on the way down from the root. -/
abbrev Place := List String

/-- A tree of files, by the places of its entries. -/
structure FileTree where
  entries : List (Place × Entry)
  deriving DecidableEq, Repr

namespace FileTree

/-- The tree of nothing but the root. -/
def empty : FileTree :=
  ⟨[]⟩

/-- The tree with `entry` at a place. -/
def put (t : FileTree) (place : Place) (entry : Entry) : FileTree :=
  ⟨(place, entry) :: t.entries.filter (·.1 != place)⟩

/-- The entry at a place. The root is a directory, and so is a place that something lies beneath. -/
def find? (t : FileTree) (place : Place) : Option Entry :=
  match t.entries.lookup place with
  | some entry => some entry
  | none =>
    if place.isEmpty || t.entries.any fun e => place.isPrefixOf e.1 then some .directory else none

/-- The name that `inner` has in the directory at `place`, if it lies beneath it. -/
def childName? : Place → Place → Option String
  | [], name :: _ => some name
  | p :: place, q :: inner => if p = q then childName? place inner else none
  | _, [] => none

/-- The names in the directory at a place, each once. -/
def names (t : FileTree) (place : Place) : List String :=
  (t.entries.filterMap fun e => childName? place e.1).eraseDups

/-- The most octets that a name may have. -/
def maxNameLength : Nat := 255

/-- The number of octets that a path must stay below. -/
def maxPathLength : Nat := 4096

/-- **Follows the segments of a path** from a place. The place that they lead to need not be there,
but every place on the way has to be a directory. -/
def follow (t : FileTree) (place : Place) : List String → Except Errno Place
  | [] => .ok place
  | name :: rest =>
    match t.find? place with
    | none => .error .noEntry
    | some (.file _) => .error .notDirectory
    | some .directory =>
      if name = "" ∨ name = "." then follow t place rest
      else if name = ".." then follow t place.dropLast rest
      else if maxNameLength < (Utf8.encode name).length then .error .nameTooLong
      else follow t (place ++ [name]) rest

/-- The place of a directory given by an absolute path in any form. -/
def placeOf (path : String) : Place :=
  Path.resolve true (Path.segments path)

/-- The place that a path starts from. -/
def origin (cwd path : String) : Place :=
  if Path.isAbsolute path then [] else placeOf cwd

/-- Refuses the paths that are followed nowhere. Whether a path can be handed to the system at all
comes first. -/
def checkPath (path : String) : Except (PathError Errno) Unit :=
  if Path.hasNull path then .error .null
  else if path = "" then .error (.system .noEntry)
  else if maxPathLength ≤ (Utf8.encode path).length then .error (.system .nameTooLong)
  else .ok ()

/-- **What a path leads to** from the directory `cwd`. -/
def stat (t : FileTree) (cwd path : String) : Except (PathError Errno) Entry := do
  checkPath path
  let place ← (t.follow (origin cwd path) (Path.segments path)).mapError .system
  match t.find? place with
  | none => .error (.system .noEntry)
  | some entry => .ok entry

/-- The octets of the file that a path leads to. -/
def read (t : FileTree) (cwd path : String) : Except (PathError SystemError) Bytes :=
  match t.stat cwd path with
  | .ok (.file bytes) => .ok bytes
  | .ok .directory => .error (.system ⟨.isDirectory, some path⟩)
  | .error error => .error (error.about path)

/-- Whether a path leads to something. -/
def hasEntry (t : FileTree) (cwd path : String) : Bool :=
  (t.stat cwd path).toOption.isSome

/-- Whether a path leads to a directory. -/
def isDirectory (t : FileTree) (cwd path : String) : Bool :=
  match t.stat cwd path with
  | .ok .directory => true
  | _ => false

/-- Whether a path leads to a file. -/
def isFile (t : FileTree) (cwd path : String) : Bool :=
  match t.stat cwd path with
  | .ok (.file _) => true
  | _ => false

end FileTree

end DeclarationBundle
