import DeclarationBundle.CommandLine.Session
import DeclarationBundle.Json.Printer
import DeclarationBundle.Syntax.Tree

/-!
# Snapshots

A snapshot writes a workplace down as one JSON object, so that a session can be held without
touching a disk or running a compiler. Its members are

* `cwd`, the working directory;
* `files`, the contents of each file by its path, either a text or an object whose member `hex`
  gives the octets; a path that ends in a slash is an empty directory;
* `compiler`, what the compiler does: the texts `stdout` and `stderr` that it prints, the files
  `emit` that it writes, and whether it cannot be found (`found` is false) or started (`run_error`
  is true).

What is left out is empty. `Snapshot.changes` are the files that a session wrote, in the form of
`files`. Nothing else goes wrong in the workplace of a snapshot: its output takes everything, and
its stack is as deep as need be. Declarations are read by `Syntax.parse`.
-/

namespace DeclarationBundle.CommandLine.Snapshot

/-- The octets that pairs of hexadecimal digits write. -/
def ofHex : List Char → Bytes
  | a :: b :: rest =>
    UInt8.ofNat ((Json.hexDigit? a).getD 0 * 16 + (Json.hexDigit? b).getD 0) :: ofHex rest
  | _ => []

/-- The pairs of hexadecimal digits that write some octets. -/
def toHex (bytes : Bytes) : String :=
  String.join (bytes.map fun byte => Text.drop (Json.hexUnit byte.toNat) 2)

/-- The contents of a file. -/
def contents (value : Json) : Bytes :=
  match value with
  | .string text => Utf8.encode text
  | _ => ofHex ((value.get "hex").text?.getD "").toList

/-- The entry that a path and its contents describe. -/
def entry (path : String) (value : Json) : Entry :=
  if path.endsWith "/" then .directory else .file (contents value)

/-- **The files that an object describes**, by their paths. -/
def files (value : Json) : FileTree :=
  value.members.foldl (fun t m => t.put (FileTree.placeOf m.1) (entry m.1 m.2)) .empty

/-- What a compiler prints on one stream. -/
def printed (compiler : Json) (stream : String) : Bytes :=
  Utf8.encode ((compiler.get stream).text?.getD "")

/-- A machine on which every word stands for the program of that name. -/
def machine (outDir : String) (compiler : Json) : Machine where
  locate word := if (compiler.get "found").isBool false then none else some ("/usr/bin/" ++ word)
  scratchPath := .ok outDir
  run _ :=
    if (compiler.get "run_error").isBool true then .error ⟨.permissionDenied, none⟩
    else .ok ⟨printed compiler "stdout", printed compiler "stderr",
      .plain (files (compiler.get "emit"))⟩
  removal _ := none

/-- The working directory where none is given. -/
def defaultCwd : String := "/work"

/-- The working directory of a snapshot. -/
def cwd (snapshot : Json) : String :=
  (snapshot.get "cwd").text?.getD defaultCwd

/-- The files of a snapshot. The working directory is always there. -/
def tree (snapshot : Json) : FileTree :=
  (files (snapshot.get "files")).put (FileTree.placeOf (cwd snapshot)) .directory

/-- **The workplace of a snapshot**, for a program called by some name. -/
def workplace (program outDir : String) (snapshot : Json) : Workplace :=
  { program, cwd := cwd snapshot, tree := tree snapshot
    machine := machine outDir (snapshot.get "compiler")
    parse := Syntax.parse, behaviour := .faultless, stack := .unbounded }

/-- The contents of a file as a value: the text if it is one, and the octets otherwise. -/
def ofContents (bytes : Bytes) : Json :=
  match Utf8.decode bytes with
  | .ok text => .string text
  | .error _ => .object [("hex", .string (toHex bytes))]

/-- **The files that are not in both of two trees alike**, as they are in the second. -/
def changes (before after : FileTree) : Json :=
  .object (after.entries.filterMap fun e =>
    match e with
    | (place, .file bytes) =>
      if before.find? place = some (.file bytes) then none
      else some ("/" ++ "/".intercalate place, ofContents bytes)
    | (_, .directory) => none)

end DeclarationBundle.CommandLine.Snapshot
