import DeclarationBundle.CommandLine.Snapshot
import DeclarationBundle.Json.Reader

/-!
The program: a session with the arguments that it is called with, in the workplace whose snapshot is
the first line of its input. It prints what the session prints and, if files were written, a last
line with their contents. Without input the workplace is empty.
-/

namespace DeclarationBundle.CommandLine

/-- Holds a session in a workplace. -/
def converse (w : Workplace) (arguments : List String) : IO UInt32 := do
  let session := Session.run w arguments
  session.stdout.forM IO.println
  session.errorLines.forM IO.eprintln
  let changes := Snapshot.changes w.tree session.tree
  unless changes.members.isEmpty do
    IO.println changes.print
  return session.exitCode.toUInt32

end DeclarationBundle.CommandLine

open DeclarationBundle CommandLine in
/-- Reads the snapshot and holds the session; the exit code is the session's. -/
def main (arguments : List String) : IO UInt32 := do
  let line ← (← IO.getStdin).getLine
  match Json.read (if line.isEmpty then "\x7b\x7d" else line) with
  | .ok snapshot =>
    converse (Snapshot.workplace "dtsbundle" "/tmp/declarations" snapshot) arguments
  | .error error =>
    IO.eprintln s!"The snapshot is no JSON: {error.message}"
    return 2
