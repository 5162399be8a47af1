import DeclarationBundle.Bundle.Section
import DeclarationBundle.SystemError

/-!
# Outputs

An output passes text on to a sink, which may refuse it. It is closed once, and it is complete if it
was closed in good order and the sink did not fail in closing.

* A write that the sink refuses stores nothing and leaves the output open.
* Nothing can be written to a closed output, and to close it again does nothing.
* `Output.leave` closes an output that has been given up: what is in it stays, it is never complete,
  and a sink that fails in closing is only noted.
-/

namespace DeclarationBundle

/-- How a sink behaves: what it answers to its `n`-th write, counted from zero, and to being
closed. -/
structure Behaviour where
  onWrite : Nat → String → Option Errno
  onClose : Option Errno

/-- A sink that takes everything. -/
def Behaviour.faultless : Behaviour :=
  ⟨fun _ _ => none, none⟩

/-- Where text ends up. -/
structure Sink where
  text : String
  /-- How many writes were asked of it while it was open. -/
  writes : Nat
  /-- How many times it was closed. -/
  closings : Nat
  deriving DecidableEq, Repr

/-- An output, by the path it is known under. -/
structure Output where
  behaviour : Behaviour
  path : Option String
  sink : Sink
  isClosed : Bool
  isComplete : Bool
  warnings : List String

namespace Output

/-- What can go wrong with an output. -/
inductive Error where
  | opening (path : String) (error : SystemError)
  | writing (path : Option String) (errno : Errno)
  | closing (path : Option String) (errno : Errno)
  /-- A write after the output was closed. -/
  | closed
  deriving DecidableEq, Repr

/-- The name of an output in a message. -/
def label (path : Option String) : String :=
  match path with
  | none => "output"
  | some path => if path = "" then "output" else path

/-- The wording of an error. -/
def Error.message : Error → String
  | .opening path error => s!"Could not open {path}: {error.message}"
  | .writing path errno => s!"Failed writing {label path}: {(SystemError.mk errno none).message}"
  | .closing path errno => s!"Failed closing {label path}: {(SystemError.mk errno none).message}"
  | .closed => "I/O operation on closed file."

/-- An output that nothing was written to. -/
def fresh (behaviour : Behaviour) (path : Option String) : Output :=
  ⟨behaviour, path, ⟨"", 0, 0⟩, false, false, []⟩

/-- Writes a text. -/
def write (o : Output) (text : String) : Output × Option Error :=
  if 0 < o.sink.closings then (o, some .closed)
  else
    match o.behaviour.onWrite o.sink.writes text with
    | some errno =>
      ({ o with sink := { o.sink with writes := o.sink.writes + 1 } }, some (.writing o.path errno))
    | none =>
      ({ o with sink := { o.sink with text := o.sink.text ++ text, writes := o.sink.writes + 1 } },
        none)

/-- Writes some texts up to the first that fails. -/
def writeAll (o : Output) : List String → Output × Option Error
  | [] => (o, none)
  | text :: texts =>
    match o.write text with
    | (o, some error) => (o, some error)
    | (o, none) => writeAll o texts

/-- Writes a section. -/
def put (style : Style) (o : Output) (s : Section) : Output × Option Error :=
  o.writeAll (s.writes style)

/-- The output with its sink closed. -/
def shut (o : Output) : Output :=
  { o with isClosed := true, sink := { o.sink with closings := o.sink.closings + 1 } }

/-- Closes an output in good order. -/
def close (o : Output) : Output × Option Error :=
  if o.isClosed then (o, none)
  else
    match o.behaviour.onClose with
    | some errno => (o.shut, some (.closing o.path errno))
    | none => ({ o.shut with isComplete := true }, none)

/-- The path of an output in the note about one that was given up. -/
def noteLabel (path : Option String) : String :=
  path.getD "None"

/-- Closes an output that has been given up. -/
def leave (o : Output) : Output :=
  if o.isClosed then o
  else
    match o.behaviour.onClose with
    | some errno =>
      { o.shut with warnings := o.warnings ++
          [s!"Could not close partial output {noteLabel o.path}: " ++
            (SystemError.mk errno none).message] }
    | none => o.shut

/-- What can be done with an output. -/
inductive Operation where
  | write (text : String)
  | put (s : Section)
  | close
  /-- Leaving the part of a program that the output was opened for, with an exception or not. -/
  | leave (failed : Bool)
  deriving DecidableEq, Repr

/-- **Does one thing with an output.** -/
def perform (style : Style) (o : Output) : Operation → Output × Option Error
  | .write text => o.write text
  | .put s => o.put style s
  | .close => o.close
  | .leave false => o.close
  | .leave true => (o.leave, none)

end Output

end DeclarationBundle
