import DeclarationBundle.Text.Utf8

/-!
# Transcripts

A transcript copies a source and puts other text in the place of parts of it. It knows how far the
source has been dealt with, and the pieces it consists of so far: stretches of the source and texts
put in.

* `Transcript.copyTo` copies up to an offset, `Transcript.replace` puts a text in and passes over
  the source up to an offset. Neither ever goes back.
* `Transcript.bytes` is what the pieces amount to.
-/

namespace DeclarationBundle

/-- A piece of a transcript. -/
inductive Piece where
  /-- The octets of the source from `start` up to `stop`. -/
  | copied (start stop : Nat)
  | inserted (text : String)
  deriving DecidableEq, Repr

/-- The octets of a piece. A stretch that reaches past the end of the source ends there. -/
def Piece.bytes (source : Bytes) : Piece → Bytes
  | .copied start stop => (source.drop start).take (stop - start)
  | .inserted text => Utf8.encode text

/-- A copy in progress. -/
structure Transcript where
  /-- The source is dealt with up to here. -/
  position : Nat
  pieces : List Piece
  deriving DecidableEq, Repr

namespace Transcript

/-- The transcript of nothing yet. -/
def empty : Transcript :=
  ⟨0, []⟩

/-- Copies the source up to `offset`, if it is ahead. -/
def copyTo (t : Transcript) (offset : Nat) : Transcript :=
  if t.position < offset then ⟨offset, t.pieces ++ [.copied t.position offset]⟩ else t

/-- Puts `text` in and passes over the source up to `stop`, if it is ahead. -/
def replace (t : Transcript) (text : String) (stop : Nat) : Transcript :=
  ⟨max t.position stop, t.pieces ++ [.inserted text]⟩

/-- What the pieces amount to. -/
def bytes (source : Bytes) (t : Transcript) : Bytes :=
  t.pieces.flatMap (Piece.bytes source)

/-- The text that the pieces amount to. -/
def text (source : Bytes) (t : Transcript) : Except Utf8.DecodeError String :=
  Utf8.decode (t.bytes source)

end Transcript

end DeclarationBundle
