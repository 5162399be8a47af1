/-!
# UTF-8

Bytes are a list of octets. `Utf8.encode` writes text, `Utf8.decode` reads it back or says where and
why it stops: at an octet that cannot start a character, at a character cut short by an octet that
does not continue it, or at a character cut short by the end.

* A fault covers the octets of the character that were read before it was found.
* `Utf8.decodeMarked` passes over a byte order mark at the beginning.
-/

namespace DeclarationBundle

/-- A row of octets. -/
abbrev Bytes := List UInt8

namespace Utf8

/-- The octets of a text. -/
def encode (s : String) : Bytes :=
  s.toList.flatMap String.utf8EncodeChar

/-- Why some octets are no text. -/
inductive Fault
  | invalidStart
  | invalidContinuation
  | unexpectedEnd
  deriving DecidableEq, Repr

/-- The wording of a fault. -/
def Fault.message : Fault → String
  | .invalidStart => "invalid start byte"
  | .invalidContinuation => "invalid continuation byte"
  | .unexpectedEnd => "unexpected end of data"

/-- Octets that are no text: the fault, the octets it covers from `start` up to `stop`, and the
first of them. -/
structure DecodeError where
  fault : Fault
  start : Nat
  stop : Nat
  byte : UInt8
  deriving DecidableEq, Repr

/-- Two hexadecimal digits. -/
def hexByte (b : UInt8) : String :=
  let digits := Nat.toDigits 16 b.toNat
  String.ofList (List.replicate (2 - digits.length) '0' ++ digits)

/-- The wording of an error. -/
def DecodeError.message (e : DecodeError) : String :=
  if e.stop = e.start + 1 then
    s!"'utf-8' codec can't decode byte 0x{hexByte e.byte} in position {e.start}: {e.fault.message}"
  else
    s!"'utf-8' codec can't decode bytes in position {e.start}-{e.stop - 1}: {e.fault.message}"

/-- What the first octet of a character asks for: how many octets continue it, the bits it brings,
and the least and greatest value of the octet after it. -/
structure Lead where
  tails : Nat
  bits : Nat
  least : Nat
  greatest : Nat

/-- What an octet asks for, if it can start a character. The bounds on the second octet leave out
overlong forms, surrogates and numbers past the last code point. -/
def lead? (b : UInt8) : Option Lead :=
  let n := b.toNat
  if n < 0x80 then some ⟨0, n, 0, 0⟩
  else if n < 0xC2 then none
  else if n < 0xE0 then some ⟨1, n - 0xC0, 0x80, 0xBF⟩
  else if n = 0xE0 then some ⟨2, 0, 0xA0, 0xBF⟩
  else if n = 0xED then some ⟨2, 0xD, 0x80, 0x9F⟩
  else if n < 0xF0 then some ⟨2, n - 0xE0, 0x80, 0xBF⟩
  else if n = 0xF0 then some ⟨3, 0, 0x90, 0xBF⟩
  else if n < 0xF4 then some ⟨3, n - 0xF0, 0x80, 0xBF⟩
  else if n = 0xF4 then some ⟨3, 4, 0x80, 0x8F⟩
  else none

/-- Where the decoder stands: between characters, or inside one that began at `start` with `first`
and has `owed` octets to come, the next of them within bounds. -/
inductive State
  | between
  | inside (start : Nat) (first : UInt8) (owed value least greatest : Nat)

/-- Decodes from the octet at `offset`. -/
def decodeFrom : State → Nat → Bytes → Except DecodeError (List Char)
  | .between, _, [] => .ok []
  | .inside start first _ _ _ _, offset, [] => .error ⟨.unexpectedEnd, start, offset, first⟩
  | .between, offset, b :: rest =>
    match lead? b with
    | none => .error ⟨.invalidStart, offset, offset + 1, b⟩
    | some lead =>
      if lead.tails = 0 then
        (decodeFrom .between (offset + 1) rest).map (Char.ofNat lead.bits :: ·)
      else
        decodeFrom (.inside offset b lead.tails lead.bits lead.least lead.greatest)
          (offset + 1) rest
  | .inside start first owed value least greatest, offset, b :: rest =>
    if b.toNat < least ∨ greatest < b.toNat then .error ⟨.invalidContinuation, start, offset, first⟩
    else
      let value := value * 64 + (b.toNat - 0x80)
      if owed = 1 then (decodeFrom .between (offset + 1) rest).map (Char.ofNat value :: ·)
      else decodeFrom (.inside start first (owed - 1) value 0x80 0xBF) (offset + 1) rest

/-- The text that some octets write. -/
def decode (bytes : Bytes) : Except DecodeError String :=
  (decodeFrom .between 0 bytes).map String.ofList

/-- The text that some octets write after a byte order mark, if there is one. Octets that could only
grow into a mark are no text yet. -/
def decodeMarked (bytes : Bytes) : Except DecodeError String :=
  match bytes with
  | 0xEF :: 0xBB :: 0xBF :: rest => decode rest
  | [0xEF] | [0xEF, 0xBB] => .ok ""
  | _ => decode bytes

end Utf8

end DeclarationBundle
