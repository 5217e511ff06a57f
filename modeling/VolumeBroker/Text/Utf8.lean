/-!
# Reading bytes that may not be UTF-8

Programs print bytes.  `decodeLossy` reads them as UTF-8 and never fails: each longest run of bytes
that begins a character without completing one becomes a single U+FFFD, and so does each byte that
begins no character.  The reader is a machine that takes one byte at a time; between bytes it holds
the character it has begun, with the range the next byte must lie in.
-/

set_option autoImplicit false

namespace VolumeBroker.Text

/-- The character that stands for bytes that are not UTF-8. -/
def replacement : Char := '\uFFFD'

/-- A character of several bytes that has been begun. -/
structure Begun where
  /-- How many bytes are still to come. -/
  needed : Nat
  /-- The least value of the next byte. -/
  low : Nat
  /-- The greatest value of the next byte. -/
  high : Nat
  /-- The bits of the bytes read so far. -/
  bits : Nat
  deriving DecidableEq, Repr

/-- What a byte at the start of a character does: the characters that are complete with it, and the
character it begins. -/
def firstByte (b : Nat) : List Char × Option Begun :=
  if b < 0x80 then ([Char.ofNat b], none)
  else if b < 0xC2 then ([replacement], none)
  else if b < 0xE0 then ([], some ⟨1, 0x80, 0xBF, b - 0xC0⟩)
  else if b = 0xE0 then ([], some ⟨2, 0xA0, 0xBF, 0⟩)
  else if b = 0xED then ([], some ⟨2, 0x80, 0x9F, 0xD⟩)
  else if b < 0xF0 then ([], some ⟨2, 0x80, 0xBF, b - 0xE0⟩)
  else if b = 0xF0 then ([], some ⟨3, 0x90, 0xBF, 0⟩)
  else if b < 0xF4 then ([], some ⟨3, 0x80, 0xBF, b - 0xF0⟩)
  else if b = 0xF4 then ([], some ⟨3, 0x80, 0x8F, 4⟩)
  else ([replacement], none)

/-- What a byte does to the character begun before it.  A byte out of range ends that character
unfinished and is then read as a first byte. -/
def nextByte (begun : Option Begun) (b : Nat) : List Char × Option Begun :=
  match begun with
  | none => firstByte b
  | some p =>
    if p.low ≤ b ∧ b ≤ p.high then
      let bits := p.bits * 0x40 + (b - 0x80)
      if p.needed ≤ 1 then ([Char.ofNat bits], none)
      else ([], some ⟨p.needed - 1, 0x80, 0xBF, bits⟩)
    else
      let (done, begun) := firstByte b
      (replacement :: done, begun)

/-- The characters read from the bytes, after a character that may have been begun. -/
def decodeFrom (begun : Option Begun) : List UInt8 → List Char
  | [] => if begun.isSome then [replacement] else []
  | b :: rest =>
    let (done, begun) := nextByte begun b.toNat
    done ++ decodeFrom begun rest

/-- The text of the bytes, with U+FFFD for whatever is not UTF-8. -/
def decodeLossy (bytes : ByteArray) : String :=
  String.ofList (decodeFrom none bytes.toList)

end VolumeBroker.Text
