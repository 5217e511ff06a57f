import VolumeBroker.Text.Digit

/-!
# Numbers inside addresses

The numbers of an address are runs of digits that end where the digits do.  A reader takes what it
understands off the front of a text and gives the rest back.
-/

set_option autoImplicit false

namespace VolumeBroker.Address

open Text

/-- The shape of a number: its base, the greatest value, the greatest number of digits if there is
one, and whether a zero may stand in front of other digits. -/
structure NumberShape where
  base : Nat
  bound : Nat
  maxDigits : Option Nat := none
  leadingZeros : Bool := true

/-- A part of an IPv4 address: up to three digits, none of them a superfluous zero. -/
def octetShape : NumberShape := ⟨10, 0xFF, some 3, false⟩

/-- A part of an IPv6 address: up to four digits of base sixteen. -/
def groupShape : NumberShape := ⟨16, 0xFFFF, some 4, true⟩

/-- A port, with as many zeros in front as one likes. -/
def portShape : NumberShape := ⟨10, 0xFFFF, none, true⟩

/-- A scope, with as many zeros in front as one likes. -/
def scopeShape : NumberShape := ⟨10, 0xFFFFFFFF, none, true⟩

/-- Whether digits, as many as there are, make a number of the shape. -/
def NumberShape.admits (shape : NumberShape) (digits : List Char) : Bool :=
  !digits.isEmpty && shape.maxDigits.all (digits.length ≤ ·) &&
    (shape.leadingZeros || digits.length == 1 || digits.head? != some '0') &&
    digitsValue shape.base digits ≤ shape.bound

/-- Takes a number off the front of a text. -/
def readNumber (shape : NumberShape) (cs : List Char) : Option (Nat × List Char) :=
  let digits := cs.takeWhile (isDigitOf shape.base)
  if shape.admits digits then
    some (digitsValue shape.base digits, cs.dropWhile (isDigitOf shape.base))
  else none

/-- Takes a character off the front of a text. -/
def readMark (mark : Char) : List Char → Option (List Char)
  | [] => none
  | c :: rest => if c = mark then some rest else none

end VolumeBroker.Address
