import VolumeBroker.Text.Digit
import VolumeBroker.Text.Magnitude

/-!
# Numbers of JSON

A number literal is a sign, a whole part without superfluous zeros, a fraction and an exponent.
Where the value of a number matters at all it is only asked whether it fits a floating-point number
of 64 bits.  The question is put to the number as it is read there: a significand of at most 64 bits
is filled digit by digit, what no longer fits it counts as a power of ten, and significand and power
are each rounded before they are multiplied.
-/

set_option autoImplicit false

namespace VolumeBroker.Json

/-- A number as written. -/
structure Number where
  negative : Bool
  whole : List Char
  /-- The digits after the point, none where there is no point. -/
  fraction : List Char
  /-- The power of ten, zero where none is written. -/
  exponent : Int
  deriving DecidableEq, Repr

namespace Number

/-- Reads what may follow the digits of a number: nothing, or a mark, a sign and digits. -/
def readExponent? : List Char → Option Int
  | [] => some 0
  | mark :: rest =>
    if mark != 'e' && mark != 'E' then none
    else
      let (sign, digits) : Int × List Char := match rest with
        | '+' :: digits => (1, digits)
        | '-' :: digits => (-1, digits)
        | digits => (1, digits)
      if digits.isEmpty || !digits.all Char.isDigit then none
      else some (sign * Text.digitsValue 10 digits)

/-- Reads a number literal; the whole text must be one. -/
def read? (cs : List Char) : Option Number :=
  let (negative, cs) := match cs with
    | '-' :: rest => (true, rest)
    | _ => (false, cs)
  let whole := cs.takeWhile Char.isDigit
  let rest := cs.dropWhile Char.isDigit
  if whole.isEmpty || (whole.head? == some '0' && 1 < whole.length) then none
  else match rest with
    | '.' :: rest =>
      let fraction := rest.takeWhile Char.isDigit
      if fraction.isEmpty then none
      else (readExponent? (rest.dropWhile Char.isDigit)).map (⟨negative, whole, fraction, ·⟩)
    | rest => (readExponent? rest).map (⟨negative, whole, [], ·⟩)

/-- Appends digits to a significand while it stays within 64 bits, and counts those left out. -/
def fill (significand : Nat) : List Char → Nat × Nat
  | [] => (significand, 0)
  | c :: rest =>
    let next := significand * 10 + (Text.digitValue? 10 c).getD 0
    if next < UInt64.size then fill next rest else (significand, rest.length + 1)

/-- Whether `significand` times ten to the power `exponent` is finite. -/
def isFinite (significand : Nat) (exponent : Int) : Bool :=
  match exponent with
  | .ofNat e =>
    significand == 0 ||
      (e ≤ 308 &&
        Text.roundTo53Bits significand * Text.roundTo53Bits (Nat.pow 10 e) < Text.overflowBound)
  | .negSucc _ => true

/-- Whether the number fits a floating-point number of 64 bits. -/
def fits (n : Number) : Bool :=
  let (significand, beyond) := fill 0 n.whole
  let (significand, unused) := fill significand n.fraction
  isFinite significand (beyond - (n.fraction.length - unused) + n.exponent)

end Number

end VolumeBroker.Json
