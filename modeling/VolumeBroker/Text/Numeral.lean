import VolumeBroker.Text.Digit

/-!
# Numerals of bounded size

A port is written as an optional plus and decimal digits.  `readBounded` reads such a numeral from
left to right and stops at the first trouble: a character that is no digit, or a value above the
bound.  Leading zeros are allowed, so the length of a numeral says nothing about its value.
-/

set_option autoImplicit false

namespace VolumeBroker.Text

/-- Why a text is not a numeral of the wanted size. -/
inductive NumeralFault
  /-- Something that is not a digit stands where a digit must. -/
  | invalidDigit
  | tooLarge
  deriving DecidableEq, Repr

/-- The complaint in words. -/
def NumeralFault.message : NumeralFault → String
  | .invalidDigit => "invalid digit found in string"
  | .tooLarge => "number too large to fit in target type"

/-- Reads digits after a value already read, up to the first fault. -/
def readDigits (bound value : Nat) : List Char → Except NumeralFault Nat
  | [] => .ok value
  | c :: rest =>
    match digitValue? 10 c with
    | none => .error .invalidDigit
    | some d =>
      let value := value * 10 + d
      if bound < value then .error .tooLarge else readDigits bound value rest

/-- Reads an optional plus and at least one digit, with a value of at most `bound`. -/
def readBounded (bound : Nat) (cs : List Char) : Except NumeralFault Nat :=
  let digits := match cs with
    | '+' :: rest => rest
    | _ => cs
  if digits.isEmpty then .error .invalidDigit else readDigits bound 0 digits

/-- The greatest port. -/
def maxPort : Nat := 65535

end VolumeBroker.Text
