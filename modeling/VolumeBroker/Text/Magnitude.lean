/-!
# How large a floating-point number can be

A decimal numeral is finite as a floating-point number of 64 bits when it does not round to
infinity.  The question is answered in whole numbers: a numeral is infinite from `overflowBound` on,
which lies half a step above the greatest finite number.
-/

set_option autoImplicit false

namespace VolumeBroker.Text

/-- The least number that rounds to infinity. -/
def overflowBound : Nat := (1 <<< 1024) - (1 <<< 970)

/-- The nearest number with 53 significant bits; a tie goes to the even one. -/
def roundTo53Bits (n : Nat) : Nat :=
  if n < 1 <<< 53 then n
  else
    let unit := 1 <<< (n.log2 - 52)
    let quotient := n / unit
    let rest := 2 * (n % unit)
    (if unit < rest ∨ (rest = unit ∧ quotient % 2 = 1) then quotient + 1 else quotient) * unit

/-- Whether a significand times a power of ten is finite.  The number of digits settles all but the
close cases. -/
def isFiniteDecimal (significand : Nat) (exponent : Int) : Bool :=
  let size : Int := (Nat.toDigits 10 significand).length + exponent
  if significand = 0 ∨ size < 300 then true
  else if 310 < size then false
  else match exponent with
    | .ofNat e => significand * Nat.pow 10 e < overflowBound
    | .negSucc e => significand < overflowBound * Nat.pow 10 (e + 1)

end VolumeBroker.Text
