import VolumeBroker.Text.Digit
import VolumeBroker.Text.Magnitude
import VolumeBroker.Toml.Item
import VolumeBroker.Toml.Reader

/-!
# Numbers, truth values and dates of TOML

Numerals may have single underscores between digits.  An integer must fit 64 bits, with its sign; a
decimal fraction must not be beyond all finite numbers, unless it is negative.  A date is one of the
calendar.
-/

set_option autoImplicit false

namespace VolumeBroker.Toml

open Reader

/-- Takes an underscore if there is one, and a digit. -/
def laterDigit (base : Nat) : Reader Char := do
  let _ ← optional (mark '_')
  one (Text.isDigitOf base)

/-- Takes digits with single underscores between them. -/
def digits (base bound : Nat) : Reader (List Char) := do
  let first ← one (Text.isDigitOf base)
  return first :: (← many (laterDigit base) bound)

/-- Takes a sign, if there is one; tells whether it is a minus. -/
def sign : Reader Bool :=
  ((fun _ => true) <$> mark '-') <|> ((fun _ => false) <$> mark '+') <|> pure false

/-- Takes the digits of a decimal whole number, which begin with a zero only if that is all. -/
def wholeDigits (bound : Nat) : Reader (List Char) := do
  let first ← one (·.isDigit)
  if first == '0' then return [first]
  return first :: (← many (laterDigit 10) bound)

/-- Whether a number fits 64 bits with a sign. -/
def fits64 (n : Int) : Bool := (Int64.ofInt n).toInt == n

/-- The item of an integer, if it fits. -/
def integerItem (n : Int) : Reader Item := if fits64 n then return .integer n else failure

/-- Reads a whole number in decimal, with or without a sign. -/
def decimalInteger (bound : Nat) : Reader Item := do
  let negative ← sign
  let n : Int := Text.digitsValue 10 (← wholeDigits bound)
  integerItem (if negative then -n else n)

/-- Takes an integer of another base, after its two leading characters. -/
def basedInteger (lead : String) (base bound : Nat) : Reader Item := do
  marks lead
  integerItem (Text.digitsValue base (← digits base bound))

/-- Reads a whole number, whose prefix says the base. -/
def integer (bound : Nat) : Reader Item := do
  if ← comes "0x" then basedInteger "0x" 16 bound
  else if ← comes "0o" then basedInteger "0o" 8 bound
  else if ← comes "0b" then basedInteger "0b" 2 bound
  else decimalInteger bound

/-- Reads the power of ten of a number. -/
def exponent (bound : Nat) : Reader Int := do
  let _ ← one fun c => c == 'e' || c == 'E'
  let negative ← sign
  let n : Int := Text.digitsValue 10 (← digits 10 bound)
  return if negative then -n else n

/-- Takes a number with a fraction, an exponent or both. -/
def decimalFraction (bound : Nat) : Reader Item := do
  let negative ← sign
  let whole ← wholeDigits bound
  let fraction ← optional (mark '.' *> digits 10 bound)
  let power ← match fraction with
    | none => exponent bound
    | some _ => (·.getD 0) <$> optional (exponent bound)
  let fraction := fraction.getD []
  let finite :=
    Text.isFiniteDecimal (Text.digitsValue 10 (whole ++ fraction)) (power - fraction.length)
  if negative || finite then return .float else failure

/-- Takes infinity or what is no number. -/
def specialFloat : Reader Item := do
  let _ ← sign
  marks "inf" <|> marks "nan"
  return .float

/-- Reads a truth value. -/
def boolean : Reader Item :=
  ((fun _ => .boolean true) <$> marks "true") <|> ((fun _ => .boolean false) <$> marks "false")

/-! ## Dates and times -/

/-- Takes a number of so many decimal digits within bounds. -/
def fixedNumber (width low high : Nat) : Reader Nat := do
  let n := Text.digitsValue 10 (← exactly width (·.isDigit))
  if low ≤ n ∧ n ≤ high then return n else failure

/-- The number of days of a month. -/
def daysIn (year month : Nat) : Nat :=
  if month = 2 then
    if year % 4 = 0 ∧ (year % 100 ≠ 0 ∨ year % 400 = 0) then 29 else 28
  else if month = 4 ∨ month = 6 ∨ month = 9 ∨ month = 11 then 30
  else 31

/-- Reads a date that the calendar has. -/
def date : Reader Unit := do
  let year ← fixedNumber 4 0 9999
  mark '-'
  let month ← fixedNumber 2 1 12
  mark '-'
  let _ ← fixedNumber 2 1 (daysIn year month)

/-- Reads a time of day, with a second in reserve. -/
def time : Reader Unit := do
  let _ ← fixedNumber 2 0 23
  mark ':'
  let _ ← fixedNumber 2 0 59
  mark ':'
  let _ ← fixedNumber 2 0 60
  let _ ← optional do
    mark '.'
    if (← span (·.isDigit)).isEmpty then failure

/-- Reads the offset of a time from the common one. -/
def offset : Reader Unit := do
  let c ← next
  if c == 'Z' || c == 'z' then return
  if c != '+' && c != '-' then failure
  let _ ← fixedNumber 2 0 23
  mark ':'
  let _ ← fixedNumber 2 0 59

/-- Takes a date, a time or both. -/
def datetime : Reader Item := do
  (do
    date
    let _ ← optional do
      let _ ← one fun c => c == 'T' || c == 't' || c == ' '
      time
      optional offset) <|> time
  return .datetime

/-- Takes a scalar that is no string. -/
def scalar (bound : Nat) : Reader Item :=
  datetime <|> decimalFraction bound <|> specialFloat <|> integer bound <|> boolean

end VolumeBroker.Toml
