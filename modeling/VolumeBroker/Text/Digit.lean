/-!
# Digits

The digits of the bases up to sixteen, in either case, and the value of a run of them.
-/

set_option autoImplicit false

namespace VolumeBroker.Text

/-- The value of a digit of base sixteen. -/
def hexValue? (c : Char) : Option Nat :=
  if c.isDigit then some (c.toNat - '0'.toNat)
  else if 'a' ≤ c ∧ c ≤ 'f' then some (c.toNat - 'a'.toNat + 10)
  else if 'A' ≤ c ∧ c ≤ 'F' then some (c.toNat - 'A'.toNat + 10)
  else none

/-- The value of a digit in the given base. -/
def digitValue? (base : Nat) (c : Char) : Option Nat := (hexValue? c).filter (· < base)

/-- Whether a character is a digit in the given base. -/
def isDigitOf (base : Nat) (c : Char) : Bool := (digitValue? base c).isSome

/-- The value of a run of digits, after a value already read. -/
def valueAfter (base value : Nat) (digits : List Char) : Nat :=
  digits.foldl (fun value c => value * base + (digitValue? base c).getD 0) value

/-- The value of a run of digits. -/
def digitsValue (base : Nat) (digits : List Char) : Nat := valueAfter base 0 digits

/-- One decimal digit or more, and nothing else. -/
def IsDigits (cs : List Char) : Prop := cs ≠ [] ∧ ∀ c ∈ cs, c.isDigit = true

/-- A run of digits is what passes the two questions that readers ask. -/
theorem isDigits_iff {cs : List Char} :
    IsDigits cs ↔ ¬ (cs.isEmpty || !cs.all Char.isDigit) = true := by
  simp [IsDigits]

/-- Two runs of digits are read as one after the other. -/
theorem valueAfter_append (base value : Nat) (ds es : List Char) :
    valueAfter base value (ds ++ es) = valueAfter base (valueAfter base value ds) es := by
  simp [valueAfter]

/-- A digit that is written is read back. -/
theorem digitValue?_digitChar {base n : Nat} (hb : base ≤ 16) (hn : n < base) :
    digitValue? base n.digitChar = some n := by
  have all : ∀ m, m < 16 → hexValue? m.digitChar = some m := by decide
  simp [digitValue?, all n (by omega), hn]

/-- The digits that a number is written with have its value. -/
theorem digitsValue_toDigits {base : Nat} (hb : 1 < base) (hb' : base ≤ 16) (n : Nat) :
    digitsValue base (Nat.toDigits base n) = n := by
  induction n using Nat.strongRecOn with
  | ind n ih =>
    by_cases h : n < base
    · rw [Nat.toDigits_of_lt_base h]
      simp [digitsValue, valueAfter, digitValue?_digitChar hb' h]
    · have hdiv : 0 < n / base := Nat.div_pos (by omega) (by omega)
      have hmod : n % base < base := Nat.mod_lt _ (by omega)
      rw [Nat.toDigits_of_base_le hb (by omega), digitsValue, valueAfter_append]
      have := ih (n / base) (Nat.div_lt_self (by omega) hb)
      rw [digitsValue] at this
      rw [this]
      simp only [valueAfter, List.foldl_cons, List.foldl_nil, digitValue?_digitChar hb' hmod,
        Option.getD_some]
      rw [Nat.mul_comm]
      exact Nat.div_add_mod n base

/-- The digits that a number is written with are digits. -/
theorem isDigitOf_of_mem_toDigits {base : Nat} (hb : 1 < base) (hb' : base ≤ 16) {n : Nat}
    {c : Char} (hc : c ∈ Nat.toDigits base n) : isDigitOf base c = true := by
  induction n using Nat.strongRecOn with
  | ind n ih =>
    by_cases h : n < base
    · rw [Nat.toDigits_of_lt_base h, List.mem_singleton] at hc
      simp [isDigitOf, hc, digitValue?_digitChar hb' h]
    · rw [Nat.toDigits_of_base_le hb (by omega), List.mem_append, List.mem_singleton] at hc
      rcases hc with hc | rfl
      · exact ih (n / base) (Nat.div_lt_self (by omega) hb) hc
      · simp [isDigitOf, digitValue?_digitChar hb' (Nat.mod_lt n (by omega : base > 0))]

end VolumeBroker.Text
