import VolumeBroker.Text.Digit

/-!
# Runs at the front of a text

Readers take the longest run of characters of a class off the front of a text.  What they take is
known as soon as the run is known to stop: `Stops` says that no character of the class comes next.
-/

set_option autoImplicit false

namespace VolumeBroker.Text

/-- No character of the class stands at the front of the text. -/
def Stops (p : Char → Bool) (rest : List Char) : Prop := ∀ c ∈ rest.head?, p c = false

variable {p : Char → Bool} {run rest : List Char}

/-- Where the text is over, the run is too. -/
@[simp] theorem stops_nil : Stops p [] := by simp [Stops]

/-- The run is over at a character that does not belong to it. -/
@[simp] theorem stops_cons {c : Char} : Stops p (c :: rest) ↔ p c = false := by simp [Stops]

/-- Nothing is taken where the run is over already. -/
theorem takeWhile_of_stops (hrest : Stops p rest) : rest.takeWhile p = [] := by
  cases rest with
  | nil => rfl
  | cons c rest => simp [stops_cons.mp hrest]

/-- What is taken from a run is the whole of it, if what follows does not go on with it. -/
theorem takeWhile_append (hrun : ∀ c ∈ run, p c = true) (hrest : Stops p rest) :
    (run ++ rest).takeWhile p = run := by
  rw [List.takeWhile_append_of_pos hrun, takeWhile_of_stops hrest, List.append_nil]

/-- What is left after a run is what follows it. -/
theorem dropWhile_append (hrun : ∀ c ∈ run, p c = true) (hrest : Stops p rest) :
    (run ++ rest).dropWhile p = rest := by
  rw [List.dropWhile_append_of_pos hrun]
  cases rest with
  | nil => rfl
  | cons c rest => simp [stops_cons.mp hrest]

/-- What is taken off the front as digits is a run of digits, unless it is nothing. -/
theorem IsDigits.takeWhile {cs : List Char} (h : cs.takeWhile Char.isDigit ≠ []) :
    IsDigits (cs.takeWhile Char.isDigit) :=
  ⟨h, fun _ hc => List.all_eq_true.mp List.all_takeWhile _ hc⟩

end VolumeBroker.Text
