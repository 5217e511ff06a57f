/-!
# Readers

A reader takes what it understands off the front of a text, or fails and takes nothing.  Repetition
is bounded by a count that callers set to the length of the text, which no repetition can exceed.
-/

set_option autoImplicit false

namespace VolumeBroker.Toml

/-- Takes something off the front of a text. -/
abbrev Reader := StateT (List Char) Option

namespace Reader

/-- Reads a character. -/
def next : Reader Char := fun
  | [] => none
  | c :: rest => some (c, rest)

/-- Reads a character of a class. -/
def one (p : Char → Bool) : Reader Char := do
  let c ← next
  if p c then return c else failure

/-- Reads this character. -/
def mark (c : Char) : Reader Unit := do
  let _ ← one (· == c)

/-- Reads the characters of a text. -/
def marks (s : String) : Reader Unit := s.toList.forM mark

/-- Takes as many characters of a class as there are. -/
def span (p : Char → Bool) : Reader (List Char) :=
  fun cs => some (cs.takeWhile p, cs.dropWhile p)

/-- Takes a certain number of characters of a class. -/
def exactly (n : Nat) (p : Char → Bool) : Reader (List Char) :=
  (List.replicate n ()).mapM fun _ => one p

/-- Whether the text goes on with a certain text; takes nothing. -/
def comes (s : String) : Reader Bool := fun cs => some (s.toList.isPrefixOf cs, cs)

/-- Succeeds at the end of the text. -/
def atEnd : Reader Unit := fun cs => if cs.isEmpty then some ((), cs) else none

/-- Takes as many things as there are, but at most `bound`. -/
def many {α : Type} (r : Reader α) : Nat → Reader (List α)
  | 0 => pure []
  | bound + 1 => do
    match ← optional r with
    | none => return []
    | some a => return a :: (← many r bound)

/-- Takes at least one thing, with separators between things. -/
def separated {α : Type} (r : Reader α) (separator : Reader Unit) (bound : Nat) :
    Reader (List α) := do
  let first ← r
  let rest ← many (separator *> r) bound
  return first :: rest

end Reader

end VolumeBroker.Toml
