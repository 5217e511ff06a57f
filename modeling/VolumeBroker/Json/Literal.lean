import VolumeBroker.Text.Digit

/-!
# String literals of JSON

A string literal is kept as it was written, piece by piece, because some literals are only checked
and never read: `\ud800` is well written everywhere and means nothing anywhere.  `decode?` gives
the text a literal means, if it means one; `ofText` writes a text as a literal, with an escape only
where one is needed, and `decode?_ofText` says that it is read back.
-/

set_option autoImplicit false

namespace VolumeBroker.Json

/-- A part of a string literal. -/
inductive Piece
  | plain (c : Char)
  | escape (letter : Char)
  /-- A backslash, `u` and the four hexadecimal digits of a UTF-16 unit. -/
  | code (unit : Nat)
  deriving DecidableEq, Repr

/-- A string literal without its quotes. -/
abbrev Literal := List Piece

/-- Whether a character may stand for itself in a literal. -/
def isPlain (c : Char) : Bool := c != '"' && c != '\\' && 0x20 ≤ c.toNat

/-- The character that a backslash and this letter stand for. -/
def escaped? : Char → Option Char
  | '"' => some '"'
  | '\\' => some '\\'
  | '/' => some '/'
  | 'b' => some '\x08'
  | 'f' => some '\x0c'
  | 'n' => some '\n'
  | 'r' => some '\r'
  | 't' => some '\t'
  | _ => none

/-- Whether a unit is the first half of a pair. -/
def isHighSurrogate (unit : Nat) : Bool := 0xD800 ≤ unit && unit < 0xDC00

/-- Whether a unit is the second half of a pair. -/
def isLowSurrogate (unit : Nat) : Bool := 0xDC00 ≤ unit && unit < 0xE000

/-- The character of a pair of units. -/
def pairedChar (high low : Nat) : Char :=
  Char.ofNat (0x10000 + (high - 0xD800) * 0x400 + (low - 0xDC00))

namespace Literal

/-- The characters of a literal, after the first half of a pair that may stand before it.  Half a
pair on its own means nothing. -/
def decodeAfter (high : Option Nat) : Literal → Option (List Char)
  | [] => if high.isNone then some [] else none
  | .code unit :: rest =>
    match high with
    | some h =>
      if isLowSurrogate unit then (decodeAfter none rest).map (pairedChar h unit :: ·) else none
    | none =>
      if isHighSurrogate unit then decodeAfter (some unit) rest
      else if isLowSurrogate unit then none
      else (decodeAfter none rest).map (Char.ofNat unit :: ·)
  | .plain c :: rest =>
    if high.isNone then (decodeAfter none rest).map (c :: ·) else none
  | .escape letter :: rest =>
    if high.isNone then
      (escaped? letter).bind fun c => (decodeAfter none rest).map (c :: ·)
    else none

/-- The text that the literal stands for; `none` where its escapes make no text. -/
def decode? (l : Literal) : Option String := (decodeAfter none l).map String.ofList

/-- How a character is written in a literal. -/
def ofChar (c : Char) : Piece :=
  match c with
  | '"' => .escape '"'
  | '\\' => .escape '\\'
  | '\x08' => .escape 'b'
  | '\x0c' => .escape 'f'
  | '\n' => .escape 'n'
  | '\r' => .escape 'r'
  | '\t' => .escape 't'
  | c => if c.toNat < 0x20 then .code c.toNat else .plain c

/-- The literal that means the text, with as few escapes as possible. -/
def ofText (s : String) : Literal := s.toList.map ofChar

/-- The four hexadecimal digits of a unit, in lower case. -/
def unitDigits (unit : Nat) : List Char :=
  [unit / 0x1000 % 0x10, unit / 0x100 % 0x10, unit / 0x10 % 0x10, unit % 0x10].map Nat.digitChar

/-- A piece as it is written. -/
def pieceChars : Piece → List Char
  | .plain c => [c]
  | .escape letter => ['\\', letter]
  | .code unit => '\\' :: 'u' :: unitDigits unit

/-- The literal as it is written, between its quotes. -/
def chars (l : Literal) : List Char := '"' :: l.flatMap pieceChars ++ ['"']

/-- A text written as a literal means that text. -/
theorem decode?_ofText (s : String) : (ofText s).decode? = some s := by
  have step : ∀ (c : Char) (rest : Literal),
      decodeAfter none (ofChar c :: rest) = (decodeAfter none rest).map (c :: ·) := by
    intro c rest
    unfold ofChar
    split
    case h_8 =>
      split
      · next h =>
        have h₁ : isHighSurrogate c.toNat = false := by simp [isHighSurrogate]; omega
        have h₂ : isLowSurrogate c.toNat = false := by simp [isLowSurrogate]; omega
        simp [decodeAfter, h₁, h₂]
      · simp [decodeAfter]
    all_goals simp [decodeAfter, escaped?]
  have all : ∀ cs : List Char, decodeAfter none (cs.map ofChar) = some cs := by
    intro cs
    induction cs with
    | nil => rfl
    | cons c cs ih => rw [List.map_cons, step, ih]; rfl
  simp [decode?, ofText, all]

end Literal

end VolumeBroker.Json
