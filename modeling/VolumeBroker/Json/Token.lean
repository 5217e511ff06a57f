import VolumeBroker.Json.Literal
import VolumeBroker.Json.Number

/-!
# Tokens of JSON

A text is cut into tokens by a machine that takes one character at a time.  Between characters it
holds the token it is in the middle of; `Scan.step` either moves on or refuses, and `Scan.finish`
refuses a token that was left unfinished.  Blanks are the four that the format knows.
-/

set_option autoImplicit false

namespace VolumeBroker.Json

/-- A token of a JSON text. -/
inductive Token
  | openBrace
  | closeBrace
  | openBracket
  | closeBracket
  | comma
  | colon
  | null
  | bool (value : Bool)
  | number (written : List Char)
  | string (written : Literal)
  deriving DecidableEq, Repr

/-- Whether a character separates tokens and means nothing else. -/
def isSpace (c : Char) : Bool := c == ' ' || c == '\t' || c == '\n' || c == '\r'

/-- Whether a character can be part of a number. -/
def isNumberChar (c : Char) : Bool :=
  c.isDigit || c == '-' || c == '+' || c == '.' || c == 'e' || c == 'E'

namespace Token

/-- The token that is a single mark. -/
def ofMark? : Char → Option Token
  | '\x7b' => some .openBrace
  | '\x7d' => some .closeBrace
  | '[' => some .openBracket
  | ']' => some .closeBracket
  | ',' => some .comma
  | ':' => some .colon
  | _ => none

/-- The token of a run of letters. -/
def ofWord? (letters : List Char) : Option Token :=
  if letters == "null".toList then some .null
  else if letters == "true".toList then some (.bool true)
  else if letters == "false".toList then some (.bool false)
  else none

/-- The token of a run of characters of numbers. -/
def ofNumber? (written : List Char) : Option Token :=
  (Number.read? written).map fun _ => .number written

end Token

/-- The token a scan is in the middle of; what has been read of it stands in reverse. -/
inductive Pending
  | nothing
  | word (letters : List Char)
  | number (written : List Char)
  | string (pieces : Literal)
  | escape (pieces : Literal)
  /-- In a string, after a backslash, `u` and some digits, of which `missing` more must come. -/
  | code (pieces : Literal) (missing value : Nat)
  deriving DecidableEq, Repr

/-- A scan under way: the tokens found, the last one first, and the one begun. -/
structure Scan where
  tokens : List Token := []
  pending : Pending := .nothing
  deriving DecidableEq, Repr

namespace Scan

/-- Ends a word or a number that is under way. -/
def flush (s : Scan) : Option Scan :=
  match s.pending with
  | .nothing => some s
  | .word letters => (Token.ofWord? letters.reverse).map fun t => ⟨t :: s.tokens, .nothing⟩
  | .number written => (Token.ofNumber? written.reverse).map fun t => ⟨t :: s.tokens, .nothing⟩
  | _ => none

/-- Reads a character that begins a token or stands between tokens. -/
def start (tokens : List Token) (c : Char) : Option Scan :=
  if isSpace c then some ⟨tokens, .nothing⟩
  else if c == '"' then some ⟨tokens, .string []⟩
  else if c.isDigit || c == '-' then some ⟨tokens, .number [c]⟩
  else if c.isLower then some ⟨tokens, .word [c]⟩
  else (Token.ofMark? c).map fun t => ⟨t :: tokens, .nothing⟩

/-- Takes one more character: it goes on with the token that has been begun, or ends it and begins
another. -/
def step (s : Scan) (c : Char) : Option Scan :=
  match s.pending with
  | .nothing => start s.tokens c
  | .word letters =>
    if c.isLower then some ⟨s.tokens, .word (c :: letters)⟩
    else s.flush.bind fun s => start s.tokens c
  | .number written =>
    if isNumberChar c then some ⟨s.tokens, .number (c :: written)⟩
    else s.flush.bind fun s => start s.tokens c
  | .string pieces =>
    if c == '"' then some ⟨.string pieces.reverse :: s.tokens, .nothing⟩
    else if c == '\\' then some ⟨s.tokens, .escape pieces⟩
    else if isPlain c then some ⟨s.tokens, .string (.plain c :: pieces)⟩
    else none
  | .escape pieces =>
    if c == 'u' then some ⟨s.tokens, .code pieces 4 0⟩
    else (escaped? c).map fun _ => ⟨s.tokens, .string (.escape c :: pieces)⟩
  | .code pieces missing value =>
    (Text.hexValue? c).map fun d =>
      let value := value * 0x10 + d
      if missing ≤ 1 then ⟨s.tokens, .string (.code value :: pieces)⟩
      else ⟨s.tokens, .code pieces (missing - 1) value⟩

/-- Reads the end of the text: the tokens, the first one first. -/
def finish (s : Scan) : Option (List Token) := s.flush.map (·.tokens.reverse)

end Scan

/-- The tokens of a text. -/
def scan? (cs : List Char) : Option (List Token) :=
  (cs.foldlM Scan.step {}).bind Scan.finish

end VolumeBroker.Json
