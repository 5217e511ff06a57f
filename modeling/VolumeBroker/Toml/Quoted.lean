import VolumeBroker.Text.Digit
import VolumeBroker.Toml.Reader

/-!
# Strings and keys of TOML

A string stands between double quotes, with escapes, or between single quotes, without; either kind
may be tripled and then spans lines.  A key is a bare word or a string on one line.  The text is
taken to have its line ends written as line feeds.
-/

set_option autoImplicit false

namespace VolumeBroker.Toml

open Reader

/-- Whether a character is a blank within a line. -/
def isWhite (c : Char) : Bool := c == ' ' || c == '\t'

/-- Whether a character may stand in a comment: every one but the controls, of which a tab may. -/
def isPrintable (c : Char) : Bool := c == '\t' || (0x20 ≤ c.toNat && c.toNat != 0x7F)

/-- Whether a character may stand for itself between double quotes. -/
def isBasicChar (c : Char) : Bool := isPrintable c && c != '"' && c != '\\'

/-- Whether a character may stand between single quotes. -/
def isLiteralChar (c : Char) : Bool := isPrintable c && c != '\''

/-- Skips blanks and tabulators. -/
def white : Reader Unit := do
  let _ ← span isWhite

/-- Takes the hexadecimal digits of a character. -/
def codePoint (digits : Nat) : Reader Char := do
  let n := Text.digitsValue 16 (← exactly digits (Text.isDigitOf 16))
  if n.isValidChar then return Char.ofNat n else failure

/-- Reads what follows a backslash. -/
def escaped : Reader Char := do
  match ← next with
  | 'b' => return '\x08'
  | 'f' => return '\x0c'
  | 'n' => return '\n'
  | 'r' => return '\r'
  | 't' => return '\t'
  | '"' => return '"'
  | '\\' => return '\\'
  | 'u' => codePoint 4
  | 'U' => codePoint 8
  | _ => failure

/-- Reads a character of a string between double quotes. -/
def basicChar : Reader Char := one isBasicChar <|> (mark '\\' *> escaped)

/-- Reads a string between double quotes. -/
def basicString (bound : Nat) : Reader String := do
  mark '"'
  let cs ← many basicChar bound
  mark '"'
  return String.ofList cs

/-- Reads a string between single quotes, in which nothing is escaped. -/
def literalString : Reader String := do
  mark '\''
  let cs ← span isLiteralChar
  mark '\''
  return String.ofList cs

/-- Takes a quote that does not begin a closing of three. -/
def innerQuote (quote : Char) : Reader Char := do
  mark quote
  if ← comes (String.ofList [quote, quote]) then failure else return quote

/-- Takes the end of a string that spans lines, with up to two quotes that belong to the string. -/
def closing (quote : Char) : Reader (List Char) := do
  let _ ← exactly 3 (· == quote)
  let first ← optional (one (· == quote))
  let second ← optional (one (· == quote))
  return first.toList ++ second.toList

/-- Takes a backslash at the end of a line with all blanks and line ends that follow. -/
def lineJoin : Reader Unit := do
  mark '\\'
  white
  mark '\n'
  let _ ← span fun c => isWhite c || c == '\n'

/-- Takes a part of a string in three double quotes. -/
def basicPart : Reader (List Char) :=
  ((fun c => [c]) <$> one fun c => isBasicChar c || c == '\n') <|>
    ((fun _ => []) <$> lineJoin) <|>
    ((fun c => [c]) <$> (mark '\\' *> escaped)) <|>
    ((fun c => [c]) <$> innerQuote '"')

/-- Takes a string in three double quotes. -/
def longBasicString (bound : Nat) : Reader String := do
  marks "\"\"\""
  let _ ← optional (mark '\n')
  let parts ← many basicPart bound
  let last ← closing '"'
  return String.ofList (parts.flatten ++ last)

/-- Takes a string in three single quotes. -/
def longLiteralString (bound : Nat) : Reader String := do
  marks "'''"
  let _ ← optional (mark '\n')
  let cs ← many (one (fun c => isLiteralChar c || c == '\n') <|> innerQuote '\'') bound
  let last ← closing '\''
  return String.ofList (cs ++ last)

/-- Reads a string of any kind; those with three quotes are tried first. -/
def string (bound : Nat) : Reader String :=
  longBasicString bound <|> basicString bound <|> longLiteralString bound <|> literalString

/-- Whether a character may stand in a bare key. -/
def isBareChar (c : Char) : Bool := c.isAlphanum || c == '_' || c == '-'

/-- Reads a key without points. -/
def simpleKey (bound : Nat) : Reader String :=
  basicString bound <|> literalString <|> do
    let cs ← span isBareChar
    if cs.isEmpty then failure else return String.ofList cs

/-- How many parts a dotted key may have. -/
def maxKeyParts : Nat := 79

/-- Takes a key with all its parts, and the blanks around them. -/
def dottedKey (bound : Nat) : Reader (List String) := do
  let keys ← separated (white *> simpleKey bound <* white) (mark '.') bound
  if maxKeyParts < keys.length then failure else return keys

end VolumeBroker.Toml
