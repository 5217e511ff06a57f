import VolumeBroker.Json.Token

/-!
# JSON values

A value is the tree of a JSON text, with numbers and strings still as they were written.  It is read
from the tokens by a machine with a stack: the frames are the containers around the place being
read, `Expect` is what may come there.  Each token moves the machine once, so the depth of a text is
bounded by nothing but its length.
-/

set_option autoImplicit false

namespace VolumeBroker.Json

/-- The tree of a JSON text. -/
inductive Value
  | null
  | bool (value : Bool)
  | number (written : List Char)
  | string (written : Literal)
  | array (items : List Value)
  | object (members : List (Literal × Value))
  deriving Repr

/-- A container around the place being read; its parts stand in reverse. -/
inductive Frame
  | array (items : List Value)
  /-- An object in which the value of `key` is to come. -/
  | object (members : List (Literal × Value)) (key : Literal)
  deriving Repr

/-- What may come next. -/
inductive Expect
  | value
  /-- A value or the end of an array that is still empty. -/
  | firstItem
  /-- The end of an array or a comma. -/
  | afterItem (items : List Value)
  /-- A key or the end of an object that is still empty. -/
  | firstKey
  | key (members : List (Literal × Value))
  | colon (members : List (Literal × Value)) (key : Literal)
  /-- The end of an object or a comma. -/
  | afterMember (members : List (Literal × Value))
  | nothing (value : Value)
  deriving Repr

/-- A reading under way. -/
structure Reading where
  frames : List Frame := []
  expect : Expect := .value
  deriving Repr

namespace Reading

/-- Puts a value that has ended into its container. -/
def close (frames : List Frame) (v : Value) : Reading :=
  match frames with
  | [] => ⟨[], .nothing v⟩
  | .array items :: frames => ⟨frames, .afterItem (v :: items)⟩
  | .object members key :: frames => ⟨frames, .afterMember ((key, v) :: members)⟩

/-- Reads the first token of a value. -/
def open? (frames : List Frame) : Token → Option Reading
  | .null => some (close frames .null)
  | .bool b => some (close frames (.bool b))
  | .number written => some (close frames (.number written))
  | .string written => some (close frames (.string written))
  | .openBracket => some ⟨frames, .firstItem⟩
  | .openBrace => some ⟨frames, .firstKey⟩
  | _ => none

/-- Takes one more token, if it may stand where the reader is. -/
def step (r : Reading) (t : Token) : Option Reading :=
  match r.expect, t with
  | .value, t => open? r.frames t
  | .firstItem, .closeBracket => some (close r.frames (.array []))
  | .firstItem, t => open? (.array [] :: r.frames) t
  | .afterItem items, .closeBracket => some (close r.frames (.array items.reverse))
  | .afterItem items, .comma => some ⟨.array items :: r.frames, .value⟩
  | .firstKey, .closeBrace => some (close r.frames (.object []))
  | .firstKey, .string key => some ⟨r.frames, .colon [] key⟩
  | .key members, .string key => some ⟨r.frames, .colon members key⟩
  | .colon members key, .colon => some ⟨.object members key :: r.frames, .value⟩
  | .afterMember members, .closeBrace => some (close r.frames (.object members.reverse))
  | .afterMember members, .comma => some ⟨r.frames, .key members⟩
  | _, _ => none

/-- The value that has been read, if it is complete. -/
def finish (r : Reading) : Option Value :=
  match r.expect with
  | .nothing v => some v
  | _ => none

end Reading

namespace Value

/-- The value that the tokens are. -/
def ofTokens? (tokens : List Token) : Option Value :=
  (tokens.foldlM Reading.step {}).bind Reading.finish

/-- The value of a text. -/
def parse? (s : String) : Option Value := (scan? s.toList).bind ofTokens?

/-- The text that the value is, if it is a string. -/
def text? : Value → Option String
  | .string written => written.decode?
  | _ => none

end Value

/-- The members of an object with their keys read; a key that means nothing spoils the object. -/
def keyed? (members : List (Literal × Value)) : Option (List (String × Value)) :=
  members.mapM fun (key, v) => key.decode?.map (·, v)

/-- Looks for a member that may be given at most once: `none` when it is given more often,
`some none` when it is missing. -/
def member? (name : String) (members : List (String × Value)) : Option (Option Value) :=
  match members.filter (·.1 == name) with
  | [] => some none
  | [m] => some (some m.2)
  | _ => none

/-- The text that stands in a message where the reason why a text could not be read would be. -/
def unreadable : String := "<json>"

end VolumeBroker.Json
