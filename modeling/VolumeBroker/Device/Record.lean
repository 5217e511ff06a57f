import VolumeBroker.Device
import VolumeBroker.Json.Value

/-!
# Allocation records

The durable form of an allocation is a small JSON object with its state as a tag:
`{"state":"free"}` or `{"state":"allocated","owner_volume":"..."}`.  Reading is wider than writing.
The members may stand in any order, members of other names are ignored, and an array of the tag and
the owner is read as well; but the tag must be given exactly once, and so must the owner where the
tag asks for one.  The whole text counts: a string anywhere in it that means nothing, a number out
of range or too deep a nesting spoils the record.
-/

set_option autoImplicit false

namespace VolumeBroker

namespace Json

/-- How deep the containers of a record may nest. -/
def maxRecordDepth : Nat := 127

/-- Whether a token has a value: a string that means something, a number in range. -/
def Token.isMeaningful : Token → Bool
  | .string written => written.decode?.isSome
  | .number written => (Number.read? written).any Number.fits
  | _ => true

/-- Whether no more than `limit` containers are ever open at once. -/
def nestsWithin (limit : Nat) : Nat → List Token → Bool
  | _, [] => true
  | depth, t :: rest =>
    if t == .openBrace || t == .openBracket then depth < limit && nestsWithin limit (depth + 1) rest
    else if t == .closeBrace || t == .closeBracket then nestsWithin limit (depth - 1) rest
    else nestsWithin limit depth rest

end Json

namespace Allocation

open Json

/-- The name of the member that holds the tag. -/
def tagKey : String := "state"

/-- The name of the member that holds the owner. -/
def ownerKey : String := "owner_volume"

/-- The word that says which kind of allocation it is. -/
def tag : Allocation → String
  | .free => "free"
  | .owned _ => "allocated"

/-- Reads the allocation from the members of an object. -/
def ofMembers? (members : List (String × Value)) : Option Allocation := do
  let tag ← (← (← member? tagKey members)).text?
  if tag == "free" then return .free
  guard (tag == "allocated")
  return .owned (← (← (← member? ownerKey members)).text?)

/-- Reads the allocation from the items of an array. -/
def ofItems? (items : List Value) : Option Allocation := do
  let texts ← items.mapM Value.text?
  match texts with
  | ["free"] => return .free
  | ["allocated", volume] => return .owned volume
  | _ => none

/-- Reads the allocation from the tree of its record. -/
def ofValue? : Value → Option Allocation
  | .object members => (keyed? members).bind ofMembers?
  | .array items => ofItems? items
  | _ => none

/-- Reads an allocation from a text; `none` where the text is no record. -/
def decode? (s : String) : Option Allocation := do
  let tokens ← scan? s.toList
  guard (tokens.all Token.isMeaningful && nestsWithin maxRecordDepth 0 tokens)
  ofValue? (← Value.ofTokens? tokens)

/-- The members of the record, in the order in which they are written. -/
def members (a : Allocation) : List (String × String) :=
  (tagKey, a.tag) :: (a.owner?.map (ownerKey, ·)).toList

/-- A member of a record as it is written: the key, a colon and the value. -/
def memberChars (key value : String) : List Char :=
  (Literal.ofText key).chars ++ ':' :: (Literal.ofText value).chars

/-- A record as it is written: the members between braces, without white space. -/
def chars (a : Allocation) : List Char :=
  '\x7b' :: [','].intercalate (a.members.map fun (k, v) => memberChars k v) ++ ['\x7d']

/-- The text of a record. -/
def encode (a : Allocation) : String := String.ofList a.chars

end Allocation

end VolumeBroker
