import VolumeBroker.Discovery.Log
import VolumeBroker.Discovery.Error

/-!
# Discovery logs as text

A discovery log is a JSON object with its records in the member `records`.  Wherever an object with
known members is read, an array of their values in the order of their declaration does as well.
Members of other names are passed over without being read.  A known member that is given twice, or
whose value is no string, makes the whole log unreadable, and so does an array that is too long.
-/

set_option autoImplicit false

namespace VolumeBroker

open Json

/-- A member that is a text; the empty text where it is missing. -/
def textMember? (name : String) (members : List (String × Value)) : Option String := do
  match ← member? name members with
  | none => return ""
  | some v => v.text?

namespace LogRecord

/-- Reads a record from the members of an object. -/
def ofMembers? (members : List (String × Value)) : Option LogRecord :=
  return {
    trtype := ← textMember? "trtype" members
    adrfam := ← textMember? "adrfam" members
    subtype := ← textMember? "subtype" members
    trsvcid := ← textMember? "trsvcid" members
    traddr := ← textMember? "traddr" members
    subnqn := ← textMember? "subnqn" members }

/-- Reads a record from its leading fields; the others are empty. -/
def ofTexts? (texts : List String) : Option LogRecord :=
  if texts.length ≤ 6 then
    some {
      trtype := texts.getD 0 ""
      adrfam := texts.getD 1 ""
      subtype := texts.getD 2 ""
      trsvcid := texts.getD 3 ""
      traddr := texts.getD 4 ""
      subnqn := texts.getD 5 "" }
  else none

/-- Reads a record from an object, or from an array of the values of its fields. -/
def ofValue? : Value → Option LogRecord
  | .object members => (keyed? members).bind ofMembers?
  | .array items => (items.mapM Value.text?).bind ofTexts?
  | _ => none

/-- Reads the records of an array. -/
def listOfValue? : Value → Option (List LogRecord)
  | .array items => items.mapM ofValue?
  | _ => none

/-- Reads the records of a log from its tree. -/
def logOfValue? : Value → Option (List LogRecord)
  | .object members => do
    match ← member? "records" (← keyed? members) with
    | none => return []
    | some v => listOfValue? v
  | .array [] => some []
  | .array [v] => listOfValue? v
  | _ => none

/-- Reads the records of a log from its text. -/
def parseLog? (s : String) : Option (List LogRecord) := (Value.parse? s).bind logOfValue?

end LogRecord

/-- The subsystems of a log given as text. -/
def Descriptor.parseLog (s : String) : Except DiscoveryError (List Descriptor) :=
  match LogRecord.parseLog? s with
  | some records => .ok (ofLog records)
  | none => .error .unreadableLog

end VolumeBroker
