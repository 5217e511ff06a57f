/-!
# Status codes

A call that fails is answered with a code and a message.  The failures of the volume operations come
in six kinds, and each kind has its code and its wording.
-/

set_option autoImplicit false

namespace VolumeBroker

/-- The code of a failed call. -/
inductive StatusCode
  | invalidArgument
  | notFound
  | resourceExhausted
  | aborted
  | unimplemented
  | internal
  | unavailable
  deriving DecidableEq, Repr

namespace StatusCode

/-- The number of the code on the wire. -/
def number : StatusCode → Nat
  | .invalidArgument => 3
  | .notFound => 5
  | .resourceExhausted => 8
  | .aborted => 10
  | .unimplemented => 12
  | .internal => 13
  | .unavailable => 14

/-- The name of the code. -/
def name : StatusCode → String
  | .invalidArgument => "InvalidArgument"
  | .notFound => "NotFound"
  | .resourceExhausted => "ResourceExhausted"
  | .aborted => "Aborted"
  | .unimplemented => "Unimplemented"
  | .internal => "Internal"
  | .unavailable => "Unavailable"

end StatusCode

/-- The answer to a failed call. -/
structure Status where
  code : StatusCode
  message : String
  deriving DecidableEq, Repr

/-- Why an operation on a volume failed. -/
inductive VolumeError
  /-- A field of the request is missing or makes no sense. -/
  | invalidArgument (text : String)
  | aborted (volume : String)
  /-- There is no such volume, or it cannot be used. -/
  | notFound (text : String)
  | resourceExhausted (text : String)
  | internal (text : String)
  | unimplemented (call : String)
  deriving DecidableEq, Repr

namespace VolumeError

/-- The code of a complaint. -/
def code : VolumeError → StatusCode
  | .invalidArgument _ => .invalidArgument
  | .aborted _ => .aborted
  | .notFound _ => .notFound
  | .resourceExhausted _ => .resourceExhausted
  | .internal _ => .internal
  | .unimplemented _ => .unimplemented

/-- The text of a complaint. -/
def message : VolumeError → String
  | .invalidArgument text => text
  | .aborted volume => "concurrent operation in progress for volume: " ++ volume
  | .notFound text => text
  | .resourceExhausted text => "no suitable device available: " ++ text
  | .internal text => text
  | .unimplemented call => call ++ " is not implemented"

/-- The answer to a call that failed with this error. -/
def status (e : VolumeError) : Status := ⟨e.code, e.message⟩

end VolumeError

end VolumeBroker
