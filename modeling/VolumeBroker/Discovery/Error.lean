import VolumeBroker.Transport
import VolumeBroker.Text.Numeral
import VolumeBroker.Json.Value

/-!
# What can go wrong when the fabric is asked

Each cause is a constructor, and its wording is given once, by `message`.
-/

set_option autoImplicit false

namespace VolumeBroker

/-- Why the value of a discovery parameter cannot be used. -/
inductive ParameterFault
  | transport (e : UnknownTransport)
  | port (e : Text.NumeralFault)
  deriving DecidableEq, Repr

/-- The complaint about the value. -/
def ParameterFault.message : ParameterFault → String
  | .transport e => e.message
  | .port e => e.message

/-- Why a command could not be started. -/
inductive StartFault
  | notFound
  /-- The command or an argument holds the character NUL. -/
  | nulCharacter
  /-- The system refuses it for another reason. -/
  | refused (reason : String)
  deriving DecidableEq, Repr

/-- The complaint of the system. -/
def StartFault.message : StartFault → String
  | .notFound => "No such file or directory (os error 2)"
  | .nulCharacter => "nul byte found in provided data"
  | .refused reason => reason

/-- Why a discovery gave no devices. -/
inductive DiscoveryError
  /-- A parameter that must be given is missing or blank. -/
  | missingParameter (name : String)
  /-- A parameter is given and cannot be used. -/
  | invalidParameter (name : String) (fault : ParameterFault)
  | notStarted (command : String) (fault : StartFault)
  | commandFailed (status stderr : String)
  /-- The discovery log could not be read. -/
  | unreadableLog
  /-- The fabric could not be asked for another reason. -/
  | fabric (text : String)
  deriving DecidableEq, Repr

/-- The complaint as it reaches whoever asked for the discovery. -/
def DiscoveryError.message : DiscoveryError → String
  | .missingParameter name => "missing discovery parameter: " ++ name
  | .invalidParameter name fault => "invalid discovery parameter " ++ name ++ ": " ++ fault.message
  | .notStarted command fault => "failed to run " ++ command ++ ": " ++ fault.message
  | .commandFailed status stderr => "nvme discover failed (" ++ status ++ "): " ++ stderr
  | .unreadableLog => "failed to parse discovery log: " ++ Json.unreadable
  | .fabric text => "fabric error: " ++ text

end VolumeBroker
