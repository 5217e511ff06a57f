import VolumeBroker.Discovery.Error
import Std.Data.ExtTreeMap

/-!
# Where a discovery is sent

A request carries parameters, a map of texts.  Three of them say where to ask: the address must be
given, the transport and the port have defaults.  A value that is blank counts as not given.
-/

set_option autoImplicit false

namespace VolumeBroker

/-- The parameters of a request. -/
abbrev Parameters := Std.ExtTreeMap String String

/-- The parameter that names the transport; also its name in a volume context. -/
def transportParameter : String := "targetTrType"

/-- The parameter that names the address. -/
def addressParameter : String := "targetTrAddr"

/-- The parameter that names the port. -/
def portParameter : String := "targetTrPort"

/-- How discovery is set up. -/
structure DiscoverySettings where
  command : String := "nvme"
  /-- The transport for requests that name none. -/
  defaultTransport : Transport := .tcp
  /-- The port for requests that name none. -/
  defaultPort : UInt16 := 4420
  /-- The name under which this host asks. -/
  hostNqn : Option String := none
  deriving DecidableEq, Repr, Inhabited

/-- A discovery controller to ask. -/
structure DiscoveryTarget where
  transport : Transport
  address : String
  port : UInt16
  deriving DecidableEq, Repr

namespace DiscoveryTarget

/-- The value of a parameter without the blanks around it, if anything is left of it. -/
def given? (params : Parameters) (name : String) : Option String :=
  (params[name]?.map Text.trim).filter (! ·.isEmpty)

/-- Reads a transport.  The complaint repeats the value as it was given. -/
def readTransport (params : Parameters) (default : Transport) : Except DiscoveryError Transport :=
  match given? params transportParameter with
  | none => .ok default
  | some _ =>
    (Transport.parse (params.getD transportParameter "")).mapError
      fun e => .invalidParameter transportParameter (.transport e)

/-- Reads a port.  The complaint says what is wrong with the digits. -/
def readPort (params : Parameters) (default : UInt16) : Except DiscoveryError UInt16 :=
  match given? params portParameter with
  | none => .ok default
  | some text =>
    match Text.readBounded Text.maxPort text.toList with
    | .ok port => .ok (.ofNat port)
    | .error e => .error (.invalidParameter portParameter (.port e))

/-- Reads the target from the parameters of a request: the address, then the transport, then the
port. -/
def ofParameters (params : Parameters) (settings : DiscoverySettings) :
    Except DiscoveryError DiscoveryTarget := do
  let address ← match given? params addressParameter with
    | some address => .ok address
    | none => .error (.missingParameter addressParameter)
  let transport ← readTransport params settings.defaultTransport
  let port ← readPort params settings.defaultPort
  return ⟨transport, address, port⟩

end DiscoveryTarget

end VolumeBroker
