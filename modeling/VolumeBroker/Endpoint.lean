import VolumeBroker.Address.Ipv6

/-!
# Endpoints

An endpoint is where a driver listens: a socket in the file system, or an address and a port.  It is
given as a text with a scheme in front; `chars` writes an endpoint in the form in which `parse`
reads it back.
-/

set_option autoImplicit false

namespace VolumeBroker

open Address

/-- Where a driver listens. -/
inductive Endpoint
  | unix (path : String)
  | tcp4 (ip : Ipv4) (port : UInt16)
  /-- An address with the number of the interface it is meant for, zero for any. -/
  | tcp6 (ip : Ipv6) (scope : UInt32) (port : UInt16)
  deriving DecidableEq, Repr

/-- Why a text is no endpoint. -/
inductive EndpointError
  | unsupportedScheme (text : String)
  /-- The path of the socket is missing. -/
  | emptyPath (text : String)
  /-- What follows the scheme is no address with a port. -/
  | invalidAddress (text : String)
  deriving DecidableEq, Repr

/-- The complaint, which repeats the text of the endpoint. -/
def EndpointError.message : EndpointError → String
  | .unsupportedScheme text =>
    "unsupported endpoint scheme in " ++ text ++ ", expected unix:// or tcp://"
  | .emptyPath text => "endpoint " ++ text ++ " has an empty socket path"
  | .invalidAddress text => "invalid tcp endpoint " ++ text ++ ": invalid socket address syntax"

namespace Endpoint

/-- The scheme of sockets in the file system. -/
def unixScheme : List Char := "unix://".toList

/-- What an endpoint of TCP begins with. -/
def tcpScheme : List Char := "tcp://".toList

/-- The rest of a text that begins with the scheme. -/
def afterScheme? (scheme cs : List Char) : Option (List Char) :=
  if scheme.isPrefixOf cs then some (cs.drop scheme.length) else none

/-! ## Writing -/

/-- The characters of a colon and a port. -/
def portChars (port : UInt16) : List Char := ':' :: Nat.toDigits 10 port.toNat

/-- The characters of the number of an interface, none for any. -/
def scopeChars (scope : UInt32) : List Char :=
  if scope = 0 then [] else '%' :: Nat.toDigits 10 scope.toNat

/-- The endpoint as it is written. -/
def chars : Endpoint → List Char
  | .unix path => unixScheme ++ path.toList
  | .tcp4 ip port => tcpScheme ++ ip.chars ++ portChars port
  | .tcp6 ip scope port =>
    tcpScheme ++ '[' :: ip.chars ++ scopeChars scope ++ ']' :: portChars port

/-- The text of the endpoint. -/
def text (e : Endpoint) : String := String.ofList e.chars

/-! ## Reading -/

/-- Reads a colon and a port, with nothing after them. -/
def readPort? (cs : List Char) : Option UInt16 := do
  let (port, rest) ← readNumber portShape (← readMark ':' cs)
  if rest.isEmpty then some (.ofNat port) else none

/-- Takes the number of an interface off the front of a text, if there is one. -/
def readScope (cs : List Char) : UInt32 × List Char :=
  match (readMark '%' cs).bind (readNumber scopeShape) with
  | some (scope, rest) => (.ofNat scope, rest)
  | none => (0, cs)

/-- Reads an IPv4 address and a port. -/
def readTcp4? (cs : List Char) : Option Endpoint := do
  let (ip, rest) ← Ipv4.read cs
  return .tcp4 ip (← readPort? rest)

/-- Reads an IPv6 address in brackets and a port. -/
def readTcp6? (cs : List Char) : Option Endpoint := do
  let (ip, rest) ← Ipv6.read (← readMark '[' cs)
  let (scope, rest) := readScope rest
  return .tcp6 ip scope (← readPort? (← readMark ']' rest))

/-- Reads an endpoint: a path after the one scheme, or an address with a port after the other. -/
def parse (s : String) : Except EndpointError Endpoint :=
  match afterScheme? unixScheme s.toList with
  | some path => if path.isEmpty then .error (.emptyPath s) else .ok (.unix (String.ofList path))
  | none =>
    match afterScheme? tcpScheme s.toList with
    | none => .error (.unsupportedScheme s)
    | some address =>
      match (readTcp4? address).or (readTcp6? address) with
      | some e => .ok e
      | none => .error (.invalidAddress s)

end Endpoint

end VolumeBroker
