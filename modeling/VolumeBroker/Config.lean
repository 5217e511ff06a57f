import VolumeBroker.Discovery.Target

/-!
# Configuration

What a driver is set up with.  Every field has a default, so that an empty configuration is usable.
-/

set_option autoImplicit false

namespace VolumeBroker

/-- How log lines are written. -/
inductive LogFormat
  | text
  | json
  deriving DecidableEq, Repr, Inhabited

namespace LogFormat

/-- The name of the format in a configuration. -/
def name : LogFormat → String
  | .text => "text"
  | .json => "json"

/-- All formats. -/
def all : List LogFormat := [.text, .json]

/-- The format of this name. -/
def ofName? (s : String) : Option LogFormat := all.find? (·.name == s)

end LogFormat

/-- Who the driver is and where it listens. -/
structure DriverSettings where
  name : String := "csi.nvmf.io"
  nodeId : String := ""
  endpoint : String := "unix:///csi/csi.sock"
  deriving DecidableEq, Repr

/-- Where allocations are kept. -/
structure StoreSettings where
  path : String := "/var/lib/nvmf-csi/allocations.redb"
  deriving DecidableEq, Repr

/-- What is logged. -/
structure LogSettings where
  level : String := "info"
  format : LogFormat := .text
  deriving DecidableEq, Repr

/-- The configuration of a driver. -/
structure Config where
  driver : DriverSettings := {}
  store : StoreSettings := {}
  discovery : DiscoverySettings := {}
  logging : LogSettings := {}
  deriving DecidableEq, Repr

end VolumeBroker
