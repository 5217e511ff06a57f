import VolumeBroker.Status

/-!
# The identity service

The driver says who it is, what it provides and that it is there.  It has nothing to say before it
has been given a name.
-/

set_option autoImplicit false

namespace VolumeBroker

/-- Who a driver is. -/
structure PluginInfo where
  name : String
  version : String
  deriving DecidableEq, Repr

/-- A service that a driver provides. -/
inductive PluginService
  | controller
  deriving DecidableEq, Repr

/-- The number of the service on the wire. -/
def PluginService.number : PluginService → Nat
  | .controller => 1

namespace PluginInfo

/-- The version of the program. -/
def currentVersion : String := "0.1.0"

/-- Who the driver with this name is. -/
def ofName (name : String) : Except Status PluginInfo :=
  if name.isEmpty then .error ⟨.unavailable, "driver name not configured"⟩
  else .ok ⟨name, currentVersion⟩

/-- The services that the plugin has. -/
def services : List PluginService := [.controller]

/-- Whether the driver is ready: whatever must be loaded is loaded when it is needed. -/
def isReady : Bool := true

end PluginInfo

end VolumeBroker
