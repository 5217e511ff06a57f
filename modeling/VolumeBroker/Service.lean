import VolumeBroker.Lifecycle

/-!
# The controller service

The calls of the controller service are the operations on volumes under other names, and a list of
calls that are not provided.  A failed operation is answered with its status; a volume that was
created is handed out with the source that was asked for, which nobody looks at.
-/

set_option autoImplicit false

namespace VolumeBroker

/-- What a volume is to be filled from. -/
inductive ContentSource
  /-- A source that names neither a snapshot nor a volume. -/
  | unspecified
  | snapshot (id : String)
  | volume (id : String)
  deriving DecidableEq, Repr

/-- A pair of operations that the controller provides. -/
inductive ControllerCapability
  | createDeleteVolume
  | publishUnpublishVolume
  deriving DecidableEq, Repr

namespace ControllerCapability

/-- The number of the capability on the wire. -/
def number : ControllerCapability → Nat
  | .createDeleteVolume => 1
  | .publishUnpublishVolume => 2

/-- The capabilities that are offered. -/
def provided : List ControllerCapability := [.createDeleteVolume, .publishUnpublishVolume]

end ControllerCapability

/-- A call that is known and not provided. -/
inductive UnprovidedCall
  | validateVolumeCapabilities
  | listVolumes
  | getCapacity
  | createSnapshot
  | deleteSnapshot
  | listSnapshots
  | controllerExpandVolume
  | controllerGetVolume
  deriving DecidableEq, Repr

namespace UnprovidedCall

/-- The name of the call, as its complaint repeats it. -/
def name : UnprovidedCall → String
  | .validateVolumeCapabilities => "ValidateVolumeCapabilities"
  | .listVolumes => "ListVolumes"
  | .getCapacity => "GetCapacity"
  | .createSnapshot => "CreateSnapshot"
  | .deleteSnapshot => "DeleteSnapshot"
  | .listSnapshots => "ListSnapshots"
  | .controllerExpandVolume => "ControllerExpandVolume"
  | .controllerGetVolume => "ControllerGetVolume"

/-- All calls that are not provided. -/
def all : List UnprovidedCall :=
  [.validateVolumeCapabilities, .listVolumes, .getCapacity, .createSnapshot, .deleteSnapshot,
    .listSnapshots, .controllerExpandVolume, .controllerGetVolume]

end UnprovidedCall

/-- A call of the controller service. -/
inductive Call
  | createVolume (request : CreateRequest) (source : Option ContentSource)
  | deleteVolume (id : String)
  | publishVolume (id node : String)
  | unpublishVolume (id node : String)
  | getCapabilities
  | unprovided (call : UnprovidedCall)

/-- The answer to a call that succeeds. -/
inductive Reply
  | volume (volume : CreatedVolume) (source : Option ContentSource)
  | published (context : VolumeContext)
  | capabilities (provided : List ControllerCapability)
  | done

namespace Call

/-- The operation a call stands for, or the answer that needs none. -/
def toRequest : Call → Except (Except Status Reply) Request
  | .createVolume request _ => .ok (.create request)
  | .deleteVolume id => .ok (.delete id)
  | .publishVolume id node => .ok (.publish id node)
  | .unpublishVolume id node => .ok (.unpublish id node)
  | .getCapabilities => .error (.ok (.capabilities ControllerCapability.provided))
  | .unprovided call => .error (.error (VolumeError.unimplemented call.name).status)

/-- The content that a new volume is to be made from. -/
def source? : Call → Option ContentSource
  | .createVolume _ source => source
  | _ => none

/-- The answer to a call whose operation has ended. -/
def reply (call : Call) (outcome : Outcome) : Except Status Reply :=
  match outcome with
  | .error e => .error e.status
  | .ok (.created volume) => .ok (.volume volume call.source?)
  | .ok (.published context) => .ok (.published context)
  | .ok .deleted => .ok .done
  | .ok .unpublished => .ok .done

end Call

end VolumeBroker
