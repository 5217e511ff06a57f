import VolumeBroker.Broker
import VolumeBroker.Discovery.Target
import VolumeBroker.Status

/-!
# The life of a volume

A volume is created by binding a device to its name, and from then on goes by the name of that
device.  It is published, unpublished and deleted under that id.

An operation runs in stages, and between two stages of one operation any others may run.  `step` is
one stage: it looks at the broker, changes it, and says what comes next.  While an operation is
`working` or `closing` it holds the lock of its volume, and at no other time.
-/

set_option autoImplicit false

namespace VolumeBroker

/-- How a volume is to be accessed. -/
inductive AccessType
  | block
  | mount
  deriving DecidableEq, Repr

/-- A request for a volume. -/
structure CreateRequest where
  /-- The name, which becomes the owner of a device. -/
  name : String
  /-- What is asked of the volume; `none` where a capability names no way of access. -/
  capabilities : List (Option AccessType)
  parameters : Parameters

/-- An operation on a volume that somebody asks for. -/
inductive Request
  | create (request : CreateRequest)
  | delete (id : String)
  | publish (id node : String)
  | unpublish (id node : String)

/-- What the consumer of a volume is told about it. -/
abbrev VolumeContext := Std.ExtTreeMap String String

/-- A volume that has been created. -/
structure CreatedVolume where
  id : String
  context : VolumeContext

/-- The capacity that is reported for a volume: the consumer looks at the device. -/
def reportedCapacity : Nat := 0

/-- What an operation gives when it succeeds. -/
inductive Answer
  | created (volume : CreatedVolume)
  | deleted
  | published (context : VolumeContext)
  | unpublished

/-- How an operation ends. -/
abbrev Outcome := Except VolumeError Answer

/-- The name under which a volume context lists several endpoints. -/
def endpointsKey : String := "targetTrEndpoints"

/-- Endpoints in one text, with commas between them. -/
def joinEndpoints (endpoints : List String) : String :=
  String.ofList ([','].intercalate (endpoints.map String.toList))

namespace Device

/-- What the consumer of a volume on the device is told: the transport, where it is known, and the
endpoints, where there are several. -/
def volumeContext (d : Device) : VolumeContext :=
  let context : VolumeContext := match d.transport with
    | some t => (∅ : VolumeContext).insert transportParameter t.name
    | none => ∅
  if 1 < d.endpoints.length then
    context.insert endpointsKey (joinEndpoints d.endpoints)
  else context

/-- The transport stands in the context exactly where it is known. -/
theorem getElem?_transport_volumeContext (d : Device) :
    d.volumeContext[transportParameter]? = d.transport.map (·.name) := by
  have hkey : endpointsKey ≠ transportParameter := by decide
  simp only [volumeContext]
  by_cases hseveral : 1 < d.endpoints.length
  · rw [if_pos hseveral, Std.ExtTreeMap.getElem?_insert]
    cases d.transport <;> simp [hkey]
  · rw [if_neg hseveral]
    cases d.transport <;> simp

/-- The endpoints stand in the context exactly where there are several. -/
theorem getElem?_endpoints_volumeContext (d : Device) :
    d.volumeContext[endpointsKey]? =
      if 1 < d.endpoints.length then some (joinEndpoints d.endpoints) else none := by
  have hkey : transportParameter ≠ endpointsKey := by decide
  simp only [volumeContext]
  by_cases hseveral : 1 < d.endpoints.length
  · rw [if_pos hseveral, if_pos hseveral, Std.ExtTreeMap.getElem?_insert_self]
  · rw [if_neg hseveral, if_neg hseveral]
    cases d.transport <;> simp [hkey]

end Device

namespace Request

/-- The key of the lock that the operation works under. -/
def key : Request → String
  | .create request => request.name
  | .delete id => id
  | .publish id _ => id
  | .unpublish id _ => id

/-- What is wrong with a request, if anything is. -/
def fault? : Request → Option VolumeError
  | .create request =>
    if request.name.isEmpty then some (.invalidArgument "volume Name must be provided")
    else if request.capabilities.isEmpty || request.capabilities.any (·.isNone) then
      some (.invalidArgument "volume Capabilities are invalid")
    else none
  | .delete id =>
    if id.isEmpty then some (.invalidArgument "volume ID must be provided") else none
  | .publish id node =>
    if id.isEmpty then
      some (.invalidArgument "ControllerPublishVolume Volume ID must be provided")
    else if node.isEmpty then
      some (.invalidArgument "ControllerPublishVolume Node ID must be provided")
    else none
  | .unpublish id _ =>
    if id.isEmpty then
      some (.invalidArgument "ControllerUnpublishVolume Volume ID must be provided")
    else none

end Request

/-- The stage an operation has reached. -/
inductive Stage
  | arrived
  /-- The snapshot is to be asked for. -/
  | syncing
  /-- The outcome of a load is awaited. -/
  | awaiting (load : Nat)
  | discovering
  /-- The findings of the discovery are to be merged. -/
  | merging (found : List Descriptor)
  | locking
  /-- The lock is held and the work is to be done. -/
  | working
  /-- The work is done and the lock is to be given back. -/
  | closing (outcome : Outcome)
  | ended (outcome : Outcome)

/-- An operation under way. -/
structure Operation where
  request : Request
  stage : Stage := .arrived

/-- What the world around the broker does in a stage. -/
structure Surroundings where
  /-- The failures that calls of the store meet. -/
  faults : Faults := {}
  fabric : Parameters → Except DiscoveryError (List Descriptor)

/-- Somebody whom an operation calls. -/
inductive Collaborator
  | load
  /-- The store, for a record to be written. -/
  | save
  | discover
  deriving DecidableEq, Repr

namespace Operation

/-- Whether the lock of the volume is held. -/
def holdsLock (op : Operation) : Bool :=
  match op.stage with
  | .working => true
  | .closing _ => true
  | _ => false

/-- Whether the next stage looks into the catalog. -/
def entersCatalog (op : Operation) : Bool :=
  match op.stage with
  | .merging _ => true
  | .working => true
  | _ => false

/-- The work of an operation that holds its lock. -/
def work (b : Broker) (faults : Faults) : Request → Outcome × Broker
  | .create request =>
    match b.allocate faults request.name with
    | (.ok d, b) => (.ok (.created ⟨d.nqn, d.volumeContext⟩), b)
    | (.error e, b) => (.error (.resourceExhausted e.message), b)
  | .delete id =>
    match b.release faults id with
    | (.ok _, b) => (.ok .deleted, b)
    | (.error e, b) =>
      (.error (.internal ("failed to release volume " ++ id ++ ": " ++ e.message)), b)
  | .publish id _ =>
    if (b.device? id).any (·.allocation.isOwned) then (.ok (.published ∅), b)
    else (.error (.notFound ("volume " ++ id ++ " not found or not allocated")), b)
  | .unpublish _ _ => (.ok .unpublished, b)

/-- Where an operation goes on whose request is in order. -/
def afterArrival : Request → Stage
  | .create _ => .syncing
  | _ => .locking

/-- The parameters with which an operation has the fabric searched. -/
def parameters : Request → Parameters
  | .create request => request.parameters
  | _ => ∅

/-- Whom the next stage of an operation calls, if that depends on it alone. -/
def calls? (b : Broker) (op : Operation) : Option Collaborator :=
  match op.stage, op.request with
  | .discovering, _ => some .discover
  | .working, .create request =>
    if (b.catalog.allocate request.name).isCommit then some .save else none
  | .working, .delete id => if (b.catalog.release id).isCommit then some .save else none
  | _, _ => none

/-- The next stage of an operation: what comes after it, and what it makes of the broker. -/
def step (around : Surroundings) (b : Broker) (op : Operation) : Stage × Broker :=
  match op.stage with
  | .arrived =>
    match op.request.fault? with
    | some e => (.ended (.error e), b)
    | none => (afterArrival op.request, b)
  | .syncing =>
    match b.enterSync with
    | (.ready, b) => (.discovering, b)
    | (.awaits load, b) => (.awaiting load, b)
  | .awaiting load =>
    match b.sync.outcome? load with
    | none => (.awaiting load, b)
    | some outcome => (.discovering, b.leaveSync load outcome)
  | .discovering =>
    match around.fabric (parameters op.request) with
    | .ok found => (.merging found, b)
    | .error e => (.ended (.error (.internal (RegistryError.discovery e).message)), b)
  | .merging found => (.locking, (b.mergeFound found).2)
  | .locking =>
    match b.lock? op.request.key with
    | none => (.ended (.error (.aborted op.request.key)), b)
    | some b => (.working, b)
  | .working =>
    let (outcome, b) := work b around.faults op.request
    (.closing outcome, b)
  | .closing outcome => (.ended outcome, b.unlock op.request.key)
  | .ended outcome => (.ended outcome, b)

end Operation

end VolumeBroker
