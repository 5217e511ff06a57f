import VolumeBroker.Catalog
import VolumeBroker.Discovery.Error
import VolumeBroker.LockTable
import VolumeBroker.Sync

/-!
# The broker

A broker hands out devices.  What it holds is a catalog, the state of the initial load and the locks
of volumes; beside it stands the store, which outlives it.  The functions here are its critical
sections: each looks at the catalog, calls the store at most once and changes the catalog, and no
other section comes between.  A binding is written before the catalog takes it, so a write that
fails changes nothing.

The store fails when it is told to: a section is given the failure that the call will meet, if any.
-/

set_option autoImplicit false

namespace VolumeBroker

/-- Why a device was not handed out or taken back. -/
inductive RegistryError
  | discovery (e : DiscoveryError)
  /-- No device that can be reached is free. -/
  | noDeviceAvailable
  | persistence (e : StoreError)
  deriving DecidableEq, Repr

/-- The complaint as it is worded for whoever asked. -/
def RegistryError.message : RegistryError → String
  | .discovery e => "device discovery failed: " ++ e.message
  | .noDeviceAvailable => "no free device available"
  | .persistence e => "failed to persist allocation: " ++ e.message

/-- What a broker knows; all of it is lost when its process ends. -/
structure Registry where
  catalog : Catalog := ∅
  sync : Sync := {}
  locks : LockTable := {}

/-- A broker with its store. -/
structure Broker extends Registry where
  store : Store

/-- The failures that calls of the store meet. -/
structure Faults where
  load : Option StoreError := none
  save : Option StoreError := none
  deriving DecidableEq, Repr

namespace Broker

/-- A broker that has just begun and knows nothing but its store. -/
def start (store : Store) : Broker := { store }

/-- The process ends and a new one begins on the same store. -/
def restart (b : Broker) : Broker := start b.store

/-! ## The initial load -/

/-- Calls the store for its snapshot and checks what it gives. -/
def readSnapshot (b : Broker) (faults : Faults) : Except SyncError Snapshot :=
  match faults.load with
  | some e => .error (.store e)
  | none =>
    match b.store.load with
    | .error e => .error (.store e)
    | .ok s =>
      match s.check with
      | .error fault => .error (.snapshot fault)
      | .ok _ => .ok s

/-- Reads the snapshot and lays it over the catalog, if it makes sense. -/
def loadSnapshot (b : Broker) (faults : Faults) : LoadOutcome × Broker :=
  match b.readSnapshot faults with
  | .error e => (.error e, b)
  | .ok s => (.ok (), { b with catalog := b.catalog.overlay s })

/-- Somebody asks for the snapshot, and a load begins if there must be one. -/
def enterSync (b : Broker) : SyncEntry × Broker :=
  let (entry, sync) := b.sync.enter
  (entry, { b with sync })

/-- Once the snapshot is loaded there is nothing to wait for. -/
theorem enterSync_of_synced {b : Broker} (h : b.sync.phase = .synced) :
    b.enterSync = (.ready, b) := by
  simp only [enterSync, Sync.enter, h]

/-- Whoever comes while a load is awaited waits for the same load. -/
theorem enterSync_of_loading {b : Broker} {load : Nat} (h : b.sync.phase = .loading load) :
    b.enterSync = (.awaits load, b) := by
  simp only [enterSync, Sync.enter, h]

/-- Whoever comes first begins a load, with the next number. -/
theorem enterSync_of_notSynced {b : Broker} (h : b.sync.phase = .notSynced) :
    b.enterSync = (.awaits b.sync.begun,
      { b with sync := { b.sync with
          phase := .loading b.sync.begun, begun := b.sync.begun + 1 } }) := by
  simp only [enterSync, Sync.enter, h]

/-- A load ends with an outcome. -/
def finishLoad (b : Broker) (load : Nat) (outcome : LoadOutcome) : Broker :=
  { b with sync := b.sync.finish load outcome }

/-- Somebody who waited for a load has seen its outcome. -/
def leaveSync (b : Broker) (load : Nat) (outcome : LoadOutcome) : Broker :=
  { b with sync := b.sync.settle load outcome }

/-- The load that is awaited, if there is one, runs to its end. -/
def runLoad (b : Broker) (faults : Faults) : Broker :=
  match b.sync.awaited? with
  | none => b
  | some load =>
    let (outcome, b) := b.loadSnapshot faults
    b.finishLoad load outcome

/-! ## Devices -/

/-- Takes the findings of a discovery into the catalog, and tells how many devices are new. -/
def mergeFound (b : Broker) (found : List Descriptor) : Nat × Broker :=
  (b.catalog.countNew found, { b with catalog := b.catalog.merge found })

/-- Takes what the fabric has answered: the devices that it has found, or its failure. -/
def discover (b : Broker) (answer : Except DiscoveryError (List Descriptor)) :
    Except RegistryError Nat × Broker :=
  match answer with
  | .error e => (.error (.discovery e), b)
  | .ok found =>
    let (added, b) := b.mergeFound found
    (.ok added, b)

/-- Carries a decision out: what it asks for is written first, and only then does the catalog take
it. -/
def carryOut {α : Type} (b : Broker) (faults : Faults) (decision : Decision α) :
    Except RegistryError α × Broker :=
  match decision with
  | .settled answer => (.ok answer, b)
  | .commit nqn a answer =>
    match faults.save with
    | some e => (.error (.persistence e), b)
    | none =>
      (.ok answer, { b with store := b.store.put nqn a, catalog := b.catalog.assign nqn a })

/-- Binds a device to a volume, or gives the one that the volume has. -/
def allocate (b : Broker) (faults : Faults) (volume : String) :
    Except RegistryError Device × Broker :=
  match b.carryOut faults (b.catalog.allocate volume) with
  | (.ok (some d), b) => (.ok d, b)
  | (.ok none, b) => (.error .noDeviceAvailable, b)
  | (.error e, b) => (.error e, b)

/-- Takes a device back, and tells whether it was bound. -/
def release (b : Broker) (faults : Faults) (nqn : String) : Except RegistryError Bool × Broker :=
  b.carryOut faults (b.catalog.release nqn)

/-- The device that is known under a name. -/
def device? (b : Broker) (nqn : String) : Option Device := b.catalog[nqn]?

/-! ## Locks -/

/-- Takes the lock of a volume; `none` where somebody holds it. -/
def lock? (b : Broker) (key : String) : Option Broker :=
  (b.locks.tryAcquire key).map fun locks => { b with locks }

/-- Gives the lock of a volume back. -/
def unlock (b : Broker) (key : String) : Broker := { b with locks := b.locks.release key }

end Broker

end VolumeBroker
