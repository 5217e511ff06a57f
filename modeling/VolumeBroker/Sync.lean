import VolumeBroker.Store

/-!
# The initial load

The snapshot of the store is loaded once.  Whoever needs it enters: if no load is under way, one is
begun, and everybody who enters until it ends waits for the same outcome.  After a success nobody
loads again; after a failure the next one to enter begins a new load.  Loads are numbered in the
order in which they begin, and the outcome of a load is looked up under its number, so that a caller
who comes late still sees the outcome of the load it waited for.
-/

set_option autoImplicit false

namespace VolumeBroker

/-- Why the snapshot could not be taken. -/
inductive SyncError
  | store (e : StoreError)
  | snapshot (fault : SnapshotFault)
  /-- The task of the load has come to no end of its own. -/
  | lost (reason : String)
  deriving DecidableEq, Repr

namespace SyncError

/-- Whether the trouble is in the records; otherwise the store could not be reached. -/
def isMalformed : SyncError → Bool
  | .store e => e.isUndecodable
  | .snapshot _ => true
  | .lost _ => false

/-- The complaint of what failed. -/
def reason : SyncError → String
  | .store e => e.message
  | .snapshot fault => fault.message
  | .lost reason => "snapshot load task failed: " ++ reason

/-- The complaint as whoever waited for the load is told it. -/
def message (e : SyncError) : String :=
  (if e.isMalformed then "malformed allocation snapshot: " else "allocation store unavailable: ") ++
    e.reason

end SyncError

/-- How a load ended. -/
abbrev LoadOutcome := Except SyncError Unit

/-- How far the initial load has come. -/
inductive SyncPhase
  | notSynced
  /-- The outcome of the load with this number is awaited. -/
  | loading (load : Nat)
  | synced
  deriving DecidableEq, Repr

/-- Where a load leaves things: a success is kept, a failure is as good as no load at all. -/
def SyncPhase.after : LoadOutcome → SyncPhase
  | .ok _ => .synced
  | .error _ => .notSynced

/-- The state of the initial load. -/
structure Sync where
  phase : SyncPhase := .notSynced
  /-- How many loads have been begun; the next one gets this number. -/
  begun : Nat := 0
  /-- The loads that have ended, each with its outcome, the last one first. -/
  ended : List (Nat × LoadOutcome) := []

/-- What somebody who enters gets. -/
inductive SyncEntry
  | ready
  /-- The outcome of this load is to be awaited. -/
  | awaits (load : Nat)
  deriving DecidableEq, Repr

namespace Sync

/-- Whether the snapshot has been loaded. -/
def isSynced (s : Sync) : Bool := s.phase == .synced

/-- The load whose outcome is awaited. -/
def awaited? (s : Sync) : Option Nat :=
  match s.phase with
  | .loading load => some load
  | _ => none

/-- The outcome of a load, if it has ended. -/
def outcome? (s : Sync) (load : Nat) : Option LoadOutcome := s.ended.lookup load

/-- Whether a load has been begun and has not ended. -/
def isUnderWay (s : Sync) (load : Nat) : Bool := load < s.begun && (s.outcome? load).isNone

/-- Somebody enters, and a load begins if there must be one. -/
def enter (s : Sync) : SyncEntry × Sync :=
  match s.phase with
  | .synced => (.ready, s)
  | .loading load => (.awaits load, s)
  | .notSynced => (.awaits s.begun, { s with phase := .loading s.begun, begun := s.begun + 1 })

/-- Somebody has seen the outcome of a load: it settles the state if that load is still awaited. -/
def settle (s : Sync) (load : Nat) (outcome : LoadOutcome) : Sync :=
  if s.phase = .loading load then { s with phase := .after outcome } else s

/-- A load ends: those who wait for it can see the outcome, which settles the state if any load is
awaited. -/
def finish (s : Sync) (load : Nat) (outcome : LoadOutcome) : Sync :=
  { s with
    phase := match s.phase with
      | .loading _ => .after outcome
      | phase => phase
    ended := (load, outcome) :: s.ended }

end Sync

end VolumeBroker
