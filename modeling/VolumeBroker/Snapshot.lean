import VolumeBroker.Device
import Std.Data.ExtTreeMap

/-!
# Allocation snapshots

A snapshot is what a store holds: for each device it names, the allocation.  Not every snapshot
makes sense.  `Snapshot.check` accepts those in which every device has a name, every owner has a
name, and no volume owns two devices; of several faults it reports the first in the order of names.
-/

set_option autoImplicit false

namespace VolumeBroker

/-- The allocations of the devices that a store names. -/
abbrev Snapshot := Std.ExtTreeMap String Allocation

/-- What makes a snapshot unusable. -/
inductive SnapshotFault
  | namelessDevice
  /-- A device whose owner has no name. -/
  | namelessOwner (nqn : String)
  | sharedOwner (volume : String)
  deriving DecidableEq, Repr

/-- The fault in words. -/
def SnapshotFault.message : SnapshotFault → String
  | .namelessDevice => "record with empty NQN"
  | .namelessOwner nqn => "device " ++ nqn ++ " allocated without an owner"
  | .sharedOwner volume => "volume " ++ volume ++ " owns more than one device"

namespace Snapshot

/-- The fault of a record, when the records before it have these owners. -/
def fault? (owners : List String) (nqn : String) (a : Allocation) : Option SnapshotFault :=
  if nqn.isEmpty then some .namelessDevice
  else match a.owner? with
    | none => none
    | some volume =>
      if volume.isEmpty then some (.namelessOwner nqn)
      else if volume ∈ owners then some (.sharedOwner volume)
      else none

/-- Checks records after others with these owners. -/
def checkFrom (owners : List String) : List (String × Allocation) → Except SnapshotFault Unit
  | [] => .ok ()
  | (nqn, a) :: rest =>
    match fault? owners nqn a with
    | some fault => .error fault
    | none => checkFrom (a.owner?.toList ++ owners) rest

/-- Checks a snapshot, record by record in the order of the names. -/
def check (s : Snapshot) : Except SnapshotFault Unit := checkFrom [] s.toList

end Snapshot

end VolumeBroker
