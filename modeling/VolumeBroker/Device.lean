import VolumeBroker.Transport

/-!
# Devices

A device is one NVMe subsystem on the fabric, named by its qualified name (NQN).  Two things are
known about it separately: its addressing, which the fabric reports, and its allocation, which the
store records.  A device that is bound to a volume always names that volume, because the owner is a
part of the allocation itself.
-/

set_option autoImplicit false

namespace VolumeBroker

/-- Whether a device is bound to a volume, and to which. -/
inductive Allocation
  | free
  | owned (volume : String)
  deriving DecidableEq, Repr, Inhabited

namespace Allocation

/-- The volume that a device is bound to. -/
def owner? : Allocation → Option String
  | .free => none
  | .owned volume => some volume

/-- Whether there is an owner. -/
def isOwned (a : Allocation) : Bool := a.owner?.isSome

end Allocation

/-- What the fabric reports about a subsystem. -/
structure Descriptor where
  nqn : String
  transport : Transport
  /-- Where it is reached, in the order in which the fabric reports it. -/
  endpoints : List String
  deriving DecidableEq, Repr, Inhabited

/-- A subsystem as the catalog knows it. -/
structure Device where
  /-- The name of the subsystem, and the id of the volume bound to it. -/
  nqn : String
  /-- How it is reached; unknown while only the store has named the device. -/
  transport : Option Transport
  endpoints : List String
  /-- Whether it is bound to a volume. -/
  allocation : Allocation
  deriving DecidableEq, Repr, Inhabited

namespace Device

/-- A device the fabric reports for the first time: it is free. -/
def ofDescriptor (d : Descriptor) : Device := ⟨d.nqn, some d.transport, d.endpoints, .free⟩

/-- A device that only the store has named: nothing is known about how to reach it. -/
def restored (nqn : String) (a : Allocation) : Device := ⟨nqn, none, [], a⟩

/-- Whether the fabric has told how to reach the device. -/
def isAddressable (d : Device) : Bool := d.transport.isSome

/-- Whether the device can be bound to a volume: it is free, and it can be reached. -/
def isAllocatable (d : Device) : Bool := !d.allocation.isOwned && d.isAddressable

/-- The volume that owns the device. -/
def owner? (d : Device) : Option String := d.allocation.owner?

/-- The device with the addressing of a descriptor, unless it has some already. -/
def resolve (d : Device) (found : Descriptor) : Device :=
  if d.isAddressable then d
  else { d with transport := some found.transport, endpoints := found.endpoints }

/-- Learning where a device is leaves its allocation alone. -/
@[simp] theorem allocation_resolve (d : Device) (found : Descriptor) :
    (d.resolve found).allocation = d.allocation := by
  unfold resolve; split <;> rfl

/-- Learning where a device is leaves its name alone. -/
@[simp] theorem nqn_resolve (d : Device) (found : Descriptor) : (d.resolve found).nqn = d.nqn := by
  unfold resolve; split <;> rfl

/-- A device that has been reported can be reached. -/
@[simp] theorem isAddressable_resolve (d : Device) (found : Descriptor) :
    (d.resolve found).isAddressable = true := by
  unfold resolve; split <;> simp_all [isAddressable]

/-- A device that can be reached is not changed by a report. -/
theorem resolve_of_isAddressable {d : Device} (h : d.isAddressable = true) (found : Descriptor) :
    d.resolve found = d := by
  rw [resolve, if_pos h]

end Device

end VolumeBroker
