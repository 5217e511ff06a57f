import VolumeBroker.Snapshot

/-!
# The catalog

The catalog holds the devices that are known, each under its name, in the order of the names; that
order decides which free device is bound first.  Four things happen to a catalog: a snapshot is laid
over it, the findings of a discovery are merged into it, and a device is bound or freed.  Each is a
function here, and beside each stands what it does to the device under a name.
-/

set_option autoImplicit false

namespace VolumeBroker

/-- The devices that are known, by name. -/
abbrev Catalog := Std.ExtTreeMap String Device

/-- What a request leads to once the catalog has been consulted. -/
inductive Decision (α : Type)
  | settled (answer : α)
  /-- The record of a device has to be written before the answer holds. -/
  | commit (nqn : String) (allocation : Allocation) (answer : α)
  deriving DecidableEq, Repr

/-- Whether a record has to be written. -/
def Decision.isCommit {α : Type} : Decision α → Bool
  | .settled _ => false
  | .commit _ _ _ => true

namespace Catalog

/-- The devices in the order of their names. -/
def devices (catalog : Catalog) : List Device := catalog.toList.map (·.2)

/-! ## Snapshots -/

/-- The device a snapshot makes of one that is known or not. -/
def restore (known : Option Device) (nqn : String) (a : Allocation) : Device :=
  match known with
  | some d => { d with allocation := a }
  | none => .restored nqn a

/-- Lays a snapshot over the catalog: a known device takes the allocation of its record, and one
that only the snapshot names is restored. -/
def overlay (catalog : Catalog) (s : Snapshot) : Catalog :=
  catalog ∪ s.map fun nqn a => restore catalog[nqn]? nqn a

/-- After a snapshot has been laid over it, the catalog has what the snapshot makes of each device
that it names, and the other devices as before. -/
theorem getElem?_overlay (catalog : Catalog) (s : Snapshot) (nqn : String) :
    (catalog.overlay s)[nqn]? = (s[nqn]?.map (restore catalog[nqn]? nqn)).or catalog[nqn]? := by
  simp [overlay, Std.ExtTreeMap.getElem?_union, Std.ExtTreeMap.getElem?_map]

/-! ## Discoveries -/

/-- Takes one descriptor into the catalog: a new device is free, a known one is at most resolved. -/
def report (catalog : Catalog) (found : Descriptor) : Catalog :=
  catalog.alter found.nqn fun
    | none => some (.ofDescriptor found)
    | some d => some (d.resolve found)

/-- Takes the findings of a discovery into the catalog, one after the other. -/
def merge (catalog : Catalog) (found : List Descriptor) : Catalog := found.foldl report catalog

/-- How many devices the findings of a discovery add. -/
def countNew (catalog : Catalog) (found : List Descriptor) : Nat :=
  (catalog.merge found).size - catalog.size

/-- One descriptor resolves the device of its name, or adds it, and touches no other. -/
theorem getElem?_report (catalog : Catalog) (found : Descriptor) (nqn : String) :
    (catalog.report found)[nqn]? =
      if found.nqn = nqn then
        some ((catalog[nqn]?.map (·.resolve found)).getD (.ofDescriptor found))
      else catalog[nqn]? := by
  rw [report, Std.ExtTreeMap.getElem?_alter]
  by_cases h : found.nqn = nqn
  · subst h
    cases catalog[found.nqn]? <;> simp
  · simp [h]

/-! ## Bindings -/

/-- Gives a known device an allocation. -/
def assign (catalog : Catalog) (nqn : String) (a : Allocation) : Catalog :=
  catalog.modify nqn ({ · with allocation := a })

/-- An allocation changes the device that it is given to, if that one is known, and no other. -/
theorem getElem?_assign (catalog : Catalog) (nqn : String) (a : Allocation) (k : String) :
    (catalog.assign nqn a)[k]? =
      if nqn = k then catalog[k]?.map ({ · with allocation := a }) else catalog[k]? := by
  rw [assign, Std.ExtTreeMap.getElem?_modify]
  by_cases h : nqn = k
  · subst h; simp
  · simp [h]

/-- The device that a volume owns. -/
def ownedBy? (catalog : Catalog) (volume : String) : Option Device :=
  catalog.devices.find? (·.owner? == some volume)

/-- The first device that can be bound. -/
def firstAllocatable? (catalog : Catalog) : Option Device :=
  catalog.devices.find? (·.isAllocatable)

/-- What a request for a device leads to: the device that the volume owns already, or the first one
that can be bound, or nothing. -/
def allocate (catalog : Catalog) (volume : String) : Decision (Option Device) :=
  match catalog.ownedBy? volume with
  | some d => .settled (some d)
  | none =>
    match catalog.firstAllocatable? with
    | none => .settled none
    | some d => .commit d.nqn (.owned volume) (some { d with allocation := .owned volume })

/-- What the return of a device leads to: it is freed if it is bound. -/
def release (catalog : Catalog) (nqn : String) : Decision Bool :=
  if catalog[nqn]?.any (·.allocation.isOwned) then .commit nqn .free true else .settled false

end Catalog

end VolumeBroker
