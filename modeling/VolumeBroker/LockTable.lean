import Std.Data.ExtTreeSet
import Std.Data.ExtTreeMap

/-!
# Locks of volumes

An operation on a volume holds the key of the volume while it works.  A table is the set of keys
that are held.  A key is taken only if nobody holds it, and nobody waits for one: a refusal is
answered at once.

`GuardSlots` is a table together with its guards, each kept in a named slot.  Storing a guard in a
slot that is in use drops the guard that was there, after the new one has been taken.
-/

set_option autoImplicit false

namespace VolumeBroker

/-- The keys that are held. -/
structure LockTable where
  held : Std.ExtTreeSet String := ∅

namespace LockTable

/-- Whether somebody holds the lock of a volume. -/
def isLocked (t : LockTable) (key : String) : Bool := t.held.contains key

/-- How many locks are held. -/
def size (t : LockTable) : Nat := t.held.size

/-- Whether no lock is held. -/
def isEmpty (t : LockTable) : Bool := t.held.isEmpty

/-- Takes a key, unless somebody holds it. -/
def tryAcquire (t : LockTable) (key : String) : Option LockTable :=
  if t.isLocked key then none else some ⟨t.held.insert key⟩

/-- Gives the lock of a volume back, whoever holds it. -/
def release (t : LockTable) (key : String) : LockTable := ⟨t.held.erase key⟩

/-- A key is taken exactly when nobody holds it. -/
theorem tryAcquire_eq_none_iff {t : LockTable} {key : String} :
    t.tryAcquire key = none ↔ t.isLocked key = true := by
  unfold tryAcquire; split <;> simp_all

/-- What is held after a key has been taken. -/
theorem isLocked_of_tryAcquire {t u : LockTable} {key : String} (h : t.tryAcquire key = some u)
    (k : String) : u.isLocked k = (decide (k = key) || t.isLocked k) := by
  unfold tryAcquire at h
  split at h
  · simp at h
  · cases h
    rw [Bool.eq_iff_iff]
    simp [isLocked, Std.ExtTreeSet.contains_insert, @eq_comm _ k key]

/-- What is held after a key has been given back. -/
theorem isLocked_release (t : LockTable) (key k : String) :
    (t.release key).isLocked k = (decide (k ≠ key) && t.isLocked k) := by
  rw [Bool.eq_iff_iff]
  simp [isLocked, release, Std.ExtTreeSet.contains_erase, @eq_comm _ k key]

end LockTable

/-- A table of locks and the guards of the keys it holds, each in a slot of its own. -/
structure GuardSlots where
  table : LockTable := {}
  /-- The key of the guard in each slot that is in use. -/
  slots : Std.ExtTreeMap String String := ∅

namespace GuardSlots

/-- Takes a key and stores its guard, which drops the guard that was in the slot. -/
def acquire (g : GuardSlots) (slot key : String) : Option GuardSlots :=
  (g.table.tryAcquire key).map fun table =>
    let table := match g.slots[slot]? with
      | some old => table.release old
      | none => table
    ⟨table, g.slots.insert slot key⟩

/-- Drops the guard in a slot, if there is one. -/
def release (g : GuardSlots) (slot : String) : Option GuardSlots :=
  g.slots[slot]?.map fun key => ⟨g.table.release key, g.slots.erase slot⟩

/-- Drops all guards, each of which gives its lock back. -/
def releaseAll (g : GuardSlots) : GuardSlots :=
  ⟨g.slots.foldl (fun table _ key => table.release key) g.table, ∅⟩

end GuardSlots

end VolumeBroker
