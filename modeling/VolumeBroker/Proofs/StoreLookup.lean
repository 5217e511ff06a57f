import VolumeBroker.Store
import VolumeBroker.Proofs.RecordText

/-!
# What a store says of a name

Of a store it matters which names it holds and which allocation is recorded under each.  The two
differ only for a database in which somebody has left a text that is no record: such a name is held
and has no allocation.  A write replaces what is held under its names and drops nothing.
-/

set_option autoImplicit false

namespace VolumeBroker.Store

/-- The store holds something under the name, readable or not. -/
def Names (s : Store) (nqn : String) : Prop :=
  match s with
  | .memory records => nqn ∈ records
  | .database texts => nqn ∈ texts

/-- The allocation that is recorded under the name. -/
def record? (s : Store) (nqn : String) : Option Allocation :=
  match s with
  | .memory records => records[nqn]?
  | .database texts => texts[nqn]?.bind Allocation.decode?

/-- The store binds nothing under the name: it holds nothing there, or a record that says so. -/
def Vacant (s : Store) (nqn : String) : Prop :=
  ¬ s.Names nqn ∨ s.record? nqn = some .free

/-- A store names the devices that it has records of. -/
theorem names_of_record? {s : Store} {nqn : String} {a : Allocation}
    (h : s.record? nqn = some a) : s.Names nqn := by
  cases s with
  | memory records =>
    have h : records[nqn]? = some a := h
    exact Std.ExtTreeMap.mem_iff_isSome_getElem?.mpr (by simp [h])
  | database texts =>
    obtain ⟨text, ht, -⟩ := Option.bind_eq_some_iff.mp h
    exact Std.ExtTreeMap.mem_iff_isSome_getElem?.mpr (by simp [ht])

/-! ## Writing -/

/-- Whatever is saved, a device that the store names stays named: records are replaced and never
taken out. -/
theorem Names.save {s : Store} {nqn : String} (h : s.Names nqn) (records : Snapshot) :
    (s.save records).Names nqn := by
  cases s with
  | memory old => exact Std.ExtTreeMap.mem_union_of_left h
  | database old => exact Std.ExtTreeMap.mem_union_of_left h

/-- A device that the store names stays named also when a foreign hand puts texts in. -/
theorem Names.reopen {s : Store} {nqn : String} (h : s.Names nqn)
    (texts : Std.ExtTreeMap String String) : (s.reopen texts).Names nqn := by
  cases s with
  | memory old => exact h
  | database old => exact Std.ExtTreeMap.mem_union_of_left h

/-- After a record has been put into the store, its name is held, and besides it the names that
were held before. -/
theorem names_put (s : Store) (nqn : String) (a : Allocation) (k : String) :
    (s.put nqn a).Names k ↔ nqn = k ∨ s.Names k := by
  cases s with
  | memory old =>
    simp [put, save, Names, Std.ExtTreeMap.mem_union_iff, or_comm]
  | database old =>
    simp [put, save, Names, Std.ExtTreeMap.mem_union_iff, or_comm]

/-- After a record has been put into the store, it holds, and every other name has the record it had
before. -/
theorem record?_put (s : Store) (nqn : String) (a : Allocation) (k : String) :
    (s.put nqn a).record? k = if nqn = k then some a else s.record? k := by
  cases s with
  | memory old =>
    show (old ∪ (∅ : Snapshot).insert nqn a)[k]? = _
    rw [Std.ExtTreeMap.getElem?_union, Std.ExtTreeMap.getElem?_insert]
    by_cases h : nqn = k <;> simp [h, record?]
  | database old =>
    show (old ∪ ((∅ : Snapshot).insert nqn a).map fun _ a => a.encode)[k]?.bind _ = _
    rw [Std.ExtTreeMap.getElem?_union, Std.ExtTreeMap.getElem?_map, Std.ExtTreeMap.getElem?_insert]
    by_cases h : nqn = k <;> simp [h, record?, Allocation.decode?_encode]

/-- Of two records that are put under one name the second stays. -/
theorem put_put (s : Store) (nqn : String) (a a' : Allocation) :
    (s.put nqn a).put nqn a' = s.put nqn a' := by
  cases s with
  | memory old =>
    refine congrArg memory (Std.ExtTreeMap.ext_getElem? fun k => ?_)
    rw [Std.ExtTreeMap.getElem?_union, Std.ExtTreeMap.getElem?_union,
      Std.ExtTreeMap.getElem?_union, Std.ExtTreeMap.getElem?_insert,
      Std.ExtTreeMap.getElem?_insert]
    split <;> simp
  | database old =>
    refine congrArg database (Std.ExtTreeMap.ext_getElem? fun k => ?_)
    rw [Std.ExtTreeMap.getElem?_union, Std.ExtTreeMap.getElem?_union,
      Std.ExtTreeMap.getElem?_union, Std.ExtTreeMap.getElem?_map, Std.ExtTreeMap.getElem?_map,
      Std.ExtTreeMap.getElem?_insert, Std.ExtTreeMap.getElem?_insert]
    split <;> simp

/-! ## Reading -/

/-- A database that can be read holds nothing but records, and gives what they mean. -/
theorem load_database_eq_ok {texts : Std.ExtTreeMap String String} {snapshot : Snapshot}
    (h : (database texts).load = .ok snapshot) :
    (∀ nqn text : String, texts[nqn]? = some text → (Allocation.decode? text).isSome) ∧
      texts.filterMap (fun _ text => Allocation.decode? text) = snapshot := by
  simp only [load] at h
  split at h
  · next hall =>
    refine ⟨fun nqn text ht => ?_, Except.ok.inj h⟩
    exact List.all_eq_true.mp hall (nqn, text)
      (Std.ExtTreeMap.mem_toList_iff_getElem?_eq_some.mpr ht)
  · cases h

/-- A store that can be read gives the record under each name. -/
theorem getElem?_of_load_eq_ok {s : Store} {snapshot : Snapshot} (h : s.load = .ok snapshot)
    (nqn : String) : snapshot[nqn]? = s.record? nqn := by
  cases s with
  | memory records =>
    obtain rfl : records = snapshot := Except.ok.inj h
    rfl
  | database texts =>
    obtain ⟨-, rfl⟩ := load_database_eq_ok h
    simp [record?]

/-- A store that can be read has a record under every name it holds. -/
theorem record?_isSome_of_load_eq_ok {s : Store} {snapshot : Snapshot} (h : s.load = .ok snapshot)
    {nqn : String} (hn : s.Names nqn) : (s.record? nqn).isSome := by
  cases s with
  | memory records => exact Std.ExtTreeMap.mem_iff_isSome_getElem?.mp hn
  | database texts =>
    obtain ⟨text, ht⟩ := Option.isSome_iff_exists.mp (Std.ExtTreeMap.mem_iff_isSome_getElem?.mp hn)
    simpa [record?, ht] using (load_database_eq_ok h).1 nqn text ht

end VolumeBroker.Store
