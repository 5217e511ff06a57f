import VolumeBroker.Catalog

/-!
# What a catalog says of a name

The invariants of a broker speak of the allocation that stands under a name, and not of the tree it
is kept in.  `Catalog.allocation?` is this view of a catalog.  Beside it stand what a snapshot, a
discovery and an assignment do to the view, and when a catalog decides to have a record written:
`allocate_eq_commit_iff` and `release_eq_commit_iff`.
-/

set_option autoImplicit false

namespace VolumeBroker

namespace Descriptor

variable {found : List Descriptor} {nqn : String} {x : Descriptor}

/-- No descriptor of a name is found exactly if the name is not among those of the descriptors. -/
theorem find?_eq_none_iff_notMem :
    found.find? (·.nqn == nqn) = none ↔ nqn ∉ found.map (·.nqn) := by
  simp

/-- The descriptor that is found for a name has it. -/
theorem nqn_of_find? (h : found.find? (·.nqn == nqn) = some x) : x.nqn = nqn :=
  beq_iff_eq.mp (List.find?_eq_some_iff_append.mp h).1

/-- A name that a descriptor is found for is among those of the descriptors. -/
theorem mem_map_nqn_of_find? (h : found.find? (·.nqn == nqn) = some x) :
    nqn ∈ found.map (·.nqn) :=
  nqn_of_find? h ▸ List.mem_map_of_mem (List.mem_of_find?_eq_some h)

end Descriptor

namespace Catalog

/-- The allocation of the device under a name. -/
def allocation? (catalog : Catalog) (nqn : String) : Option Allocation :=
  catalog[nqn]?.map (·.allocation)

/-- Every device stands under its own name. -/
def Named (catalog : Catalog) : Prop :=
  ∀ (nqn : String) (d : Device), catalog[nqn]? = some d → d.nqn = nqn

/-- No volume owns two devices. -/
def Exclusive (catalog : Catalog) : Prop :=
  ∀ m n volume : String, catalog.allocation? m = some (.owned volume) →
    catalog.allocation? n = some (.owned volume) → m = n

/-- The devices of a catalog are what it has under some name. -/
theorem mem_devices {catalog : Catalog} {d : Device} :
    d ∈ catalog.devices ↔ ∃ nqn : String, catalog[nqn]? = some d := by
  simp only [devices, List.mem_map, Prod.exists, exists_eq_right,
    Std.ExtTreeMap.mem_toList_iff_getElem?_eq_some]

/-- A device has an owner exactly if it is allocated to it. -/
theorem owner?_eq_some_iff {d : Device} {volume : String} :
    d.owner? = some volume ↔ d.allocation = .owned volume := by
  unfold Device.owner? Allocation.owner?
  cases d.allocation <;> simp

/-- A device can be bound if it is free and the fabric has told how to reach it. -/
theorem isAllocatable_iff {d : Device} :
    d.isAllocatable = true ↔ d.allocation = .free ∧ d.isAddressable = true := by
  rw [Device.isAllocatable, Bool.and_eq_true]
  cases d.allocation <;> simp [Allocation.isOwned, Allocation.owner?]

/-- The empty catalog gives no device an allocation. -/
@[simp] theorem allocation?_empty (nqn : String) : allocation? (∅ : Catalog) nqn = none := by
  simp [allocation?]

/-! ## Snapshots -/

/-- After a snapshot has been laid over a catalog, its records hold, and besides them what held
before. -/
theorem allocation?_overlay (catalog : Catalog) (s : Snapshot) (nqn : String) :
    (catalog.overlay s).allocation? nqn = s[nqn]?.or (catalog.allocation? nqn) := by
  unfold allocation?
  rw [getElem?_overlay]
  cases s[nqn]? with
  | none => simp
  | some a => cases catalog[nqn]? <;> simp [restore, Device.restored]

/-- A snapshot adds devices under their own names. -/
theorem Named.overlay {catalog : Catalog} (h : catalog.Named) (s : Snapshot) :
    (catalog.overlay s).Named := by
  intro nqn d hd
  rw [getElem?_overlay] at hd
  cases hs : s[nqn]? with
  | none =>
    rw [hs] at hd
    exact h nqn d (by simpa using hd)
  | some a =>
    cases hc : catalog[nqn]? with
    | none =>
      rw [hs, hc] at hd
      obtain rfl : Device.restored nqn a = d := by simpa [restore] using hd
      rfl
    | some e =>
      rw [hs, hc] at hd
      obtain rfl : { e with allocation := a } = d := by simpa [restore] using hd
      exact h nqn e hc

/-! ## Discoveries -/

/-- Of the reports of a device the first one counts, and only if nobody knew how to reach it. -/
theorem getElem?_merge (catalog : Catalog) (found : List Descriptor) (nqn : String) :
    (catalog.merge found)[nqn]? =
      match found.find? (·.nqn == nqn) with
      | none => catalog[nqn]?
      | some x => some ((catalog[nqn]?.map (·.resolve x)).getD (.ofDescriptor x)) := by
  unfold merge
  induction found generalizing catalog with
  | nil => rfl
  | cons x found ih =>
    rw [List.foldl_cons, ih, getElem?_report]
    by_cases hx : x.nqn = nqn
    · -- The first report settles the addressing, and what is settled stays.
      have hsettled :
          ((catalog[nqn]?.map (·.resolve x)).getD (Device.ofDescriptor x)).isAddressable =
            true := by
        cases catalog[nqn]? with
        | none => rfl
        | some d => exact d.isAddressable_resolve x
      rw [if_pos hx, List.find?_cons_of_pos (by simpa using hx)]
      cases found.find? (·.nqn == nqn) with
      | none => rfl
      | some y => exact congrArg some (Device.resolve_of_isAddressable hsettled y)
    · rw [if_neg hx, List.find?_cons_of_neg (by simpa using hx)]

/-- A discovery leaves every allocation alone, and what it adds is free. -/
theorem allocation?_merge (catalog : Catalog) (found : List Descriptor) (nqn : String) :
    (catalog.merge found).allocation? nqn =
      (catalog.allocation? nqn).or (if nqn ∈ found.map (·.nqn) then some .free else none) := by
  unfold allocation?
  rw [getElem?_merge]
  cases hfind : found.find? (·.nqn == nqn) with
  | none => simp [Descriptor.find?_eq_none_iff_notMem.mp hfind]
  | some x =>
    rw [if_pos (Descriptor.mem_map_nqn_of_find? hfind)]
    cases catalog[nqn]? with
    | none => rfl
    | some d => exact congrArg some (d.allocation_resolve x)

/-- A discovery binds nothing: what is bound after it was bound before. -/
theorem allocation?_of_merge_owned {catalog : Catalog} {found : List Descriptor}
    {nqn volume : String} (h : (catalog.merge found).allocation? nqn = some (.owned volume)) :
    catalog.allocation? nqn = some (.owned volume) := by
  rw [allocation?_merge] at h
  cases hk : catalog.allocation? nqn with
  | some a => simpa [hk] using h
  | none =>
    rw [hk] at h
    split at h <;> simp at h

/-- A discovery adds devices under their own names. -/
theorem Named.merge {catalog : Catalog} (h : catalog.Named) (found : List Descriptor) :
    (catalog.merge found).Named := by
  intro nqn d hd
  rw [getElem?_merge] at hd
  cases hfind : found.find? (·.nqn == nqn) with
  | none => exact h nqn d (by simpa [hfind] using hd)
  | some x =>
    cases hc : catalog[nqn]? with
    | none =>
      obtain rfl : Device.ofDescriptor x = d := by simpa [hfind, hc] using hd
      exact Descriptor.nqn_of_find? hfind
    | some e =>
      obtain rfl : e.resolve x = d := by simpa [hfind, hc] using hd
      rw [Device.nqn_resolve]
      exact h nqn e hc

/-! ## Bindings -/

/-- An assignment gives a known device its allocation and touches no other. -/
theorem allocation?_assign (catalog : Catalog) (nqn : String) (a : Allocation) (k : String) :
    (catalog.assign nqn a).allocation? k =
      if nqn = k then (catalog.allocation? k).map fun _ => a else catalog.allocation? k := by
  unfold allocation?
  rw [getElem?_assign]
  by_cases h : nqn = k
  · cases catalog[k]? <;> simp [h]
  · simp [h]

/-- After a device has been bound to a volume, it is the one the volume owns, and every other volume
owns what it did. -/
theorem allocation?_of_assign_owned {catalog : Catalog} {nqn volume k v : String}
    (h : (catalog.assign nqn (.owned volume)).allocation? k = some (.owned v)) :
    (k = nqn ∧ v = volume) ∨ catalog.allocation? k = some (.owned v) := by
  rw [allocation?_assign] at h
  by_cases hk : nqn = k
  · rw [if_pos hk] at h
    obtain ⟨-, -, hv⟩ := Option.map_eq_some_iff.mp h
    exact .inl ⟨hk.symm, (Allocation.owned.inj hv).symm⟩
  · exact .inr (by simpa [hk] using h)

/-- A device that is set free binds nothing: what is bound afterwards was bound before. -/
theorem allocation?_of_assign_free {catalog : Catalog} {nqn k v : String}
    (h : (catalog.assign nqn .free).allocation? k = some (.owned v)) :
    catalog.allocation? k = some (.owned v) := by
  rw [allocation?_assign] at h
  by_cases hk : nqn = k
  · rw [if_pos hk] at h
    obtain ⟨-, -, hv⟩ := Option.map_eq_some_iff.mp h
    cases hv
  · simpa [hk] using h

/-- An allocation renames nothing. -/
theorem Named.assign {catalog : Catalog} (h : catalog.Named) (nqn : String) (a : Allocation) :
    (catalog.assign nqn a).Named := by
  intro k d hd
  rw [getElem?_assign] at hd
  by_cases hk : nqn = k
  · cases hc : catalog[k]? with
    | none => simp [hk, hc] at hd
    | some e =>
      obtain rfl : { e with allocation := a } = d := by simpa [hk, hc] using hd
      exact h k e hc
  · exact h k d (by simpa [hk] using hd)

/-- Of two assignments to one device the second stays. -/
theorem assign_assign (catalog : Catalog) (nqn : String) (a a' : Allocation) :
    (catalog.assign nqn a).assign nqn a' = catalog.assign nqn a' := by
  refine Std.ExtTreeMap.ext_getElem? fun k => ?_
  simp only [getElem?_assign]
  by_cases hk : nqn = k
  · rw [if_pos hk, if_pos hk, if_pos hk, Option.map_map]
    rfl
  · rw [if_neg hk, if_neg hk, if_neg hk]

/-- An assignment that says nothing new changes nothing. -/
theorem assign_of_allocation? {catalog : Catalog} {nqn : String} {a : Allocation}
    (h : catalog.allocation? nqn = some a) : catalog.assign nqn a = catalog := by
  refine Std.ExtTreeMap.ext_getElem? fun k => ?_
  rw [getElem?_assign]
  split
  · next hk =>
    subst hk
    obtain ⟨d, hd, rfl⟩ := Option.map_eq_some_iff.mp h
    rw [hd, Option.map_some]
  · rfl

/-- No device is found for a volume exactly when the catalog gives it none. -/
theorem ownedBy?_eq_none_iff {catalog : Catalog} {volume : String} :
    catalog.ownedBy? volume = none ↔
      ∀ nqn : String, catalog.allocation? nqn ≠ some (.owned volume) := by
  have owned (d : Device) : (d.owner? == some volume) = true ↔ d.allocation = .owned volume := by
    rw [beq_iff_eq, owner?_eq_some_iff]
  simp only [ownedBy?, List.find?_eq_none, mem_devices, owned, allocation?, ne_eq,
    Option.map_eq_some_iff]
  constructor
  · rintro h nqn ⟨d, hd, hv⟩
    exact h d ⟨nqn, hd⟩ hv
  · rintro h d ⟨nqn, hd⟩ hv
    exact h nqn ⟨d, hd, hv⟩

/-- A request for a device has a record written exactly when the volume owns nothing and some device
can be bound; the record binds the first such device. -/
theorem allocate_eq_commit_iff {catalog : Catalog} {volume nqn : String} {a : Allocation}
    {answer : Option Device} :
    catalog.allocate volume = .commit nqn a answer ↔
      catalog.ownedBy? volume = none ∧ ∃ d : Device, catalog.firstAllocatable? = some d ∧
        d.nqn = nqn ∧ .owned volume = a ∧ some { d with allocation := .owned volume } = answer := by
  unfold allocate
  cases catalog.ownedBy? volume with
  | some d => simp
  | none => cases catalog.firstAllocatable? <;> simp

/-- The first device that can be bound stands in the catalog, it is free, and it can be reached. -/
theorem getElem?_of_firstAllocatable? {catalog : Catalog} (hc : catalog.Named) {d : Device}
    (h : catalog.firstAllocatable? = some d) :
    catalog[d.nqn]? = some d ∧ d.allocation = .free ∧ d.isAddressable = true := by
  obtain ⟨nqn, hd⟩ := mem_devices.mp (List.mem_of_find?_eq_some h)
  have hbind : d.isAllocatable = true := List.find?_some h
  exact ⟨hc nqn d hd ▸ hd, isAllocatable_iff.mp hbind⟩

/-- The device that is next to be bound is free. -/
theorem allocation?_of_firstAllocatable? {catalog : Catalog} (hc : catalog.Named) {d : Device}
    (h : catalog.firstAllocatable? = some d) : catalog.allocation? d.nqn = some .free := by
  obtain ⟨hd, hfree, -⟩ := getElem?_of_firstAllocatable? hc h
  rw [allocation?, hd, Option.map_some, hfree]

/-- The test for a device that is bound succeeds exactly if some volume owns it. -/
theorem any_isOwned_iff {catalog : Catalog} {nqn : String} :
    catalog[nqn]?.any (·.allocation.isOwned) = true ↔
      ∃ volume : String, catalog.allocation? nqn = some (.owned volume) := by
  unfold allocation?
  cases catalog[nqn]? with
  | none => simp
  | some d => cases ha : d.allocation <;> simp [ha, Allocation.isOwned, Allocation.owner?]

/-- The return of a device has a record written exactly when the device is bound; the record frees
it. -/
theorem release_eq_commit_iff {catalog : Catalog} {id nqn : String} {a : Allocation}
    {answer : Bool} :
    catalog.release id = .commit nqn a answer ↔
      (∃ volume : String, catalog.allocation? id = some (.owned volume)) ∧
        id = nqn ∧ .free = a ∧ true = answer := by
  unfold release
  rw [← any_isOwned_iff]
  split <;> simp_all

/-- The return of a device that is not bound has nothing written. -/
theorem release_eq_settled {catalog : Catalog} {nqn : String}
    (h : ∀ volume : String, catalog.allocation? nqn ≠ some (.owned volume)) :
    catalog.release nqn = .settled false :=
  if_neg (mt any_isOwned_iff.mp (not_exists.mpr h))

end Catalog

end VolumeBroker
