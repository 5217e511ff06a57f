import Mathlib.Data.Finset.Card
import VolumeBroker.Broker
import VolumeBroker.Proofs.CatalogLookup

/-!
# What a discovery makes of the catalog

A discovery reports devices one after the other, and may report one more than once.  For each device
the first report counts, and only as far as the catalog does not know already how to reach the
device; the allocation of a device that is known is never touched.  `Catalog.getElem?_merge` says
this in one equation, by which each name is looked up on its own, and `Catalog.Merged` says what it
means for the catalog as a whole.

How many devices are new is told by the growth of the catalog.  A report makes the catalog grow by
one exactly if its name is not known, neither from before nor from an earlier report
(`Catalog.countNew_cons`), so what is counted are the names that are reported and were not known.
-/

set_option autoImplicit false

namespace VolumeBroker

/-- The descriptor is the first one of its device in the list. -/
def Descriptor.IsFirstIn (x : Descriptor) (found : List Descriptor) : Prop :=
  ∃ before after : List Descriptor, found = before ++ x :: after ∧ x.nqn ∉ before.map (·.nqn)

/-- The descriptor that is found for a name is the first one that has it. -/
theorem Descriptor.find?_eq_some_iff_isFirstIn {found : List Descriptor} {nqn : String}
    {x : Descriptor} :
    found.find? (·.nqn == nqn) = some x ↔ x.nqn = nqn ∧ x.IsFirstIn found := by
  rw [List.find?_eq_some_iff_append, beq_iff_eq]
  apply and_congr_right
  rintro rfl
  simp [IsFirstIn]

namespace Catalog

variable {catalog : Catalog} {found : List Descriptor} {nqn : String}

/-- One descriptor adds its own name to the catalog and no other. -/
theorem mem_report (catalog : Catalog) (x : Descriptor) (nqn : String) :
    nqn ∈ catalog.report x ↔ x.nqn = nqn ∨ nqn ∈ catalog := by
  rw [Std.ExtTreeMap.mem_iff_isSome_getElem?, Std.ExtTreeMap.mem_iff_isSome_getElem?,
    getElem?_report]
  split <;> simp_all

/-- A discovery adds the names of its descriptors. -/
theorem mem_merge (catalog : Catalog) (found : List Descriptor) (nqn : String) :
    nqn ∈ catalog.merge found ↔ nqn ∈ catalog ∨ nqn ∈ found.map (·.nqn) := by
  unfold merge
  induction found generalizing catalog with
  | nil => simp
  | cons x found ih =>
    rw [List.foldl_cons, ih, mem_report, List.map_cons, List.mem_cons, eq_comm (a := nqn)]
    tauto

/-- The names that the list reports and the catalog does not know. -/
def newNames (catalog : Catalog) (found : List Descriptor) : Finset String :=
  (found.map (·.nqn)).toFinset.filter (· ∉ catalog)

/-- The new names are those of descriptors that the catalog does not have. -/
theorem mem_newNames : nqn ∈ catalog.newNames found ↔ nqn ∈ found.map (·.nqn) ∧ nqn ∉ catalog := by
  rw [newNames, Finset.mem_filter, List.mem_toFinset]

/-- One descriptor adds one device, or none if the catalog has it. -/
theorem size_report (catalog : Catalog) (x : Descriptor) :
    (catalog.report x).size = if x.nqn ∈ catalog then catalog.size else catalog.size + 1 := by
  by_cases hx : x.nqn ∈ catalog
  · rw [if_pos hx]
    exact Std.ExtTreeMap.size_alter_eq_self_of_mem hx (by cases catalog[x.nqn]? <;> rfl)
  · rw [if_neg hx]
    exact Std.ExtTreeMap.size_alter_eq_add_one hx (by cases catalog[x.nqn]? <;> rfl)

/-- A discovery takes nothing out of the catalog. -/
theorem size_le_size_merge (catalog : Catalog) (found : List Descriptor) :
    catalog.size ≤ (catalog.merge found).size := by
  unfold merge
  induction found generalizing catalog with
  | nil => exact Nat.le_refl _
  | cons x found ih =>
    have hreport : catalog.size ≤ (catalog.report x).size := by
      rw [size_report]
      split <;> omega
    exact Nat.le_trans hreport (ih (catalog.report x))

/-- A report is counted when it is taken in, if its name is not known by then. -/
theorem countNew_cons (catalog : Catalog) (x : Descriptor) (found : List Descriptor) :
    catalog.countNew (x :: found) =
      (if x.nqn ∈ catalog then 0 else 1) + (catalog.report x).countNew found := by
  have hgrows := (catalog.report x).size_le_size_merge found
  have hmerge : catalog.merge (x :: found) = (catalog.report x).merge found := rfl
  rw [countNew, countNew, hmerge]
  rw [size_report] at hgrows ⊢
  by_cases hx : x.nqn ∈ catalog
  · rw [if_pos hx] at hgrows ⊢
    rw [if_pos hx]
    omega
  · rw [if_neg hx] at hgrows ⊢
    rw [if_neg hx]
    omega

/-- So each name that is new to the catalog is counted once, however often it is reported. -/
theorem countNew_eq (catalog : Catalog) (found : List Descriptor) :
    catalog.countNew found = (catalog.newNames found).card := by
  induction found generalizing catalog with
  | nil => exact Nat.sub_self _
  | cons x found ih =>
    rw [countNew_cons, ih]
    by_cases hx : x.nqn ∈ catalog
    · have hnames : catalog.newNames (x :: found) = (catalog.report x).newNames found := by
        ext nqn
        rw [mem_newNames, mem_newNames, mem_report, List.map_cons, List.mem_cons]
        grind
      rw [if_pos hx, hnames, Nat.zero_add]
    · have hnames : catalog.newNames (x :: found) =
          insert x.nqn ((catalog.report x).newNames found) := by
        ext nqn
        rw [Finset.mem_insert, mem_newNames, mem_newNames, mem_report, List.map_cons,
          List.mem_cons]
        grind
      have hnew : x.nqn ∉ (catalog.report x).newNames found := by
        rw [mem_newNames, mem_report]
        simp
      rw [if_neg hx, hnames, Finset.card_insert_of_notMem hnew, Nat.add_comm]

/-- What has been reported is known, and is not changed by the same reports. -/
theorem merge_merge (catalog : Catalog) (found : List Descriptor) :
    (catalog.merge found).merge found = catalog.merge found := by
  refine Std.ExtTreeMap.ext_getElem? fun nqn => ?_
  rw [getElem?_merge, getElem?_merge]
  cases found.find? (·.nqn == nqn) with
  | none => rfl
  | some x =>
    cases catalog[nqn]? with
    | none => rfl
    | some d => exact congrArg some (Device.resolve_of_isAddressable (d.isAddressable_resolve x) x)

/-- The catalog `after` is what the reports of devices make of a catalog. -/
structure Merged (catalog : Catalog) (found : List Descriptor) (after : Catalog) : Prop where
  /-- The devices are those that were known and those that are reported. -/
  mem_iff : ∀ nqn : String, nqn ∈ after ↔ nqn ∈ catalog ∨ nqn ∈ found.map (·.nqn)
  /-- A device that was known keeps its allocation, and so it does its name. -/
  allocated : ∀ (nqn : String) (d : Device), catalog[nqn]? = some d →
    ∃ e : Device, after[nqn]? = some e ∧ e.nqn = d.nqn ∧ e.allocation = d.allocation
  /-- It is not changed at all if it could be reached, or if it is not reported. -/
  kept : ∀ (nqn : String) (d : Device), catalog[nqn]? = some d →
    (d.isAddressable = true ∨ nqn ∉ found.map (·.nqn)) → after[nqn]? = some d
  /-- A device that was new or could not be reached is addressed by its first report. -/
  addressed : ∀ x : Descriptor, x.IsFirstIn found →
    (∀ d : Device, catalog[x.nqn]? = some d → d.isAddressable = false) →
    ∃ e : Device, after[x.nqn]? = some e ∧ e.transport = some x.transport ∧
      e.endpoints = x.endpoints
  /-- A device that was new is free. -/
  free : ∀ (nqn : String) (e : Device), nqn ∉ catalog → after[nqn]? = some e →
    e.nqn = nqn ∧ e.allocation = .free

/-- What the merge makes of a catalog is what a discovery is to make of it. -/
theorem merged_merge (catalog : Catalog) (found : List Descriptor) :
    catalog.Merged found (catalog.merge found) := by
  refine ⟨catalog.mem_merge found, fun nqn d hd => ?_, fun nqn d hd hsettled => ?_,
    fun x hfirst hunresolved => ?_, fun nqn e hnew he => ?_⟩
  · rw [getElem?_merge, hd]
    cases found.find? (·.nqn == nqn) with
    | none => exact ⟨d, rfl, rfl, rfl⟩
    | some x => exact ⟨d.resolve x, rfl, d.nqn_resolve x, d.allocation_resolve x⟩
  · rw [getElem?_merge, hd]
    rcases hsettled with haddressable | hunreported
    · cases found.find? (·.nqn == nqn) with
      | none => rfl
      | some x => exact congrArg some (Device.resolve_of_isAddressable haddressable x)
    · rw [Descriptor.find?_eq_none_iff_notMem.mpr hunreported]
  · rw [getElem?_merge, Descriptor.find?_eq_some_iff_isFirstIn.mpr ⟨rfl, hfirst⟩]
    cases hknown : catalog[x.nqn]? with
    | none => exact ⟨.ofDescriptor x, rfl, rfl, rfl⟩
    | some d =>
      refine ⟨d.resolve x, rfl, ?_⟩
      rw [Device.resolve, hunresolved d hknown]
      exact ⟨rfl, rfl⟩
  · rw [getElem?_merge, Std.ExtTreeMap.getElem?_eq_none hnew] at he
    cases hfind : found.find? (·.nqn == nqn) with
    | none => simp [hfind] at he
    | some x =>
      obtain rfl : Device.ofDescriptor x = e := by simpa [hfind] using he
      exact ⟨Descriptor.nqn_of_find? hfind, rfl⟩

end Catalog

namespace Broker

/-- A discovery that succeeds changes nothing but the catalog, and that as the first report of each
device says; it tells how many of the devices that were reported had not been known.  The same
discovery once more changes nothing and adds none.  A discovery that fails changes nothing. -/
theorem discovery_takes_first_reports (b : Broker) :
    (∀ found : List Descriptor,
      let after := (b.discover (.ok found)).2
      b.catalog.Merged found after.catalog ∧ after = { b with catalog := after.catalog } ∧
      (b.discover (.ok found)).1 = .ok (b.catalog.newNames found).card ∧
      after.discover (.ok found) = (.ok 0, after)) ∧
    ∀ e : DiscoveryError, b.discover (.error e) = (.error (.discovery e), b) := by
  refine ⟨fun found => ⟨b.catalog.merged_merge found, rfl, ?_, ?_⟩, fun e => rfl⟩
  · exact congrArg Except.ok (b.catalog.countNew_eq found)
  · have hcatalog := b.catalog.merge_merge found
    have hnone : (b.catalog.merge found).countNew found = 0 := by
      rw [Catalog.countNew, hcatalog, Nat.sub_self]
    show (Except.ok ((b.catalog.merge found).countNew found),
      { b with catalog := (b.catalog.merge found).merge found }) = _
    rw [hnone, hcatalog]
    rfl

/-- The device `nqn-a` is reported three times and `nqn-b` twice.  Only `nqn-a` is new, and it is
addressed by its first report, as `nqn-b` is, which only the store has named so far. -/
example :
    let b : Broker :=
      { start (.inMemory ∅) with
        catalog := (∅ : Catalog).overlay (.ofList [("nqn-b", .owned "vol1")] compare) }
    let found : List Descriptor := [⟨"nqn-a", .tcp, ["10.0.0.1:4420"]⟩, ⟨"nqn-b", .rdma, []⟩,
      ⟨"nqn-a", .fc, []⟩, ⟨"nqn-b", .tcp, ["10.0.0.2:4420"]⟩, ⟨"nqn-a", .tcp, []⟩]
    (b.discover (.ok found)).1 = .ok 1 ∧ (b.discover (.ok found)).2.catalog.devices =
      [⟨"nqn-a", some .tcp, ["10.0.0.1:4420"], .free⟩,
        ⟨"nqn-b", some .rdma, [], .owned "vol1"⟩] := by
  decide

end Broker

end VolumeBroker
