import VolumeBroker.Proofs.AllocationOrder
import VolumeBroker.Proofs.DiscoveryMerge
import VolumeBroker.Proofs.LoadAmongDiscoveries

/-!
# Devices that are given back

A device that is bound and given back is as it was before, and so is every other device; all that is
left of it is a record in the store that says that the device is free.  The next volume that needs a
device is given the same one, because it is again the first one that can be bound.

Discoveries in between leave the device alone, bound or free.  But they can put another one before
it in the order of the names: one that they report for the first time, or one that only the store
had named, so that nobody could reach it.  `Catalog.Opens` says which devices a discovery lets be
bound, and the next volume gets the same device exactly if none of these comes before it.
-/

set_option autoImplicit false

namespace VolumeBroker

namespace Catalog

variable {catalog : Catalog}

/-! ## Assignments among discoveries -/

/-- A device with an allocation is in the catalog. -/
theorem mem_of_allocation? {nqn : String} {a : Allocation} (h : catalog.allocation? nqn = some a) :
    nqn ∈ catalog := by
  obtain ⟨d, hd, -⟩ := Option.map_eq_some_iff.mp h
  exact Std.ExtTreeMap.mem_iff_isSome_getElem?.mpr (by simp [hd])

/-- An assignment to a device that is known is a snapshot with one record. -/
theorem assign_eq_overlay {nqn : String} (h : nqn ∈ catalog) (a : Allocation) :
    catalog.assign nqn a = catalog.overlay ((∅ : Snapshot).insert nqn a) := by
  obtain ⟨d, hd⟩ := Option.isSome_iff_exists.mp (Std.ExtTreeMap.mem_iff_isSome_getElem?.mp h)
  refine Std.ExtTreeMap.ext_getElem? fun k => ?_
  rw [getElem?_assign, getElem?_overlay, Std.ExtTreeMap.getElem?_insert]
  by_cases hk : nqn = k
  · subst hk
    simp [hd, restore]
  · simp [hk]

/-- So it does not matter whether it comes before a discovery or after it. -/
theorem merge_assign {nqn : String} (h : nqn ∈ catalog) (a : Allocation)
    (found : List Descriptor) :
    (catalog.assign nqn a).merge found = (catalog.merge found).assign nqn a := by
  have hstill : nqn ∈ catalog.merge found := (catalog.mem_merge found nqn).mpr (.inl h)
  rw [assign_eq_overlay h, assign_eq_overlay hstill, merge_overlay]

/-- An allocation makes no difference to whether other devices can be bound. -/
theorem mem_allocatable_assign_of_ne {nqn k : String} (h : k ≠ nqn) (a : Allocation) :
    k ∈ (catalog.assign nqn a).allocatable ↔ k ∈ catalog.allocatable := by
  rw [mem_allocatable, mem_allocatable, getElem?_assign, if_neg h.symm]

/-! ## Devices that a discovery lets be bound -/

/-- The discovery lets the device be bound: it is reported for the first time, or it was free and
nobody knew how to reach it. -/
def Opens (catalog : Catalog) (found : List Descriptor) (nqn : String) : Prop :=
  nqn ∈ found.map (·.nqn) ∧
    (nqn ∉ catalog ∨
      ∃ d : Device, catalog[nqn]? = some d ∧ d.allocation = .free ∧ d.isAddressable = false)

/-- One of the discoveries lets the device be bound, in the catalog that it meets. -/
def OpensAmong (catalog : Catalog) : List (List Descriptor) → String → Prop
  | [], _ => False
  | found :: rest, nqn => catalog.Opens found nqn ∨ (catalog.merge found).OpensAmong rest nqn

/-- After a discovery, what can be bound is what could be before and what the discovery opens. -/
theorem mem_allocatable_merge (catalog : Catalog) (found : List Descriptor) (nqn : String) :
    nqn ∈ (catalog.merge found).allocatable ↔
      nqn ∈ catalog.allocatable ∨ catalog.Opens found nqn := by
  have hknown : nqn ∈ catalog ↔ (catalog[nqn]?).isSome := Std.ExtTreeMap.mem_iff_isSome_getElem?
  rw [mem_allocatable, mem_allocatable, Opens, hknown, getElem?_merge]
  cases hfind : found.find? (·.nqn == nqn) with
  | none =>
    -- The device is not reported.
    simp [Descriptor.find?_eq_none_iff_notMem.mp hfind]
  | some x =>
    have hreported := Descriptor.mem_map_nqn_of_find? hfind
    cases catalog[nqn]? with
    | none => simp [hreported, isAllocatable_iff, Device.ofDescriptor, Device.isAddressable]
    | some d =>
      cases haddressable : d.isAddressable <;>
        simp [hreported, isAllocatable_iff, haddressable]

/-- After several discoveries in a row, what can be bound is what could be before and what one of
them opens. -/
theorem mem_allocatable_merge_flatten (catalog : Catalog) (reports : List (List Descriptor))
    (nqn : String) :
    nqn ∈ (catalog.merge reports.flatten).allocatable ↔
      nqn ∈ catalog.allocatable ∨ catalog.OpensAmong reports nqn := by
  induction reports generalizing catalog with
  | nil => simp [OpensAmong, merge]
  | cons found reports ih =>
    rw [List.flatten_cons, merge_append, ih, mem_allocatable_merge, OpensAmong, or_assoc]

/-- The device that is next to be bound is the first that can be, in the order of the names. -/
theorem firstAllocatable?_eq_some_iff (hnamed : catalog.Named) {d : Device} :
    catalog.firstAllocatable? = some d ↔ catalog[d.nqn]? = some d ∧
      d.isAllocatable = true ∧ ∀ k ∈ catalog.allocatable, ¬ k < d.nqn := by
  have hsorted := catalog.pairwise_allocatable
  rw [firstAllocatable?_eq]
  constructor
  · intro h
    obtain ⟨nqn, hhead, hd⟩ := Option.bind_eq_some_iff.mp h
    obtain rfl : d.nqn = nqn := hnamed nqn d hd
    obtain ⟨rest, hlist⟩ := List.head?_eq_some_iff.mp hhead
    obtain ⟨e, he, hallocatable⟩ := mem_allocatable.mp (List.mem_of_mem_head? hhead)
    obtain rfl : d = e := Option.some.inj (hd.symm.trans he)
    refine ⟨hd, hallocatable, fun k hk hlt => ?_⟩
    rw [hlist] at hk hsorted
    rcases List.mem_cons.mp hk with rfl | hrest
    · exact String.lt_irrefl _ hlt
    · exact String.lt_asymm hlt ((List.pairwise_cons.mp hsorted).1 k hrest)
  · rintro ⟨hd, hallocatable, hleast⟩
    have hmem : d.nqn ∈ catalog.allocatable := mem_allocatable.mpr ⟨d, hd, hallocatable⟩
    cases hlist : catalog.allocatable with
    | nil =>
      rw [hlist] at hmem
      cases hmem
    | cons nqn rest =>
      rw [hlist] at hmem hsorted hleast
      have hfirst : nqn = d.nqn := by
        rcases List.mem_cons.mp hmem with heq | hrest
        · exact heq.symm
        · exact absurd ((List.pairwise_cons.mp hsorted).1 d.nqn hrest)
            (hleast nqn List.mem_cons_self)
      rw [List.head?_cons, Option.bind_some, hfirst, hd]

end Catalog

namespace Broker

variable {b : Broker} {faults : Faults} {nqn : String}

/-- What has become of the broker after these discoveries. -/
def afterDiscoveries (b : Broker) (reports : List (List Descriptor)) : Broker :=
  reports.foldl (fun b found => (b.discover (.ok found)).2) b

/-- Discoveries make of a broker what one makes that reports all they report. -/
theorem afterDiscoveries_eq (b : Broker) (reports : List (List Descriptor)) :
    b.afterDiscoveries reports = { b with catalog := b.catalog.merge reports.flatten } := by
  unfold afterDiscoveries
  induction reports generalizing b with
  | nil => rfl
  | cons found reports ih =>
    rw [List.foldl_cons, ih, List.flatten_cons, Catalog.merge_append]
    rfl

/-- If a device that was free is bound and given back, with discoveries in between, it is as if only
the discoveries had been, but for the record that says that the device is free. -/
theorem free_bindTo (hfree : b.catalog.allocation? nqn = some .free) (volume : String)
    (reports : List (List Descriptor)) :
    ((b.bindTo nqn volume).afterDiscoveries reports).free nqn =
      { b.afterDiscoveries reports with store := b.store.put nqn .free } := by
  have hstill : (b.catalog.merge reports.flatten).allocation? nqn = some .free := by
    rw [Catalog.allocation?_merge, hfree]
    rfl
  have hcatalog : ((b.catalog.assign nqn (.owned volume)).merge reports.flatten).assign nqn .free =
      b.catalog.merge reports.flatten := by
    rw [Catalog.merge_assign (Catalog.mem_of_allocation? hfree), Catalog.assign_assign,
      Catalog.assign_of_allocation? hstill]
  rw [afterDiscoveries_eq, afterDiscoveries_eq, free]
  simp only [catalog_bindTo, store_bindTo, Store.put_put, hcatalog]
  rfl

/-- A volume that owns nothing is given the first device that can be bound. -/
theorem allocate_first {volume : String} {d : Device}
    (howned : ∀ k : String, b.catalog.allocation? k ≠ some (.owned volume))
    (h : (b.allocate faults volume).1 = .ok d) :
    ∃ first : Device, b.catalog.firstAllocatable? = some first ∧ first.boundTo (some volume) = d ∧
      (b.allocate faults volume).2 = b.bindTo first.nqn volume := by
  have hnone := Catalog.ownedBy?_eq_none_iff.mpr howned
  rcases allocate_eq_ok_iff.mp h with hown | ⟨-, hsave, first, hfirst, hd⟩
  · rw [hnone] at hown
    cases hown
  · exact ⟨first, hfirst, hd, congrArg Prod.snd (allocate_of_first hnone hfirst hsave)⟩

/-- A device that was free and has been bound stays bound, whatever is discovered. -/
theorem allocation?_bindTo_afterDiscoveries (hfree : b.catalog.allocation? nqn = some .free)
    (volume : String) (reports : List (List Descriptor)) :
    ((b.bindTo nqn volume).afterDiscoveries reports).catalog.allocation? nqn =
      some (.owned volume) := by
  rw [afterDiscoveries_eq, Catalog.allocation?_merge, catalog_bindTo, Catalog.allocation?_assign,
    if_pos rfl, hfree]
  rfl

/-- A device that was free and has been bound is given back exactly if its record can be written,
and then nothing is left of its having been bound. -/
theorem release_bindTo (hfree : b.catalog.allocation? nqn = some .free) (volume : String)
    (before : List (List Descriptor)) (back : Faults) :
    let result := ((b.bindTo nqn volume).afterDiscoveries before).release back nqn
    (result.1 = .ok true ↔ back.save = none) ∧
      (result.1 = .ok true →
        result.2 = { b.afterDiscoveries before with store := b.store.put nqn .free }) := by
  have howned := allocation?_bindTo_afterDiscoveries hfree volume before
  intro result
  cases hsave : back.save with
  | none =>
    have hresult : result = _ := release_of_owned howned hsave
    rw [hresult, free_bindTo hfree]
    simp
  | some e =>
    have hresult : result = _ := release_of_unwritten howned hsave
    rw [hresult]
    simp

/-- The first device that can be bound is given to a volume that owns none. -/
theorem allocate_of_least (hnamed : b.catalog.Named) {other : String} {d : Device}
    (hlacks : ∀ k : String, b.catalog.allocation? k ≠ some (.owned other))
    (hsave : faults.save = none) (hd : b.catalog[d.nqn]? = some d)
    (hallocatable : d.isAllocatable = true) (hleast : ∀ k ∈ b.catalog.allocatable, ¬ k < d.nqn) :
    b.allocate faults other = (.ok (d.boundTo (some other)), b.bindTo d.nqn other) := by
  have hfirst : b.catalog.firstAllocatable? = some d :=
    (Catalog.firstAllocatable?_eq_some_iff hnamed).mpr ⟨hd, hallocatable, hleast⟩
  exact allocate_of_first (Catalog.ownedBy?_eq_none_iff.mpr hlacks) hfirst hsave

/-- It is given one that does not come after any that can be bound. -/
theorem allocate_of_mem (hnamed : b.catalog.Named) {other k : String}
    (hlacks : ∀ k : String, b.catalog.allocation? k ≠ some (.owned other))
    (hsave : faults.save = none) (hk : k ∈ b.catalog.allocatable) :
    ∃ e : Device, (b.allocate faults other).1 = .ok e ∧ e.nqn ≤ k := by
  have hnone := Catalog.ownedBy?_eq_none_iff.mpr hlacks
  cases hfirst : b.catalog.firstAllocatable? with
  | none =>
    obtain ⟨d, hd, hcan⟩ := Catalog.mem_allocatable.mp hk
    have hcannot := List.find?_eq_none.mp hfirst d (Catalog.mem_devices.mpr ⟨k, hd⟩)
    exact absurd hcan hcannot
  | some first =>
    have hleast := ((Catalog.firstAllocatable?_eq_some_iff hnamed).mp hfirst).2.2
    refine ⟨_, congrArg Prod.fst (allocate_of_first hnone hfirst hsave), ?_⟩
    exact String.not_lt.mp (hleast k hk)

/-- A device before the first one can be bound after the discoveries exactly if one of them lets it
be bound, be it while the first one is bound or after it has been given back. -/
theorem mem_allocatable_iff_opensAmong (hnamed : b.catalog.Named) {first : Device}
    (hfirst : b.catalog.firstAllocatable? = some first) {k : String} (hk : k < first.nqn)
    (volume : String) (before after : List (List Descriptor)) :
    k ∈ ((b.catalog.merge before.flatten).merge after.flatten).allocatable ↔
      (b.bindTo first.nqn volume).catalog.OpensAmong before k ∨
        (b.catalog.merge before.flatten).OpensAmong after k := by
  obtain ⟨hd, -, hleast⟩ := (Catalog.firstAllocatable?_eq_some_iff hnamed).mp hfirst
  have hknown : first.nqn ∈ b.catalog :=
    Std.ExtTreeMap.mem_iff_isSome_getElem?.mpr (by simp [hd])
  have hne : k ≠ first.nqn := by
    rintro rfl
    exact String.lt_irrefl _ hk
  have hnot : k ∉ (b.catalog.assign first.nqn (.owned volume)).allocatable := by
    rw [Catalog.mem_allocatable_assign_of_ne hne]
    exact fun hmem => hleast k hmem hk
  rw [Catalog.mem_allocatable_merge_flatten, catalog_bindTo]
  apply or_congr_left
  calc
    k ∈ (b.catalog.merge before.flatten).allocatable
      ↔ k ∈ ((b.catalog.merge before.flatten).assign first.nqn (.owned volume)).allocatable :=
        (Catalog.mem_allocatable_assign_of_ne hne _).symm
    _ ↔ k ∈ ((b.catalog.assign first.nqn (.owned volume)).merge before.flatten).allocatable := by
        rw [Catalog.merge_assign hknown]
    _ ↔ (b.catalog.assign first.nqn (.owned volume)).OpensAmong before k := by
        rw [Catalog.mem_allocatable_merge_flatten]
        exact or_iff_right hnot

/-- Let a device be bound to a volume that owned none, in a catalog in which every device stands
under its own name, as in every catalog of a run (`System.named_step`).  If the device is given
back, then the broker is what it was, but for the record in the store that says that the device is
free; and to give it back once more changes nothing and writes nothing.

Let there be discoveries, while the device is bound and after it has been given back.  The next
volume that owns no device and whose record can be written is given the same device, with the same
addressing, unless a discovery has let one be bound that comes before it in the order of the names;
and if one has, then the volume is given a device that comes before it. -/
theorem returned_device_is_bound_again (b : Broker) (hnamed : b.catalog.Named) (faults : Faults)
    (volume : String) (d : Device)
    (howned : ∀ nqn : String, b.catalog.allocation? nqn ≠ some (.owned volume))
    (hbound : (b.allocate faults volume).1 = .ok d) :
    let bound := (b.allocate faults volume).2
    (∀ back : Faults,
      ((bound.release back d.nqn).1 = .ok true ↔ back.save = none) ∧
      ((bound.release back d.nqn).1 = .ok true →
        let freed := (bound.release back d.nqn).2
        freed = { b with store := b.store.put d.nqn .free } ∧
        (∀ nqn : String,
          freed.store.record? nqn = if d.nqn = nqn then some .free else b.store.record? nqn) ∧
        freed.catalog.release d.nqn = .settled false ∧
        ∀ again : Faults, freed.release again d.nqn = (.ok false, freed))) ∧
    ∀ (before : List (List Descriptor)) (back : Faults) (after : List (List Descriptor)),
      let freed := (bound.afterDiscoveries before).release back d.nqn
      freed.1 = .ok true →
      let now := freed.2.afterDiscoveries after
      ∀ (next : Faults) (other : String),
        (∀ nqn : String, now.catalog.allocation? nqn ≠ some (.owned other)) → next.save = none →
        ((∀ k : String, k < d.nqn →
            ¬ bound.catalog.OpensAmong before k ∧ ¬ freed.2.catalog.OpensAmong after k) →
          now.allocate next other = (.ok (d.boundTo (some other)), now.bindTo d.nqn other)) ∧
        ∀ k : String, k < d.nqn →
          bound.catalog.OpensAmong before k ∨ freed.2.catalog.OpensAmong after k →
          ∃ e : Device, (now.allocate next other).1 = .ok e ∧ e.nqn < d.nqn := by
  intro bound
  obtain ⟨first, hfirst, rfl, hbroker⟩ := allocate_first howned hbound
  have hbroker : bound = b.bindTo first.nqn volume := hbroker
  have hfree := Catalog.allocation?_of_firstAllocatable? hnamed hfirst
  -- The device is given back at once in the first part, and after discoveries in the second.
  have hback (before : List (List Descriptor)) (back : Faults) :
      (((bound.afterDiscoveries before).release back first.nqn).1 = .ok true ↔
        back.save = none) ∧
      (((bound.afterDiscoveries before).release back first.nqn).1 = .ok true →
        ((bound.afterDiscoveries before).release back first.nqn).2 =
          { b.afterDiscoveries before with store := b.store.put first.nqn .free }) :=
    hbroker ▸ release_bindTo hfree volume before back
  refine ⟨fun back => ⟨(hback [] back).1, fun hdone => ?_⟩, ?_⟩
  · have hfreed : (bound.release back first.nqn).2 =
        { b with store := b.store.put first.nqn .free } := (hback [] back).2 hdone
    intro freed
    have hfreed : freed = { b with store := b.store.put first.nqn .free } := hfreed
    rw [hfreed]
    have hunbound (volume : String) :
        b.catalog.allocation? first.nqn ≠ some (.owned volume) := by
      rw [hfree]
      simp
    exact ⟨rfl, fun nqn => b.store.record?_put first.nqn .free nqn,
      Catalog.release_eq_settled hunbound, release_of_unbound hunbound⟩
  · intro before back after freed hdone now next other hlacks hsave
    have hfreed : freed.2 =
        { b.afterDiscoveries before with store := b.store.put first.nqn .free } :=
      (hback before back).2 hdone
    have hcatalog : freed.2.catalog = b.catalog.merge before.flatten := by
      rw [hfreed, afterDiscoveries_eq]
    have hnow : now.catalog = (b.catalog.merge before.flatten).merge after.flatten := by
      rw [← hcatalog, show now = freed.2.afterDiscoveries after from rfl, afterDiscoveries_eq]
    -- Before the returned device only those that a discovery has opened can be bound.
    have hopened (k : String) (hk : k < first.nqn) : k ∈ now.catalog.allocatable ↔
        bound.catalog.OpensAmong before k ∨ freed.2.catalog.OpensAmong after k := by
      rw [hnow, hbroker, hcatalog]
      exact mem_allocatable_iff_opensAmong hnamed hfirst hk volume before after
    have hnamedNow : now.catalog.Named := by
      rw [hnow]
      exact (hnamed.merge _).merge _
    refine ⟨fun hundisturbed => ?_, fun k hk hopen => ?_⟩
    · obtain ⟨hd, hallocatable, -⟩ := (Catalog.firstAllocatable?_eq_some_iff hnamed).mp hfirst
      have haddressable := (Catalog.isAllocatable_iff.mp hallocatable).2
      have hstill : now.catalog[first.nqn]? = some first := by
        rw [hnow]
        exact (Catalog.merged_merge _ _).kept _ _
          ((Catalog.merged_merge _ _).kept _ _ hd (.inl haddressable)) (.inl haddressable)
      refine allocate_of_least (d := first) hnamedNow hlacks hsave hstill hallocatable
        fun k hmem hk => ?_
      exact ((hopened k hk).mp hmem).elim (hundisturbed k hk).1 (hundisturbed k hk).2
    · obtain ⟨e, he, hle⟩ := allocate_of_mem hnamedNow hlacks hsave ((hopened k hk).mpr hopen)
      exact ⟨e, he, Std.lt_of_le_of_lt hle hk⟩

/-- The device `nqn-b` is bound to `vol1` and given back, and a discovery reports `nqn-c` once more
and a new `nqn-e`: then `vol2` is given `nqn-b`.  It is given another device if the discovery
reports `nqn-a`, which nobody could reach before. -/
theorem first_device_bound_again :
    let b := fourDevices.broker
    let bound := (b.allocate {} "vol1").2
    let freed := (bound.release {} "nqn-b").2
    let later := freed.afterDiscoveries [[⟨"nqn-c", .tcp, []⟩, ⟨"nqn-e", .tcp, []⟩]]
    (bound.release {} "nqn-b").1 = .ok true ∧
    freed = { b with store := b.store.put "nqn-b" .free } ∧
      freed.release {} "nqn-b" = (.ok false, freed) ∧
      (later.allocate {} "vol2").1 = .ok ⟨"nqn-b", some .tcp, [], .owned "vol2"⟩ ∧
      ∃ e : Device,
        ((freed.afterDiscoveries [[⟨"nqn-a", .tcp, []⟩]]).allocate {} "vol2").1 = .ok e ∧
          e.nqn < "nqn-b" := by
  intro b bound freed later
  have hsound : fourDevices.Sound := System.sound_run _ _
  have hbound : (b.allocate {} "vol1").1 = .ok ⟨"nqn-b", some .tcp, [], .owned "vol1"⟩ := by decide
  obtain ⟨hback, hagain⟩ := returned_device_is_bound_again b hsound.named {} "vol1" _
    (Catalog.ownedBy?_eq_none_iff.mp (by decide)) hbound
  have hdone : (bound.release {} "nqn-b").1 = .ok true := (hback {}).1.mpr rfl
  obtain ⟨hfreed, -, -, hfalse⟩ := (hback {}).2 hdone
  refine ⟨hdone, hfreed, hfalse {}, ?_, ?_⟩
  · refine congrArg Prod.fst
      ((hagain [] {} [[⟨"nqn-c", .tcp, []⟩, ⟨"nqn-e", .tcp, []⟩]] hdone {} "vol2"
        (Catalog.ownedBy?_eq_none_iff.mp (by decide)) rfl).1 fun k hk => ⟨id, ?_⟩)
    rintro (⟨hreported, -⟩ | hfalse)
    · have hlater : ∀ nqn ∈ ["nqn-c", "nqn-e"], ¬ nqn < "nqn-b" := by decide
      exact hlater k hreported hk
    · exact hfalse
  · refine (hagain [] {} [[⟨"nqn-a", .tcp, []⟩]] hdone {} "vol2"
      (Catalog.ownedBy?_eq_none_iff.mp (by decide)) rfl).2 "nqn-a" (by decide) (.inr (.inl ?_))
    exact ⟨by decide, .inr ⟨⟨"nqn-a", none, [], .free⟩, by decide, rfl, rfl⟩⟩

end Broker

end VolumeBroker
