import Mathlib.Data.List.Sort
import VolumeBroker.Proofs.NameOrder
import VolumeBroker.Proofs.VolumeHistory

/-!
# The order in which devices are bound

Requests for devices come one after the other, and each takes what is left by those before it.  A
volume that owns a device is given that device.  Any other is given the first device that can be
bound, if its record can be written, and so the devices that can be bound at first are used up in
the order of their names: what has been bound, followed by what can still be bound, is always the
same list.  `Broker.Progress` says this of a broker and of what has become of it, and
`Broker.serve_cases` says what one request can meet.
-/

set_option autoImplicit false

namespace VolumeBroker

/-- Two lists side by side give as much of the first as the second is long. -/
theorem map_fst_zip_eq_take {α β : Type} (xs : List α) (ys : List β) :
    (xs.zip ys).map (·.1) = xs.take ys.length := by
  induction xs generalizing ys with
  | nil => simp
  | cons x xs ih => cases ys <;> simp [ih]

/-- Two lists side by side give as much of the second as the first is long. -/
theorem map_snd_zip_eq_take {α β : Type} (xs : List α) (ys : List β) :
    (xs.zip ys).map (·.2) = ys.take xs.length := by
  induction xs generalizing ys with
  | nil => simp
  | cons x xs ih => cases ys <;> simp [ih]

namespace Catalog

/-- The names of the devices that can be bound, in the order of the names. -/
def allocatable (catalog : Catalog) : List String :=
  (catalog.toList.filter (·.2.isAllocatable)).map (·.1)

/-- The devices that can be bound are found by their names. -/
theorem mem_allocatable {catalog : Catalog} {nqn : String} :
    nqn ∈ catalog.allocatable ↔ ∃ d : Device, catalog[nqn]? = some d ∧ d.isAllocatable = true := by
  simp only [allocatable, List.mem_map, List.mem_filter, Prod.exists, exists_and_right,
    exists_eq_right, Std.ExtTreeMap.mem_toList_iff_getElem?_eq_some]

/-- The devices that can be bound stand in the order of their names. -/
theorem pairwise_allocatable (catalog : Catalog) : catalog.allocatable.Pairwise (· < ·) :=
  List.pairwise_map.mpr ((pairwise_toList catalog).filter _)

/-- No device that can be bound is listed twice. -/
theorem nodup_allocatable (catalog : Catalog) : catalog.allocatable.Nodup := by
  refine List.Pairwise.imp ?_ catalog.pairwise_allocatable
  rintro m n hlt rfl
  exact String.lt_irrefl m hlt

/-- The first device that can be bound is the one with the first of the names. -/
theorem firstAllocatable?_eq (catalog : Catalog) :
    catalog.firstAllocatable? = catalog.allocatable.head?.bind (catalog[·]?) := by
  have hfirst : catalog.firstAllocatable? =
      (catalog.toList.find? (·.2.isAllocatable)).map (·.2) := by
    rw [firstAllocatable?, devices, List.find?_map]
    rfl
  rw [hfirst, allocatable, List.head?_map, List.head?_filter]
  cases hfind : catalog.toList.find? (·.2.isAllocatable) with
  | none => rfl
  | some p =>
    have hp : catalog[p.1]? = some p.2 :=
      Std.ExtTreeMap.mem_toList_iff_getElem?_eq_some.mp (List.mem_of_find?_eq_some hfind)
    exact hp.symm

/-- Once the first device that can be bound has been bound, the others are left. -/
theorem allocatable_assign {catalog : Catalog} {nqn : String} {rest : List String}
    (h : catalog.allocatable = nqn :: rest) (volume : String) :
    (catalog.assign nqn (.owned volume)).allocatable = rest := by
  have hsorted := catalog.pairwise_allocatable
  have hnodup := catalog.nodup_allocatable
  rw [h] at hsorted hnodup
  have hrest (k : String) : k ∈ rest ↔ k ≠ nqn ∧ k ∈ catalog.allocatable := by
    rw [h, List.mem_cons]
    constructor
    · intro hk
      exact ⟨ne_of_mem_of_not_mem hk (List.nodup_cons.mp hnodup).1, .inr hk⟩
    · rintro ⟨hne, hk⟩
      exact hk.resolve_left hne
  -- Both lists are in the order of the names, so it is enough that they have the same members.
  refine (pairwise_allocatable _).eq_of_mem_iff (List.pairwise_cons.mp hsorted).2 fun k => ?_
  rw [hrest, mem_allocatable, mem_allocatable, getElem?_assign]
  by_cases hk : nqn = k
  · simp [hk, Device.isAllocatable, Allocation.isOwned, Allocation.owner?]
  · simp [hk, Ne.symm hk]

end Catalog

/-- A request for a device, with the failures that calls of the store meet. -/
structure DeviceRequest where
  volume : String
  faults : Faults := {}

/-- The device after it has been bound to a volume, if it has been. -/
def Device.boundTo (d : Device) : Option String → Device
  | some volume => { d with allocation := .owned volume }
  | none => d

namespace Broker

/-- What a request is answered, and the broker after it. -/
def serve (b : Broker) (r : DeviceRequest) : Except RegistryError Device × Broker :=
  b.allocate r.faults r.volume

/-- The device has been bound to the volume, in the store and in the catalog. -/
def bindTo (b : Broker) (nqn volume : String) : Broker :=
  { b with
    store := b.store.put nqn (.owned volume)
    catalog := b.catalog.assign nqn (.owned volume) }

/-- What binding a device does to the catalog. -/
@[simp] theorem catalog_bindTo (b : Broker) (nqn volume : String) :
    (b.bindTo nqn volume).catalog = b.catalog.assign nqn (.owned volume) := rfl

/-- What binding a device does to the store. -/
@[simp] theorem store_bindTo (b : Broker) (nqn volume : String) :
    (b.bindTo nqn volume).store = b.store.put nqn (.owned volume) := rfl

/-- The broker after requests that came one after the other. -/
def afterRequests (b : Broker) (requests : List DeviceRequest) : Broker :=
  requests.foldl (fun b r => (b.serve r).2) b

/-- What each of the requests was answered, in their order. -/
def answers (b : Broker) : List DeviceRequest → List (Except RegistryError Device)
  | [] => []
  | r :: rest => (b.serve r).1 :: (b.serve r).2.answers rest

/-- The device that a request newly binds, with its volume. -/
def binding? (b : Broker) (r : DeviceRequest) : Option (String × String) :=
  match b.catalog.allocate r.volume, r.faults.save with
  | .commit nqn _ _, none => some (nqn, r.volume)
  | _, _ => none

/-- The devices that requests newly bind, one after the other, with their volumes. -/
def bindings (b : Broker) : List DeviceRequest → List (String × String)
  | [] => []
  | r :: rest => (b.binding? r).toList ++ (b.serve r).2.bindings rest

variable {b now : Broker} {made : List (String × String)}

/-! ## One request -/

/-- What a request for a device can meet. -/
inductive Served (b : Broker) (r : DeviceRequest) : Prop
  /-- The volume owns a device. -/
  | owned (d : Device) (howned : b.catalog.ownedBy? r.volume = some d)
      (hdecision : b.catalog.allocate r.volume = .settled (some d))
      (hserve : b.serve r = (.ok d, b)) (hbinding : b.binding? r = none)
  /-- There is no device left. -/
  | exhausted (howned : b.catalog.ownedBy? r.volume = none) (hfree : b.catalog.allocatable = [])
      (hdecision : b.catalog.allocate r.volume = .settled none)
      (hserve : b.serve r = (.error .noDeviceAvailable, b)) (hbinding : b.binding? r = none)
  /-- There is a device left: it is bound to the volume if the record can be written. -/
  | needed (nqn : String) (rest : List String) (d : Device)
      (howned : b.catalog.ownedBy? r.volume = none) (hfree : b.catalog.allocatable = nqn :: rest)
      (hd : b.catalog[nqn]? = some d) (hallocatable : d.isAllocatable = true)
      (hdecision : b.catalog.allocate r.volume =
        .commit nqn (.owned r.volume) (some (d.boundTo (some r.volume))))
      (hunwritten : ∀ e : StoreError, r.faults.save = some e →
        b.serve r = (.error (.persistence e), b) ∧ b.binding? r = none)
      (hwritten : r.faults.save = none →
        b.serve r = (.ok (d.boundTo (some r.volume)), b.bindTo nqn r.volume) ∧
          b.binding? r = some (nqn, r.volume))

/-- There is nothing else that a request can meet. -/
theorem serve_cases (hnamed : b.catalog.Named) (r : DeviceRequest) : Served b r := by
  have hfirst := b.catalog.firstAllocatable?_eq
  cases howned : b.catalog.ownedBy? r.volume with
  | some d =>
    have hdecision : b.catalog.allocate r.volume = .settled (some d) := by
      simp only [Catalog.allocate, howned]
    exact .owned d howned hdecision (allocate_of_owned howned) (by simp [binding?, hdecision])
  | none =>
    cases hfree : b.catalog.allocatable with
    | nil =>
      rw [hfree] at hfirst
      have hdecision : b.catalog.allocate r.volume = .settled none := by
        simp only [Catalog.allocate, howned, hfirst, List.head?_nil, Option.bind_none]
      exact .exhausted howned hfree hdecision (allocate_of_exhausted howned hfirst r.faults)
        (by simp [binding?, hdecision])
    | cons nqn rest =>
      obtain ⟨d, hd, hallocatable⟩ := Catalog.mem_allocatable.mp (hfree ▸ List.mem_cons_self)
      rw [hfree, List.head?_cons, Option.bind_some, hd] at hfirst
      obtain rfl : d.nqn = nqn := hnamed nqn d hd
      have hdecision : b.catalog.allocate r.volume =
          .commit d.nqn (.owned r.volume) (some (d.boundTo (some r.volume))) :=
        Catalog.allocate_eq_commit_iff.mpr ⟨howned, d, hfirst, rfl, rfl, rfl⟩
      refine .needed d.nqn rest d howned hfree hd hallocatable hdecision (fun e hsave => ?_)
        fun hsave => ?_
      · exact ⟨allocate_of_unwritten howned hfirst hsave,
          by simp only [binding?, hdecision, hsave]⟩
      · exact ⟨allocate_of_first howned hfirst hsave, by simp only [binding?, hdecision, hsave]⟩

/-! ## Any number of requests -/

/-- What has become of the broker `b` after these devices have been bound. -/
structure Progress (b : Broker) (made : List (String × String)) (now : Broker) : Prop where
  named : now.catalog.Named
  exclusive : now.catalog.Exclusive
  /-- What has been bound and what can still be bound are what could be bound at first. -/
  order : made.map (·.1) ++ now.catalog.allocatable = b.catalog.allocatable
  device : ∀ nqn : String, now.catalog[nqn]? = b.catalog[nqn]?.map (·.boundTo (made.lookup nqn))
  store : now.store = made.foldl (fun s p => s.put p.1 (.owned p.2)) b.store
  record : ∀ nqn : String,
    now.store.record? nqn = ((made.lookup nqn).map .owned).or (b.store.record? nqn)

/-- Before the first request nothing has been bound. -/
theorem progress_start (hnamed : b.catalog.Named) (hexclusive : b.catalog.Exclusive) :
    b.Progress [] b where
  named := hnamed
  exclusive := hexclusive
  order := rfl
  device nqn := by cases b.catalog[nqn]? <;> rfl
  store := rfl
  record nqn := rfl

/-- One more device has been bound, the first that could be. -/
theorem Progress.bind (h : b.Progress made now) {volume nqn : String} {rest : List String}
    (howned : now.catalog.ownedBy? volume = none) (hfree : now.catalog.allocatable = nqn :: rest) :
    b.Progress (made ++ [(nqn, volume)]) (now.bindTo nqn volume) := by
  have hunmade : made.lookup nqn = none := by
    have hnodup := b.catalog.nodup_allocatable
    rw [← h.order, hfree] at hnodup
    refine List.lookup_eq_none_iff.mpr fun p hp => ?_
    have hne := (List.nodup_append.mp hnodup).2.2 p.1 (List.mem_map_of_mem hp) nqn (by simp)
    simpa using hne.symm
  have hlookup (k : String) : (made ++ [(nqn, volume)]).lookup k =
      if nqn = k then some volume else made.lookup k := by
    rw [List.lookup_append]
    by_cases hk : nqn = k
    · rw [← hk, hunmade]
      simp
    · simp [List.lookup_cons, beq_false_of_ne (Ne.symm hk), hk]
  refine ⟨h.named.assign _ _, h.exclusive.assign_owned howned _, ?_, fun k => ?_, ?_, fun k => ?_⟩
  · rw [catalog_bindTo, Catalog.allocatable_assign hfree, ← h.order, hfree]
    simp
  · rw [catalog_bindTo, Catalog.getElem?_assign, h.device, hlookup]
    split
    · next hk =>
      rw [Option.map_map, ← hk, hunmade]
      rfl
    · rfl
  · rw [List.foldl_append, ← h.store]
    rfl
  · rw [store_bindTo, Store.record?_put, h.record, hlookup]
    split <;> rfl

/-- One request binds the first device that is left, or none. -/
theorem Progress.serve (h : b.Progress made now) (r : DeviceRequest) :
    b.Progress (made ++ (now.binding? r).toList) (now.serve r).2 := by
  have hkept (hserve : (now.serve r).2 = now) (hbinding : now.binding? r = none) :
      b.Progress (made ++ (now.binding? r).toList) (now.serve r).2 := by
    rw [hserve, hbinding, Option.toList_none, List.append_nil]
    exact h
  cases serve_cases h.named r with
  | owned _ _ _ hserve hbinding | exhausted _ _ _ hserve hbinding =>
    exact hkept (by rw [hserve]) hbinding
  | needed nqn rest d howned hfree _ _ _ hunwritten hwritten =>
    cases hsave : r.faults.save with
    | some e => exact hkept (by rw [(hunwritten e hsave).1]) (hunwritten e hsave).2
    | none =>
      obtain ⟨hserve, hbinding⟩ := hwritten hsave
      rw [hserve, hbinding, Option.toList_some]
      exact h.bind howned hfree

/-- Any number of requests bind the devices in the order of their names. -/
theorem Progress.run (h : b.Progress made now) (requests : List DeviceRequest) :
    b.Progress (made ++ now.bindings requests) (now.afterRequests requests) := by
  induction requests generalizing made now with
  | nil => simpa [bindings, afterRequests] using h
  | cons r requests ih =>
    simpa [bindings, afterRequests, List.append_assoc] using ih (h.serve r)

/-- What a request meets when `free` is what could be bound at first, and so many devices have been
bound since. -/
structure TakesNext (b : Broker) (free : List String) (count : Nat) (r : DeviceRequest) : Prop where
  /-- A volume that owns a device is given that device, and nothing is written. -/
  reuses : ∀ (nqn : String) (d : Device), b.catalog[nqn]? = some d →
    d.allocation = .owned r.volume →
      b.catalog.allocate r.volume = .settled (some d) ∧ b.serve r = (.ok d, b)
  /-- Any other takes the next of the names.  One record is to be written, that of the device; if it
  cannot be, nothing changes. -/
  binds : (∀ nqn : String, b.catalog.allocation? nqn ≠ some (.owned r.volume)) →
    ∀ nqn : String, free[count]? = some nqn →
      ∃ d : Device, b.catalog[nqn]? = some d ∧ d.isAllocatable = true ∧
        b.catalog.allocate r.volume =
          .commit nqn (.owned r.volume) (some (d.boundTo (some r.volume))) ∧
        (∀ e : StoreError, r.faults.save = some e → b.serve r = (.error (.persistence e), b)) ∧
        (r.faults.save = none →
          b.serve r = (.ok (d.boundTo (some r.volume)), b.bindTo nqn r.volume))
  /-- When all have been bound, there is none for it, and nothing is written. -/
  refuses : (∀ nqn : String, b.catalog.allocation? nqn ≠ some (.owned r.volume)) →
    free.length ≤ count →
      b.catalog.allocate r.volume = .settled none ∧ b.serve r = (.error .noDeviceAvailable, b)

/-- What has been bound is as much of what could be bound at first. -/
theorem Progress.map_fst (h : b.Progress made now) :
    made.map (·.1) = b.catalog.allocatable.take made.length := by
  rw [← h.order, ← List.length_map (·.1), List.take_left]

/-- What can still be bound is what has not been bound of what could be bound at first. -/
theorem Progress.allocatable_eq (h : b.Progress made now) :
    now.catalog.allocatable = b.catalog.allocatable.drop made.length := by
  rw [← h.order, ← List.length_map (·.1), List.drop_left]

/-- After so many devices have been bound, a request takes the next one. -/
theorem Progress.takesNext (h : b.Progress made now) (r : DeviceRequest) :
    now.TakesNext b.catalog.allocatable made.length r := by
  have hnext : b.catalog.allocatable[made.length]? = now.catalog.allocatable.head? := by
    rw [h.allocatable_eq, List.head?_drop]
  have hlacks (howned : ∀ nqn : String, now.catalog.allocation? nqn ≠ some (.owned r.volume)) :
      now.catalog.ownedBy? r.volume = none :=
    Catalog.ownedBy?_eq_none_iff.mpr howned
  refine ⟨fun nqn d hd hallocation => ?_, fun howned nqn hnqn => ?_, fun howned hcount => ?_⟩
  · have hbound : now.catalog.allocation? nqn = some (.owned r.volume) := by
      rw [Catalog.allocation?, hd, Option.map_some, hallocation]
    obtain ⟨own, hown, hnqn⟩ := Catalog.ownedBy?_of_allocation? h.named h.exclusive hbound
    obtain ⟨hget, -⟩ := Catalog.getElem?_of_ownedBy? h.named hown
    obtain rfl : d = own := by rw [hnqn, hd] at hget; exact Option.some.inj hget
    exact ⟨by simp only [Catalog.allocate, hown], allocate_of_owned hown⟩
  · rw [hnext] at hnqn
    cases serve_cases h.named r with
    | owned d hown _ _ _ => rw [hlacks howned] at hown; cases hown
    | exhausted _ hfree _ _ _ => rw [hfree] at hnqn; cases hnqn
    | needed first rest d _ hfree hd hallocatable hdecision hunwritten hwritten =>
      rw [hfree] at hnqn
      obtain rfl : first = nqn := Option.some.inj hnqn
      exact ⟨d, hd, hallocatable, hdecision, fun e hsave => (hunwritten e hsave).1,
        fun hsave => (hwritten hsave).1⟩
  · cases serve_cases h.named r with
    | owned d hown _ _ _ => rw [hlacks howned] at hown; cases hown
    | exhausted _ _ hdecision hserve _ => exact ⟨hdecision, hserve⟩
    | needed _ _ _ _ hfree _ _ _ _ _ =>
      rw [h.allocatable_eq, List.drop_eq_nil_of_le hcount] at hfree
      cases hfree

/-! ## Distinct volumes -/

/-- The devices that requests are answered with. -/
def granted (b : Broker) (requests : List DeviceRequest) : List Device :=
  (b.answers requests).filterMap (·.toOption)

/-- Volumes without devices are served in the order in which they come, for as long as there are
devices, if every record can be written. -/
theorem serve_distinct (hnamed : b.catalog.Named) {requests : List DeviceRequest}
    (hdistinct : (requests.map (·.volume)).Nodup)
    (howned : ∀ r ∈ requests, b.catalog.ownedBy? r.volume = none)
    (hsave : ∀ r ∈ requests, r.faults.save = none) :
    b.bindings requests = b.catalog.allocatable.zip (requests.map (·.volume)) ∧
      (b.granted requests).map (fun d => (d.nqn, d.owner?)) =
        (b.bindings requests).map (fun p => (p.1, some p.2)) := by
  -- On the requests; each finds its own volume without a device, because the volumes differ.
  induction requests generalizing b with
  | nil => simp [bindings, granted, answers]
  | cons r requests ih =>
    obtain ⟨hnew, hdistinct⟩ := List.nodup_cons.mp hdistinct
    have hrest : ∀ q ∈ requests, b.catalog.ownedBy? q.volume = none :=
      fun q hq => howned q (List.mem_cons_of_mem r hq)
    have hsaves : ∀ q ∈ requests, q.faults.save = none :=
      fun q hq => hsave q (List.mem_cons_of_mem r hq)
    rw [granted, bindings, answers, List.filterMap_cons]
    cases serve_cases hnamed r with
    | owned d hown _ _ _ =>
      rw [howned r List.mem_cons_self] at hown
      cases hown
    | exhausted _ hfree _ hserve hbinding =>
      obtain ⟨hbindings, hgranted⟩ := ih hnamed hdistinct hrest hsaves
      rw [hserve, hbinding]
      refine ⟨?_, hgranted⟩
      rw [hbindings, hfree]
      rfl
    | needed nqn rest d hnone hfree hd _ _ _ hwritten =>
      obtain ⟨hserve, hbinding⟩ := hwritten (hsave r List.mem_cons_self)
      have hlater : ∀ q ∈ requests,
          (b.catalog.assign nqn (.owned r.volume)).ownedBy? q.volume = none := by
        intro q hq
        refine Catalog.ownedBy?_eq_none_iff.mpr fun k hk => ?_
        rcases Catalog.allocation?_of_assign_owned hk with ⟨-, hv⟩ | hold
        · exact hnew (List.mem_map.mpr ⟨q, hq, hv⟩)
        · exact Catalog.ownedBy?_eq_none_iff.mp (hrest q hq) k hold
      rw [hserve, hbinding]
      obtain ⟨hbindings, hgranted⟩ :=
        @ih (b.bindTo nqn r.volume) (hnamed.assign nqn _) hdistinct hlater hsaves
      rw [catalog_bindTo, Catalog.allocatable_assign hfree] at hbindings
      refine ⟨?_, ?_⟩
      · rw [hbindings, hfree]
        rfl
      · have hname : d.nqn = nqn := hnamed nqn d hd
        rw [← hname] at hgranted ⊢
        exact congrArg (_ :: ·) hgranted

/-- Requests of distinct volumes that own nothing are granted the devices in the order of the names,
one for each, as long as there are any. -/
theorem granted_distinct (hnamed : b.catalog.Named) {requests : List DeviceRequest}
    (hdistinct : (requests.map (·.volume)).Nodup)
    (howned : ∀ r ∈ requests, b.catalog.ownedBy? r.volume = none)
    (hsave : ∀ r ∈ requests, r.faults.save = none) :
    (b.granted requests).map (·.nqn) = b.catalog.allocatable.take requests.length ∧
      (b.granted requests).map (·.owner?) =
        ((requests.take b.catalog.allocatable.length).map (·.volume)).map some := by
  obtain ⟨hbindings, hgranted⟩ := serve_distinct hnamed hdistinct howned hsave
  rw [hbindings] at hgranted
  have hfst := congrArg (List.map Prod.fst) hgranted
  have hsnd := congrArg (List.map Prod.snd) hgranted
  rw [List.map_map, List.map_map] at hfst hsnd
  constructor
  · rw [← List.length_map (·.volume), ← map_fst_zip_eq_take]
    exact hfst
  · rw [List.map_take, ← map_snd_zip_eq_take, List.map_map]
    exact hsnd

/-- Let `free` be the devices of a catalog that can be bound, in the order of the characters of
their names, and let any requests for devices come one after the other, each of any volume and with
any failures of the store.  Whatever has come so far, the devices newly bound are the first of
`free`, one after the other, and the next request takes the next of them, unless its volume owns a
device, or all are taken, or the record cannot be written.  No other device has changed, and no
other record.  Every catalog of a run is of the kind that is asked for here (`System.Sound`).

So of distinct volumes that own nothing the first to come are given devices, and these are the first
of `free`, as many as there are volumes and devices. -/
theorem devices_bound_in_order (b : Broker) (hnamed : b.catalog.Named)
    (hexclusive : b.catalog.Exclusive) :
    let free := b.catalog.allocatable
    free.Pairwise (fun m n => codePoints m < codePoints n) ∧
    (∀ nqn : String,
      nqn ∈ free ↔ ∃ d : Device, b.catalog[nqn]? = some d ∧ d.isAllocatable = true) ∧
    (∀ requests : List DeviceRequest,
      let made := b.bindings requests
      let now := b.afterRequests requests
      made.map (·.1) = free.take made.length ∧
      (∀ r : DeviceRequest, now.TakesNext free made.length r) ∧
      (∀ nqn : String, now.catalog[nqn]? = b.catalog[nqn]?.map (·.boundTo (made.lookup nqn))) ∧
      now.store = made.foldl (fun s p => s.put p.1 (.owned p.2)) b.store ∧
      ∀ nqn : String,
        now.store.record? nqn = ((made.lookup nqn).map .owned).or (b.store.record? nqn)) ∧
    ∀ requests : List DeviceRequest, (requests.map (·.volume)).Nodup →
      (∀ r ∈ requests, ∀ nqn : String, b.catalog.allocation? nqn ≠ some (.owned r.volume)) →
      (∀ r ∈ requests, r.faults.save = none) →
      let granted := b.granted requests
      granted.length = min requests.length free.length ∧
      granted.map (·.nqn) = free.take requests.length ∧ (granted.map (·.nqn)).Nodup ∧
      granted.map (·.owner?) = ((requests.take free.length).map (·.volume)).map some := by
  intro free
  refine ⟨b.catalog.pairwise_allocatable.imp codePoints_lt, fun nqn => Catalog.mem_allocatable,
    fun requests => ?_, fun requests hdistinct howned hsave => ?_⟩
  · have h : b.Progress (b.bindings requests) (b.afterRequests requests) :=
      (progress_start hnamed hexclusive).run requests
    exact ⟨h.map_fst, h.takesNext, h.device, h.store, h.record⟩
  · obtain ⟨hnqns, howners⟩ := granted_distinct hnamed hdistinct
      (fun r hr => Catalog.ownedBy?_eq_none_iff.mpr (howned r hr)) hsave
    have hnodup : (free.take requests.length).Nodup :=
      b.catalog.nodup_allocatable.sublist (List.take_sublist _ _)
    refine ⟨?_, hnqns, hnqns ▸ hnodup, howners⟩
    rw [← List.length_map (·.nqn), hnqns, List.length_take]

/-- A broker that knows four devices: nobody has found `nqn-a`, `nqn-b` and `nqn-c` can be bound,
and `nqn-d` is bound to `old`. -/
def fourDevices : System :=
  (System.start (.inMemory (.ofList [("nqn-a", .free), ("nqn-d", .owned "old")] compare))).run
    [.enterSync, .load 0 {}, .finishLoad 0,
      .merge [⟨"nqn-d", .tcp, []⟩, ⟨"nqn-c", .rdma, []⟩, ⟨"nqn-b", .tcp, []⟩]]

/-- Two volumes are bound, though a record could not be written at first and requests are repeated.
A third volume finds no device after them; had it come first, it would have been given one. -/
theorem four_devices_bound_in_order :
    fourDevices.broker.bindings [⟨"vol1", { save := some (.backend "full") }⟩, ⟨"old", {}⟩,
        ⟨"vol2", {}⟩, ⟨"vol1", {}⟩, ⟨"vol2", {}⟩] = [("nqn-b", "vol2"), ("nqn-c", "vol1")] ∧
      (fourDevices.broker.afterRequests [⟨"vol2", {}⟩, ⟨"vol1", {}⟩]).TakesNext ["nqn-b", "nqn-c"] 2
        ⟨"vol3", {}⟩ ∧
      (fourDevices.broker.granted [⟨"vol3", {}⟩, ⟨"vol1", {}⟩, ⟨"vol2", {}⟩]).map (·.owner?) =
        [some "vol3", some "vol1"] := by
  have hfree : fourDevices.broker.catalog.allocatable = ["nqn-b", "nqn-c"] := by decide
  have hsound : fourDevices.Sound := System.sound_run _ _
  obtain ⟨-, -, hprogress, hdistinct⟩ :=
    devices_bound_in_order fourDevices.broker hsound.named hsound.exclusive
  rw [hfree] at hprogress hdistinct
  have howned : ∀ r ∈ [⟨"vol3", {}⟩, ⟨"vol1", {}⟩, (⟨"vol2", {}⟩ : DeviceRequest)],
      fourDevices.broker.catalog.ownedBy? r.volume = none := by decide
  refine ⟨by decide, (hprogress [⟨"vol2", {}⟩, ⟨"vol1", {}⟩]).2.1 _, ?_⟩
  exact (hdistinct [⟨"vol3", {}⟩, ⟨"vol1", {}⟩, ⟨"vol2", {}⟩] (by decide)
    (fun r hr => Catalog.ownedBy?_eq_none_iff.mp (howned r hr)) (by decide)).2.2.2

end Broker

end VolumeBroker
