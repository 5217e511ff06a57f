import VolumeBroker.Proofs.Traffic

/-!
# The store stands behind the catalog

As long as no other process writes to the store, what the catalog holds as bound is bound in the
store as well, and once the snapshot has been loaded the two say the same of every name.  Before the
load only the first half holds, because the store may name devices that the catalog has not seen.

A broker that is synced has loaded the snapshot.  The phase of the load is settled by whoever sees
an outcome, so this needs that every outcome that can be seen is the outcome of a load that has had
its turn.
-/

set_option autoImplicit false

namespace VolumeBroker

namespace System

/-! ## What the phase of the load tells -/

/-- What the state of the initial load says is true of the loads there have been. -/
structure Truthful (s : System) : Prop where
  ended_loaded : ∀ p ∈ s.broker.sync.ended, p ∈ s.loaded
  hasLoaded_of_synced : s.broker.sync.phase = .synced → s.HasLoaded

/-- Only a load that succeeds leaves the broker synchronised. -/
theorem phase_after_eq_synced {outcome : LoadOutcome} (h : SyncPhase.after outcome = .synced) :
    outcome = .ok () := by
  cases outcome with
  | error e => cases h
  | ok _ => rfl

/-- At the start nothing has ended, and nothing is claimed to be synchronised. -/
theorem truthful_start (store : Store) : (start store).Truthful where
  ended_loaded := by simp [start, Broker.start]
  hasLoaded_of_synced := by simp [start, Broker.start]

/-- One event keeps the phase true to the outcomes of the loads. -/
theorem Truthful.step {s : System} (h : s.Truthful) (e : Event) : (s.step e).Truthful := by
  cases s.step_changes_sync e with
  | quiet hsync hloaded =>
    refine ⟨?_, ?_⟩
    · rw [hsync, hloaded]
      exact h.ended_loaded
    · rw [hsync, hasLoaded_congr hloaded]
      exact h.hasLoaded_of_synced
  | begun _ hsync hloaded =>
    refine ⟨?_, ?_⟩
    · rw [hsync, hloaded]
      exact h.ended_loaded
    · rw [hsync]
      intro hphase
      cases hphase
  | turned _ hsync hloaded =>
    refine ⟨?_, ?_⟩
    · rw [hsync, hloaded]
      exact fun p hp => List.mem_cons_of_mem _ (h.ended_loaded p hp)
    · rw [hsync]
      intro hphase
      obtain ⟨number, hmem⟩ := h.hasLoaded_of_synced hphase
      exact ⟨number, hloaded ▸ List.mem_cons_of_mem _ hmem⟩
  | @finished number outcome hturned hended _ hphase hloaded =>
    refine ⟨?_, ?_⟩
    · rw [hended, hloaded]
      exact List.forall_mem_cons.mpr ⟨hturned, h.ended_loaded⟩
    -- The state is synced by the end of this load, or it was synced before.
    · rw [hasLoaded_congr hloaded]
      intro hsynced
      rcases hphase with hafter | ⟨hsame, -⟩
      · exact ⟨number, phase_after_eq_synced (hafter ▸ hsynced) ▸ hturned⟩
      · exact h.hasLoaded_of_synced (hsame ▸ hsynced)
  | @settled number outcome hseen hsync hloaded =>
    have hturned : (number, outcome) ∈ s.loaded := h.ended_loaded _ (mem_of_lookup hseen)
    refine ⟨?_, ?_⟩
    · rw [hsync, hloaded]
      exact h.ended_loaded
    · rw [hsync, hasLoaded_congr hloaded]
      exact fun hafter => ⟨number, phase_after_eq_synced hafter ▸ hturned⟩
  | restarted hstart =>
    rw [hstart]
    exact truthful_start s.broker.store

/-! ## What the store says of the catalog -/

/-- What holds of a broker that is the only one to write to its store. -/
structure Faithful (s : System) : Prop where
  /-- Every device stands under its own name. -/
  named : s.broker.catalog.Named
  /-- What is bound in the catalog is bound in the store. -/
  backed : ∀ nqn volume : String, s.broker.catalog.allocation? nqn = some (.owned volume) →
    s.broker.store.record? nqn = some (.owned volume)
  /-- Once the snapshot has been loaded, every name of the store has a record and is known to the
  catalog. -/
  known : s.HasLoaded → ∀ nqn : String, s.broker.store.Names nqn →
    (s.broker.store.record? nqn).isSome ∧ (s.broker.catalog.allocation? nqn).isSome
  /-- Once the snapshot has been loaded, the catalog and the store say the same of every name. -/
  mirrored : s.HasLoaded → ∀ nqn : String,
    (s.broker.store.record? nqn).getD .free = (s.broker.catalog.allocation? nqn).getD .free

/-- Once the snapshot has been loaded, the catalog holds what the store records. -/
theorem Faithful.allocation?_of_record? {s : System} (h : s.Faithful) (hload : s.HasLoaded)
    {nqn : String} {a : Allocation} (hrecord : s.broker.store.record? nqn = some a) :
    s.broker.catalog.allocation? nqn = some a := by
  obtain ⟨-, hknown⟩ := h.known hload nqn (Store.names_of_record? hrecord)
  obtain ⟨b, hb⟩ := Option.isSome_iff_exists.mp hknown
  have hsame : a = b := by simpa [hrecord, hb] using h.mirrored hload nqn
  rw [hb, hsame]

/-- What the store says of one device of the catalog. -/
structure Agrees (s : System) (nqn : String) : Prop where
  /-- If it is bound in the catalog, it is bound in the store. -/
  backed : ∀ volume : String, s.broker.catalog.allocation? nqn = some (.owned volume) →
    s.broker.store.record? nqn = some (.owned volume)
  /-- Once the snapshot has been loaded, it has a record if the store names it, and is known to the
  catalog. -/
  known : s.HasLoaded → s.broker.store.Names nqn →
    (s.broker.store.record? nqn).isSome ∧ (s.broker.catalog.allocation? nqn).isSome
  /-- Once the snapshot has been loaded, the catalog and the store say the same of it. -/
  mirrored : s.HasLoaded →
    (s.broker.store.record? nqn).getD .free = (s.broker.catalog.allocation? nqn).getD .free

/-- The store stands behind the catalog exactly if it does so device by device. -/
theorem faithful_iff {s : System} :
    s.Faithful ↔ s.broker.catalog.Named ∧ ∀ nqn : String, s.Agrees nqn := by
  constructor
  · intro h
    refine ⟨h.named, fun nqn => ⟨h.backed nqn, fun hload => h.known hload nqn, fun hload => ?_⟩⟩
    exact h.mirrored hload nqn
  · rintro ⟨hnamed, h⟩
    exact ⟨hnamed, fun nqn => (h nqn).backed, fun hload nqn => (h nqn).known hload,
      fun hload nqn => (h nqn).mirrored hload⟩

/-- A process that has just begun knows no device, and so there is nothing to stand behind. -/
theorem agrees_start (store : Store) (nqn : String) : (start store).Agrees nqn := by
  have hfresh : ¬ (start store).HasLoaded := by
    rintro ⟨number, hmem⟩
    cases hmem
  refine ⟨?_, fun h => absurd h hfresh, fun h => absurd h hfresh⟩
  intro volume h
  simp [start, Broker.start] at h

/-- An empty catalog claims nothing of the store. -/
theorem faithful_start (store : Store) : (start store).Faithful := by
  refine faithful_iff.mpr ⟨?_, agrees_start store⟩
  intro nqn d h
  simp [start, Broker.start] at h

/-! ## One device -/

section

variable {s t : System} {nqn k : String} {a : Allocation}

/-- What leaves the allocation and the record of a device as they are leaves them in agreement. -/
theorem Agrees.congr (h : s.Agrees nqn)
    (hallocation : t.broker.catalog.allocation? nqn = s.broker.catalog.allocation? nqn)
    (hrecord : t.broker.store.record? nqn = s.broker.store.record? nqn)
    (hnames : t.broker.store.Names nqn → s.broker.store.Names nqn)
    (hload : t.HasLoaded → s.HasLoaded) : t.Agrees nqn := by
  refine ⟨?_, fun htl htn => ?_, fun htl => ?_⟩
  · rw [hallocation, hrecord]
    exact h.backed
  · rw [hallocation, hrecord]
    exact h.known (hload htl) (hnames htn)
  · rw [hallocation, hrecord]
    exact h.mirrored (hload htl)

/-- An allocation that is given to a known device in the store and in the catalog at once brings
them into agreement on it. -/
theorem agrees_of_assign (hknown : (s.broker.catalog.allocation? nqn).isSome)
    (hcatalog : t.broker.catalog = s.broker.catalog.assign nqn a)
    (hstore : t.broker.store = s.broker.store.put nqn a) : t.Agrees nqn := by
  have hallocation : t.broker.catalog.allocation? nqn = some a := by
    obtain ⟨b, hb⟩ := Option.isSome_iff_exists.mp hknown
    rw [hcatalog, Catalog.allocation?_assign, if_pos rfl, hb, Option.map_some]
  have hrecord : t.broker.store.record? nqn = some a := by
    rw [hstore, Store.record?_put, if_pos rfl]
  refine ⟨fun volume hbound => ?_, fun _ _ => ?_, fun _ => ?_⟩
  · rw [hrecord, ← hallocation, hbound]
  · rw [hrecord, hallocation]
    exact ⟨rfl, rfl⟩
  · rw [hrecord, hallocation]

/-- What is given to one device leaves the others as they are. -/
theorem Agrees.assign_ne (h : s.Agrees nqn) (hne : k ≠ nqn)
    (hcatalog : t.broker.catalog = s.broker.catalog.assign k a)
    (hstore : t.broker.store = s.broker.store.put k a) (hloaded : t.loaded = s.loaded) :
    t.Agrees nqn := by
  apply h.congr
  · rw [hcatalog, Catalog.allocation?_assign, if_neg hne]
  · rw [hstore, Store.record?_put, if_neg hne]
  · rw [hstore, Store.names_put]
    exact fun hnames => hnames.resolve_left hne
  · exact (hasLoaded_congr hloaded).mp

/-- An allocation that is written to the store and put into the catalog keeps the agreement about
every device. -/
theorem Agrees.assign (h : s.Agrees nqn) (hknown : (s.broker.catalog.allocation? k).isSome)
    (hcatalog : t.broker.catalog = s.broker.catalog.assign k a)
    (hstore : t.broker.store = s.broker.store.put k a) (hloaded : t.loaded = s.loaded) :
    t.Agrees nqn := by
  by_cases hk : k = nqn
  · subst hk
    exact agrees_of_assign hknown hcatalog hstore
  · exact h.assign_ne hk hcatalog hstore hloaded

/-- A snapshot that is taken over from the store brings the two into agreement on every device, if
the store names what is bound. -/
theorem agrees_of_overlay {snapshot : Snapshot}
    (hheld : ∀ volume : String, s.broker.catalog.allocation? nqn = some (.owned volume) →
      s.broker.store.Names nqn)
    (hread : s.broker.store.load = .ok snapshot)
    (hcatalog : t.broker.catalog = s.broker.catalog.overlay snapshot)
    (hstore : t.broker.store = s.broker.store) : t.Agrees nqn := by
  have hallocation : t.broker.catalog.allocation? nqn =
      (s.broker.store.record? nqn).or (s.broker.catalog.allocation? nqn) := by
    rw [hcatalog, Catalog.allocation?_overlay, Store.getElem?_of_load_eq_ok hread]
  have hrecorded (hnames : s.broker.store.Names nqn) : (s.broker.store.record? nqn).isSome :=
    Store.record?_isSome_of_load_eq_ok hread hnames
  cases hr : s.broker.store.record? nqn with
  | some a =>
    rw [hr, Option.some_or] at hallocation
    refine ⟨fun volume hbound => ?_, fun _ _ => ?_, fun _ => ?_⟩
    · rw [hstore, hr, ← hallocation, hbound]
    · rw [hstore, hr, hallocation]
      exact ⟨rfl, rfl⟩
    · rw [hstore, hr, hallocation]
  | none =>
    rw [hr, Option.none_or] at hallocation
    have hunnamed : ¬ s.broker.store.Names nqn := by
      intro hnames
      simpa [hr] using hrecorded hnames
    -- The store names what is bound, so what it does not name is free.
    have hunbound (volume : String) :
        s.broker.catalog.allocation? nqn ≠ some (.owned volume) :=
      fun hbound => hunnamed (hheld volume hbound)
    refine ⟨fun volume hbound => ?_, fun _ hnames => ?_, fun _ => ?_⟩
    · exact absurd (hallocation ▸ hbound) (hunbound volume)
    · exact absurd (hstore ▸ hnames) hunnamed
    · rw [hstore, hr, hallocation]
      cases ha : s.broker.catalog.allocation? nqn with
      | none => rfl
      | some b =>
        cases b with
        | free => rfl
        | owned volume => exact absurd ha (hunbound volume)

/-- A discovery keeps the agreement: it adds free devices, which no record is needed for. -/
theorem Agrees.merge (h : s.Agrees nqn) {found : List Descriptor}
    (hcatalog : t.broker.catalog = s.broker.catalog.merge found)
    (hstore : t.broker.store = s.broker.store) (hloaded : t.loaded = s.loaded) : t.Agrees nqn := by
  refine ⟨?_, ?_, ?_⟩
  · rw [hcatalog, hstore]
    intro volume hbound
    exact h.backed volume (Catalog.allocation?_of_merge_owned hbound)
  · rw [hcatalog, hstore, hasLoaded_congr hloaded]
    intro hload hnames
    obtain ⟨hrecord, hknown⟩ := h.known hload hnames
    refine ⟨hrecord, ?_⟩
    rw [Catalog.allocation?_merge, Option.isSome_or, hknown, Bool.true_or]
  · rw [hcatalog, hstore, hasLoaded_congr hloaded]
    intro hload
    rw [h.mirrored hload, Catalog.allocation?_merge]
    cases s.broker.catalog.allocation? nqn with
    | some a => simp
    | none => split <;> simp

/-- An event of the broker itself keeps what the store says of a device. -/
theorem Agrees.step (h : s.Agrees nqn) (hnamed : s.broker.catalog.Named) {e : Event}
    (hown : e.isForeign = false) : (s.step e).Agrees nqn := by
  cases s.step_changes e with
  | quiet hcatalog hstore hloaded =>
    exact h.congr (by rw [hcatalog]) (by rw [hstore]) (by rw [hstore]; exact id) hloaded.mp
  | restored hread _ hcatalog hstore =>
    refine agrees_of_overlay (fun volume hbound => ?_) hread hcatalog hstore
    exact Store.names_of_record? (h.backed volume hbound)
  | merged hcatalog hstore hloaded => exact h.merge hcatalog hstore hloaded
  | bound _ _ hfirst hcatalog hstore hloaded =>
    have hfree := Catalog.allocation?_of_firstAllocatable? hnamed hfirst
    exact h.assign (by rw [hfree, Option.isSome_some]) hcatalog hstore hloaded
  | freed _ howned hcatalog hstore hloaded =>
    exact h.assign (by rw [howned, Option.isSome_some]) hcatalog hstore hloaded
  | written hforeign _ _ _ => simp [hown] at hforeign
  | restarted hstart =>
    rw [hstart]
    exact agrees_start s.broker.store nqn

end

/-! ## All devices -/

/-- An event of the broker itself keeps what the store says of the catalog. -/
theorem Faithful.step {s : System} (h : s.Faithful) {e : Event} (hown : e.isForeign = false) :
    (s.step e).Faithful := by
  obtain ⟨hnamed, hagrees⟩ := faithful_iff.mp h
  exact faithful_iff.mpr ⟨named_step hnamed e, fun nqn => (hagrees nqn).step hnamed hown⟩

/-- As long as nobody else writes to the store, the store stands behind the catalog. -/
theorem faithful_run (store : Store) {events : List Event}
    (hown : ∀ e ∈ events, e.isForeign = false) : ((start store).run events).Faithful :=
  run_induction (fun e => e.isForeign = false) (fun _ _ he h => h.step he) hown
    (faithful_start store)

/-- In any history the phase is true to the outcomes of the loads. -/
theorem truthful_run (store : Store) (events : List Event) :
    ((start store).run events).Truthful :=
  run_induction (fun _ => True) (fun _ e _ h => h.step e) (fun _ _ => trivial)
    (truthful_start store)

end System

/-! ## Operations -/

namespace Operation

/-- A publication that succeeds has found its device bound. -/
theorem bound_of_published {around : Surroundings} {b : Broker} {op : Operation} {id node : String}
    {answer : Answer} (hrequest : op.request = .publish id node) (hstage : op.stage = .working)
    (h : (op.step around b).1 = .closing (.ok answer)) :
    ∃ volume : String, b.catalog.allocation? id = some (.owned volume) := by
  rw [← Catalog.any_isOwned_iff]
  by_cases hbound : b.catalog[id]?.any (·.allocation.isOwned) = true
  · exact hbound
  · simp [step, hstage, hrequest, work, Broker.device?, hbound] at h

end Operation

namespace Traffic

variable {store : Store} {events : List Event}

/-- One step of the traffic keeps the store behind the catalog. -/
theorem faithful_step {t : Traffic} (h : t.system.Faithful) {e : Event}
    (hown : e.isForeign = false) :
    (t.step e).system.Faithful :=
  system_step_induction h fun _ hevent => h.step (isForeign_of_event? hevent hown)

/-- Whatever traffic follows keeps the store behind the catalog. -/
theorem faithful_continues {t : Traffic} (h : t.system.Faithful)
    (hown : ∀ e ∈ events, e.isForeign = false) : (t.run events).system.Faithful :=
  run_induction (P := fun t => t.system.Faithful) (fun e => e.isForeign = false)
    (fun _ _ he h => faithful_step h he) hown h

/-- Behind any traffic of its own writers, the store stands behind the catalog. -/
theorem faithful_run (hown : ∀ e ∈ events, e.isForeign = false) :
    ((start store).run events).system.Faithful :=
  faithful_continues (System.faithful_start store) hown

/-- Behind any traffic, the phase is true to the outcomes of the loads. -/
theorem truthful_run : ((start store).run events).system.Truthful := by
  rw [system_run]
  exact System.truthful_run store _

/-- In every run without the work of other processes, whatever fails in it, the store stands behind
the catalog: what the catalog holds as bound is bound in the store, a publication that succeeds has
found its device bound in the store, and if the broker is synced, the catalog knows every name of
the store and the two say the same of every name. -/
theorem store_stands_behind_catalog (store : Store) (events : List Event)
    (hown : ∀ e ∈ events, e.isForeign = false) :
    let s := ((start store).run events).system
    (∀ nqn volume : String, s.broker.catalog.allocation? nqn = some (.owned volume) →
      s.broker.store.record? nqn = some (.owned volume)) ∧
    (∀ (i : Nat) (op : Operation) (around : Surroundings) (id node : String) (answer : Answer),
      ((start store).run events).operations[i]? = some op →
      op.request = .publish id node → op.stage = .working →
      (op.step around s.broker).1 = .closing (.ok answer) →
      ∃ volume : String, s.broker.store.record? id = some (.owned volume)) ∧
    (s.broker.sync.isSynced = true → ∀ nqn : String,
      (s.broker.store.Names nqn → (s.broker.catalog.allocation? nqn).isSome) ∧
      (s.broker.store.record? nqn).getD .free =
        (s.broker.catalog.allocation? nqn).getD .free) := by
  intro s
  have h : s.Faithful := faithful_run hown
  refine ⟨h.backed, ?_, ?_⟩
  · intro i op around id node answer _ hrequest hstage hok
    obtain ⟨volume, hbound⟩ := Operation.bound_of_published hrequest hstage hok
    exact ⟨volume, h.backed id volume hbound⟩
  · intro hsynced nqn
    have hload : s.HasLoaded :=
      truthful_run.hasLoaded_of_synced (beq_iff_eq.mp hsynced)
    exact ⟨fun hnames => (h.known hload nqn hnames).2, h.mirrored hload nqn⟩

/-- A store that records one device as bound to the volume `vol1`. -/
def boundStore : Store := .inMemory ((∅ : Snapshot).insert "nqn-a" (.owned "vol1"))

/-- Surroundings in which nothing fails and the fabric has the device of `boundStore`. -/
def calmSurroundings : Surroundings :=
  { fabric := fun _ => .ok [⟨"nqn-a", .tcp, ["10.0.0.1:4420"]⟩] }

/-- The snapshot is loaded, and a volume is published up to the look into the catalog. -/
def loadThenPublish : List Event :=
  [.beside .enterSync, .beside (.load 0 {}), .beside (.finishLoad 0),
    .arrive (.publish "nqn-a" "node-1"), .advance 0 calmSurroundings,
    .advance 0 calmSurroundings]

/-- A device that has been loaded is published, and its record is in the store. -/
theorem store_stands_behind_published :
    (∀ e ∈ loadThenPublish, e.isForeign = false) ∧
      (∃ volume : String,
        ((start boundStore).run loadThenPublish).system.broker.store.record? "nqn-a" =
          some (.owned volume)) ∧
      (((start boundStore).run loadThenPublish).system.broker.store.record? "nqn-a").getD .free =
        (((start boundStore).run loadThenPublish).system.broker.catalog.allocation?
          "nqn-a").getD .free := by
  have hown : ∀ e ∈ loadThenPublish, e.isForeign = false := by decide
  obtain ⟨-, hpublished, hsynced⟩ := store_stands_behind_catalog boundStore loadThenPublish hown
  refine ⟨hown, ?_, ?_⟩
  · exact hpublished 0 ⟨.publish "nqn-a" "node-1", .working⟩ calmSurroundings "nqn-a" "node-1"
      (.published ∅) (by rfl) rfl rfl (by rfl)
  · exact (hsynced (by decide) "nqn-a").2

end Traffic

end VolumeBroker
