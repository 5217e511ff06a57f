import VolumeBroker.Proofs.Durability

/-!
# Records that a broker has not seen

A broker goes to work before it has loaded the snapshot, and also when it could not load it.  What
the store records it then does not know: a device that belongs to a volume may be new to it, and so
be bound to another one, and a volume that it does not know counts as deleted.  The theorems here
say exactly when that happens.  It happens to no broker that has loaded the snapshot.
-/

set_option autoImplicit false

namespace VolumeBroker

/-! ## Bindings -/

namespace System

/-- The event binds the device to the volume: the volume owns nothing, the device is the first that
can be bound, and the record can be written. -/
def Binds (s : System) (e : Event) (nqn volume : String) : Prop :=
  ∃ (faults : Faults) (d : Device), e = .allocate faults volume ∧ faults.save = none ∧
    s.broker.catalog.ownedBy? volume = none ∧ s.broker.catalog.firstAllocatable? = some d ∧
    d.nqn = nqn

/-- An event that binds a device writes its record, and no other. -/
theorem Binds.store_step {s : System} {e : Event} {nqn volume : String}
    (h : s.Binds e nqn volume) :
    (s.step e).broker.store = s.broker.store.put nqn (.owned volume) := by
  obtain ⟨faults, d, rfl, hsave, howned, hfirst, rfl⟩ := h
  have hcommit : s.broker.catalog.allocate volume =
      .commit d.nqn (.owned volume) (some { d with allocation := .owned volume }) :=
    Catalog.allocate_eq_commit_iff.mpr ⟨howned, d, hfirst, rfl, rfl, rfl⟩
  simp only [step, Broker.allocate_snd, Broker.carryOut, hcommit, hsave]

/-- After an event that binds a device, its record says so. -/
theorem Binds.record?_step {s : System} {e : Event} {nqn volume : String}
    (h : s.Binds e nqn volume) :
    (s.step e).broker.store.record? nqn = some (.owned volume) := by
  rw [h.store_step, Store.record?_put, if_pos rfl]

/-- An event of the broker itself leaves the record of a name as it is, or frees the device, or
binds it. -/
theorem record?_step_cases (s : System) {e : Event} (hown : e.isForeign = false) (nqn : String) :
    (s.step e).broker.store.record? nqn = s.broker.store.record? nqn ∨
      ((s.step e).broker.store.record? nqn = some .free ∧
        ∃ faults : Faults, e = .release faults nqn) ∨
      ∃ volume : String, s.Binds e nqn volume := by
  cases s.step_changes e with
  | quiet _ hstore _ => exact .inl (by rw [hstore])
  | restored _ _ _ hstore => exact .inl (by rw [hstore])
  | merged _ hstore _ => exact .inl (by rw [hstore])
  | @bound faults volume d hsave howned hfirst _ hstore _ =>
    by_cases hn : d.nqn = nqn
    · exact .inr (.inr ⟨volume, faults, d, rfl, hsave, howned, hfirst, hn⟩)
    · exact .inl (by rw [hstore, Store.record?_put, if_neg hn])
  | @freed faults k _ _ _ _ hstore _ =>
    by_cases hn : k = nqn
    · refine .inr (.inl ⟨?_, faults, by rw [hn]⟩)
      rw [hstore, Store.record?_put, if_pos hn]
    · exact .inl (by rw [hstore, Store.record?_put, if_neg hn])
  | written hforeign _ _ _ => simp [hown] at hforeign
  | restarted hstart => exact .inl (by rw [hstart]; rfl)

/-- A broker that has loaded the snapshot binds no device whose record names an owner. -/
theorem Faithful.not_binds {s : System} (h : s.Faithful) (hload : s.HasLoaded) {e : Event}
    {nqn owner volume : String} (hrecord : s.broker.store.record? nqn = some (.owned owner)) :
    ¬ s.Binds e nqn volume := by
  rintro ⟨faults, d, -, -, -, hfirst, rfl⟩
  have hfree : s.broker.catalog.allocation? d.nqn = some .free :=
    Catalog.allocation?_of_firstAllocatable? h.named hfirst
  rw [h.allocation?_of_record? hload hrecord] at hfree
  cases hfree

/-- A broker that has loaded the snapshot binds nothing in a store without knowing it. -/
theorem Faithful.vacant {s : System} (h : s.Faithful) (hload : s.HasLoaded) {nqn : String}
    (hfree : ∀ volume : String, s.broker.catalog.allocation? nqn ≠ some (.owned volume)) :
    s.broker.store.Vacant nqn := by
  by_cases hnames : s.broker.store.Names nqn
  · obtain ⟨a, ha⟩ := Option.isSome_iff_exists.mp (h.known hload nqn hnames).1
    cases a with
    | free => exact .inr ha
    | owned volume => exact absurd (h.allocation?_of_record? hload ha) (hfree volume)
  · exact .inl hnames

end System

/-! ## Deletions -/

namespace Broker

variable {b : Broker} {faults : Faults} {nqn volume : String}

/-- The device is free, in the store and in the catalog. -/
def free (b : Broker) (nqn : String) : Broker :=
  { b with store := b.store.put nqn .free, catalog := b.catalog.assign nqn .free }

/-- A device that is bound is given back, if the record can be written. -/
theorem release_of_owned (h : b.catalog.allocation? nqn = some (.owned volume))
    (hsave : faults.save = none) : b.release faults nqn = (.ok true, b.free nqn) := by
  have hcommit : b.catalog.release nqn = .commit nqn .free true :=
    Catalog.release_eq_commit_iff.mpr ⟨⟨volume, h⟩, rfl, rfl, rfl⟩
  simp only [release, carryOut, hcommit, hsave, free]

/-- If the record cannot be written, the device stays bound. -/
theorem release_of_unwritten {e : StoreError}
    (h : b.catalog.allocation? nqn = some (.owned volume)) (hsave : faults.save = some e) :
    b.release faults nqn = (.error (.persistence e), b) := by
  have hcommit : b.catalog.release nqn = .commit nqn .free true :=
    Catalog.release_eq_commit_iff.mpr ⟨⟨volume, h⟩, rfl, rfl, rfl⟩
  simp only [release, carryOut, hcommit, hsave]

/-- A device that the catalog does not have as bound is not given back, and nothing is written. -/
theorem release_of_unbound
    (h : ∀ volume : String, b.catalog.allocation? nqn ≠ some (.owned volume)) (faults : Faults) :
    b.release faults nqn = (.ok false, b) := by
  simp only [release, carryOut, Catalog.release_eq_settled h]

end Broker

namespace Operation

/-- The work of a deletion is the return of a device. -/
theorem step_delete {around : Surroundings} {b : Broker} {op : Operation} {id : String}
    (hrequest : op.request = .delete id) (hstage : op.stage = .working) :
    op.step around b =
      (.closing (match (b.release around.faults id).1 with
        | .ok _ => .ok .deleted
        | .error e =>
          .error (.internal ("failed to release volume " ++ id ++ ": " ++ e.message))),
        (b.release around.faults id).2) := by
  simp only [step, hstage, hrequest]
  exact congrArg (fun result : Outcome × Broker => (Stage.closing result.1, result.2))
    (work_delete b around.faults id)

/-- A deletion that succeeds has freed the device, in the store and in the catalog, or it has done
nothing, because the device was not bound in the catalog. -/
theorem step_of_deleted {around : Surroundings} {b : Broker} {op : Operation} {id : String}
    {answer : Answer} (hrequest : op.request = .delete id) (hstage : op.stage = .working)
    (hok : (op.step around b).1 = .closing (.ok answer)) :
    ((∃ volume : String, b.catalog.allocation? id = some (.owned volume)) ∧
        (op.step around b).2 =
          { b with store := b.store.put id .free, catalog := b.catalog.assign id .free }) ∨
      ((∀ volume : String, b.catalog.allocation? id ≠ some (.owned volume)) ∧
        (op.step around b).2 = b) := by
  rw [step_delete hrequest hstage] at hok ⊢
  by_cases hbound : ∃ volume : String, b.catalog.allocation? id = some (.owned volume)
  · obtain ⟨volume, hvolume⟩ := hbound
    cases hsave : around.faults.save with
    | none =>
      rw [Broker.release_of_owned hvolume hsave]
      exact .inl ⟨⟨volume, hvolume⟩, rfl⟩
    | some e =>
      rw [Broker.release_of_unwritten hvolume hsave] at hok
      cases hok
  · have hunbound := not_exists.mp hbound
    rw [Broker.release_of_unbound hunbound]
    exact .inr ⟨hunbound, rfl⟩

/-- A deletion that succeeds leaves its device bound to no volume, in the catalog. -/
theorem allocation?_of_deleted {around : Surroundings} {b : Broker} {op : Operation} {id : String}
    {answer : Answer} (hrequest : op.request = .delete id) (hstage : op.stage = .working)
    (hok : (op.step around b).1 = .closing (.ok answer)) (volume : String) :
    (op.step around b).2.catalog.allocation? id ≠ some (.owned volume) := by
  rcases step_of_deleted hrequest hstage hok with ⟨-, hbroker⟩ | ⟨hfree, hbroker⟩
  · rw [hbroker, Catalog.allocation?_assign, if_pos rfl]
    cases b.catalog.allocation? id <;> simp
  · rw [hbroker]
    exact hfree volume

/-- After a deletion that succeeds, the store binds nothing under the id exactly when the device was
bound in the catalog or the store bound nothing there before. -/
theorem vacant_of_deleted_iff {around : Surroundings} {b : Broker} {op : Operation} {id : String}
    {answer : Answer} (hrequest : op.request = .delete id) (hstage : op.stage = .working)
    (hok : (op.step around b).1 = .closing (.ok answer)) :
    (op.step around b).2.store.Vacant id ↔
      (∃ volume : String, b.catalog.allocation? id = some (.owned volume)) ∨
        b.store.Vacant id := by
  rcases step_of_deleted hrequest hstage hok with ⟨hbound, hbroker⟩ | ⟨hfree, hbroker⟩
  · have hput : (b.store.put id .free).Vacant id := .inr (by rw [Store.record?_put, if_pos rfl])
    rw [hbroker]
    exact ⟨fun _ => .inl hbound, fun _ => hput⟩
  · rw [hbroker]
    exact ⟨.inr, fun h => h.resolve_left fun ⟨volume, hv⟩ => hfree volume hv⟩

end Operation

namespace Traffic

/-- An event without the work of other processes leaves the record of a name as it is, or is a
release that frees the device, or binds it. -/
theorem record?_step_cases (t : Traffic) {e : Event} (hown : e.isForeign = false) (nqn : String) :
    (t.step e).system.broker.store.record? nqn = t.system.broker.store.record? nqn ∨
      ((t.step e).system.broker.store.record? nqn = some .free ∧
        ∃ faults : Faults, t.event? e = some (.release faults nqn)) ∨
      ∃ volume : String, (t.step e).system.broker.store.record? nqn = some (.owned volume) ∧
        ∃ e' ∈ t.event? e, t.system.Binds e' nqn volume := by
  rw [system_step]
  cases hevent : t.event? e with
  | none => exact .inl rfl
  | some e' =>
    rcases t.system.record?_step_cases (isForeign_of_event? hevent hown) nqn with
      hsame | ⟨hfree, faults, rfl⟩ | ⟨volume, hbinds⟩
    · exact .inl hsame
    · exact .inr (.inl ⟨hfree, faults, rfl⟩)
    · exact .inr (.inr ⟨volume, hbinds.record?_step, e', rfl, hbinds⟩)

/-- In a run without the work of other processes, let a record name an owner.  The next event puts
another owner in its place exactly when the broker, which has not loaded the snapshot, holds the
device for free and binds it; otherwise the record stays, or a release of the device frees it. -/
theorem record_overwritten_iff (store : Store) (events : List Event)
    (hown : ∀ e ∈ events, e.isForeign = false) (e : Event) (he : e.isForeign = false)
    (nqn owner : String)
    (hrecord : ((start store).run events).system.broker.store.record? nqn =
      some (.owned owner)) :
    let t := (start store).run events
    (∀ volume : String, volume ≠ owner →
      ((t.step e).system.broker.store.record? nqn = some (.owned volume) ↔
        ¬ t.system.HasLoaded ∧ ∃ e' ∈ t.event? e, t.system.Binds e' nqn volume)) ∧
    ((∀ volume : String, (t.step e).system.broker.store.record? nqn = some (.owned volume) →
        volume = owner) →
      (t.step e).system.broker.store.record? nqn = some (.owned owner) ∨
        ((t.step e).system.broker.store.record? nqn = some .free ∧
          ∃ faults : Faults, t.event? e = some (.release faults nqn))) := by
  intro t
  have hfaithful : t.system.Faithful := faithful_run hown
  have hcases := t.record?_step_cases he nqn
  rw [hrecord] at hcases
  refine ⟨fun volume hne => ⟨fun hafter => ?_, ?_⟩, fun honly => ?_⟩
  · rw [hafter] at hcases
    rcases hcases with hsame | ⟨hfree, -⟩ | ⟨v, hv, e', he', hbinds⟩
    · exact absurd (Allocation.owned.inj (Option.some.inj hsame)) hne
    · cases hfree
    · obtain rfl : volume = v := Allocation.owned.inj (Option.some.inj hv)
      exact ⟨fun hload => hfaithful.not_binds hload hrecord hbinds, e', he', hbinds⟩
  · rintro ⟨-, e', he', hbinds⟩
    rw [system_step, he']
    exact hbinds.record?_step
  · rcases hcases with hsame | hfreed | ⟨v, hv, -⟩
    · exact .inl hsame
    · exact .inr hfreed
    · exact .inl (honly v hv ▸ hv)

/-- The snapshot is loaded, and the fabric is asked. -/
def loadThenDiscover : List Event :=
  [.beside .enterSync, .beside (.load 0 {}), .beside (.finishLoad 0),
    .beside (.merge [⟨"nqn-a", .tcp, ["10.0.0.1:4420"]⟩])]

/-- With the snapshot loaded before the discovery, the device of `vol1` is not bound to `vol2`, and
its record stays. -/
theorem record_kept_after_load :
    (∀ e ∈ loadThenDiscover, e.isForeign = false) ∧
      ((start boundStore).run loadThenDiscover).system.broker.store.record? "nqn-a" =
        some (.owned "vol1") ∧
      ∀ volume : String, volume ≠ "vol1" →
        (((start boundStore).run loadThenDiscover).step
          (.beside (.allocate {} "vol2"))).system.broker.store.record? "nqn-a" ≠
            some (.owned volume) := by
  have hown : ∀ e ∈ loadThenDiscover, e.isForeign = false := by decide
  have hrecord : ((start boundStore).run loadThenDiscover).system.broker.store.record? "nqn-a" =
      some (.owned "vol1") := by decide
  have hload : ((start boundStore).run loadThenDiscover).system.HasLoaded :=
    ⟨0, List.Mem.head _⟩
  obtain ⟨hiff, -⟩ := record_overwritten_iff boundStore loadThenDiscover hown
    (.beside (.allocate {} "vol2")) rfl "nqn-a" "vol1" hrecord
  refine ⟨hown, hrecord, fun volume hne hafter => ?_⟩
  exact ((hiff volume hne).mp hafter).1 hload

/-- The load of the snapshot fails, and a volume `vol2` is created up to the binding of a device. -/
def createWithoutLoad : List Event :=
  [.arrive (.create ⟨"vol2", [some .mount], ∅⟩), .advance 0 calmSurroundings,
    .advance 0 calmSurroundings, .beside (.load 0 { load := some (.backend "unreachable") }),
    .beside (.finishLoad 0), .advance 0 calmSurroundings, .advance 0 calmSurroundings,
    .advance 0 calmSurroundings, .advance 0 calmSurroundings]

/-- The creation of a volume puts the new volume in the place of the one that the store records as
the owner of the device. -/
theorem unseen_record_overwritten :
    (∀ e ∈ createWithoutLoad, e.isForeign = false) ∧
      ((start boundStore).run createWithoutLoad).system.broker.store.record? "nqn-a" =
        some (.owned "vol1") ∧
      (((start boundStore).run createWithoutLoad).step
        (.advance 0 calmSurroundings)).system.broker.store.record? "nqn-a" =
          some (.owned "vol2") := by
  refine ⟨?_, ?_, ?_⟩
  · decide
  · decide
  · decide

/-- In a run without the work of other processes, let a deletion succeed.  Afterwards the store
binds nothing under the id exactly when the catalog held the device as bound or the store bound
nothing there before, so always once the broker has loaded the snapshot.  If the store still names
an owner, the next load brings it back. -/
theorem deleted_vacant_iff (store : Store) (events : List Event)
    (hown : ∀ e ∈ events, e.isForeign = false) (i : Nat) (op : Operation) (around : Surroundings)
    (id : String) (answer : Answer)
    (hop : ((start store).run events).operations[i]? = some op)
    (hrequest : op.request = .delete id) (hstage : op.stage = .working)
    (hok : (op.step around ((start store).run events).system.broker).1 =
      .closing (.ok answer)) :
    let before := ((start store).run events).system
    let after := (((start store).run events).step (.advance i around)).system
    (after.broker.store.Vacant id ↔
      (∃ volume : String, before.broker.catalog.allocation? id = some (.owned volume)) ∨
        before.broker.store.Vacant id) ∧
    (before.HasLoaded → after.broker.store.Vacant id) ∧
    ∀ (snapshot : Snapshot) (volume : String), after.broker.store.load = .ok snapshot →
      ((after.broker.catalog.overlay snapshot).allocation? id = some (.owned volume) ↔
        after.broker.store.record? id = some (.owned volume)) := by
  intro before after
  have hfaithful : before.Faithful := faithful_run hown
  have hafter : after.broker = (op.step around before.broker).2 := by
    simp only [after, step, hop]
    rfl
  have hiff : after.broker.store.Vacant id ↔
      (∃ volume : String, before.broker.catalog.allocation? id = some (.owned volume)) ∨
        before.broker.store.Vacant id := by
    rw [hafter]
    exact Operation.vacant_of_deleted_iff hrequest hstage hok
  refine ⟨hiff, fun hload => hiff.mpr ?_, fun snapshot volume hsnapshot => ?_⟩
  -- A volume that the catalog does not know is not in the store either, once it is loaded.
  · by_cases hbound : ∃ volume : String,
        before.broker.catalog.allocation? id = some (.owned volume)
    · exact .inl hbound
    · exact .inr (hfaithful.vacant hload fun volume hv => hbound ⟨volume, hv⟩)
  · have hgone : after.broker.catalog.allocation? id ≠ some (.owned volume) := by
      rw [hafter]
      exact Operation.allocation?_of_deleted hrequest hstage hok volume
    rw [Catalog.allocation?_overlay, Store.getElem?_of_load_eq_ok hsnapshot]
    cases after.broker.store.record? id with
    | some a => simp
    | none => simpa using hgone

/-- The snapshot is loaded, and a volume is deleted up to the return of its device. -/
def loadThenDelete : List Event :=
  [.beside .enterSync, .beside (.load 0 {}), .beside (.finishLoad 0), .arrive (.delete "nqn-a"),
    .advance 0 calmSurroundings, .advance 0 calmSurroundings]

/-- With the snapshot loaded before the deletion, nothing in the store binds the device afterwards.
-/
theorem deleted_vacant_after_load :
    ((start boundStore).run loadThenDelete).operations[0]? = some ⟨.delete "nqn-a", .working⟩ ∧
      (((start boundStore).run loadThenDelete).step
        (.advance 0 calmSurroundings)).system.broker.store.Vacant "nqn-a" := by
  have hload : ((start boundStore).run loadThenDelete).system.HasLoaded := ⟨0, List.Mem.head _⟩
  have hop : ((start boundStore).run loadThenDelete).operations[0]? =
      some ⟨.delete "nqn-a", .working⟩ := by rfl
  obtain ⟨-, hvacant, -⟩ := deleted_vacant_iff boundStore loadThenDelete (by decide) 0 _
    calmSurroundings "nqn-a" .deleted hop rfl rfl (by rfl)
  exact ⟨hop, hvacant hload⟩

/-- A volume is deleted, up to the return of its device, by a broker that has loaded nothing. -/
def deleteWithoutLoad : List Event :=
  [.arrive (.delete "nqn-a"), .advance 0 calmSurroundings, .advance 0 calmSurroundings]

/-- A deletion succeeds, the store goes on to name the owner of the device, and the next load brings
it back. -/
theorem unseen_volume_survives_deletion :
    (∀ e ∈ deleteWithoutLoad, e.isForeign = false) ∧
      ((start boundStore).run deleteWithoutLoad).operations[0]? =
        some ⟨.delete "nqn-a", .working⟩ ∧
      (Operation.step calmSurroundings ((start boundStore).run deleteWithoutLoad).system.broker
        ⟨.delete "nqn-a", .working⟩).1 = .closing (.ok .deleted) ∧
      ¬ (((start boundStore).run deleteWithoutLoad).step
        (.advance 0 calmSurroundings)).system.broker.store.Vacant "nqn-a" ∧
      ((((start boundStore).run deleteWithoutLoad).step (.advance 0 calmSurroundings)).run
        [.beside .enterSync, .beside (.load 0 {})]).system.broker.catalog.allocation? "nqn-a" =
          some (.owned "vol1") := by
  have hrecord : (((start boundStore).run deleteWithoutLoad).step
      (.advance 0 calmSurroundings)).system.broker.store.record? "nqn-a" =
        some (.owned "vol1") := by decide
  refine ⟨?_, ?_, ?_, ?_, ?_⟩
  · decide
  · rfl
  · rfl
  · rintro (hnames | hfree)
    · exact hnames (Store.names_of_record? hrecord)
    · rw [hrecord] at hfree
      cases hfree
  · decide

end Traffic

end VolumeBroker
