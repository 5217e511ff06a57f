import Mathlib.Data.List.Induction
import VolumeBroker.Proofs.Ownership
import VolumeBroker.Proofs.UnseenRecords

/-!
# What the history of a volume tells

An operation takes effect when it is in the catalog, so the events at which operations do their work
put them in an order.  In this order the creations and deletions that succeed say which devices are
bound: a device goes from one volume to another only through a deletion that frees it, a volume
changes its device only through a deletion of the device it had, and in a store that was empty at
first a device is bound exactly if a creation has given it out and no deletion has taken it back
since.

Creations and deletions take different locks, and a load may be laid over the catalog at any moment.
What carries the proofs is that a load says nothing new of a device that is bound, because its
record was written first (`System.Faithful`), and nothing new at all if every record was written by
the broker itself (`System.Seen`).
-/

set_option autoImplicit false

namespace VolumeBroker

namespace Catalog

/-- The device that a volume owns stands in the catalog under its own name. -/
theorem getElem?_of_ownedBy? {catalog : Catalog} (hc : catalog.Named) {volume : String}
    {d : Device} (h : catalog.ownedBy? volume = some d) :
    catalog[d.nqn]? = some d ∧ d.allocation = .owned volume := by
  obtain ⟨nqn, hd⟩ := mem_devices.mp (List.mem_of_find?_eq_some h)
  have howner : d.owner? = some volume := by simpa using List.find?_some h
  exact ⟨hc nqn d hd ▸ hd, owner?_eq_some_iff.mp howner⟩

/-- The device that is found for an owner is bound to it. -/
theorem allocation?_of_ownedBy? {catalog : Catalog} (hc : catalog.Named) {volume : String}
    {d : Device} (h : catalog.ownedBy? volume = some d) :
    catalog.allocation? d.nqn = some (.owned volume) := by
  obtain ⟨hd, hallocation⟩ := getElem?_of_ownedBy? hc h
  rw [allocation?, hd, Option.map_some, hallocation]

/-- A device that is bound is found for its owner, where no other is. -/
theorem ownedBy?_of_allocation? {catalog : Catalog} (hnamed : catalog.Named)
    (hexclusive : catalog.Exclusive) {nqn volume : String}
    (h : catalog.allocation? nqn = some (.owned volume)) :
    ∃ d : Device, catalog.ownedBy? volume = some d ∧ d.nqn = nqn := by
  cases howned : catalog.ownedBy? volume with
  | none => exact absurd h (ownedBy?_eq_none_iff.mp howned nqn)
  | some d =>
    have hd : catalog.allocation? d.nqn = some (.owned volume) :=
      allocation?_of_ownedBy? hnamed howned
    exact ⟨d, rfl, hexclusive d.nqn nqn volume hd h⟩

end Catalog

/-! ## The system -/

namespace System

/-- An event of the broker itself leaves a device bound to its volume, or it is a release of the
device. -/
theorem Faithful.owner_step {s : System} (h : s.Faithful) {e : Event} (hown : e.isForeign = false)
    (hlife : e ≠ .restart) {nqn volume : String}
    (hbound : s.broker.catalog.allocation? nqn = some (.owned volume)) :
    (s.step e).broker.catalog.allocation? nqn = some (.owned volume) ∨
      ((s.step e).broker.catalog.allocation? nqn = some .free ∧
        ∃ faults : Faults, e = .release faults nqn) := by
  cases s.step_changes e with
  | quiet hcatalog _ _ => exact .inl (hcatalog ▸ hbound)
  | @restored _ _ snapshot hread _ hcatalog _ =>
    left
    rw [hcatalog, Catalog.allocation?_overlay, Store.getElem?_of_load_eq_ok hread,
      h.backed nqn volume hbound]
    rfl
  | merged hcatalog _ _ =>
    left
    rw [hcatalog, Catalog.allocation?_merge, hbound]
    rfl
  | @bound _ _ d _ _ hfirst hcatalog _ _ =>
    -- The device that is bound now was free, so it is another one.
    have hfree : s.broker.catalog.allocation? d.nqn = some .free :=
      Catalog.allocation?_of_firstAllocatable? h.named hfirst
    have hne : d.nqn ≠ nqn := by
      intro heq
      rw [heq, hbound] at hfree
      cases hfree
    left
    rw [hcatalog, Catalog.allocation?_assign, if_neg hne]
    exact hbound
  | @freed faults k _ _ _ hcatalog _ _ =>
    rw [hcatalog, Catalog.allocation?_assign]
    by_cases hk : k = nqn
    · subst hk
      rw [if_pos rfl, hbound]
      exact .inr ⟨rfl, faults, rfl⟩
    · rw [if_neg hk]
      exact .inl hbound
  | written hforeign _ _ _ => simp [hown] at hforeign
  | restarted _ => exact absurd rfl hlife

/-- Every binding that the store records is known to the catalog. -/
def Seen (s : System) : Prop :=
  ∀ nqn volume : String, s.broker.store.record? nqn = some (.owned volume) →
    s.broker.catalog.allocation? nqn = some (.owned volume)

/-- A broker with an empty store has seen all that is in it. -/
theorem seen_start {store : Store} (hempty : ∀ nqn : String, ¬ store.Names nqn) :
    (start store).Seen := by
  intro nqn volume h
  exact absurd (Store.names_of_record? h) (hempty nqn)

/-- A broker that is alone with its store goes on knowing every binding in it. -/
theorem Seen.step {s : System} (h : s.Seen) (hnamed : s.broker.catalog.Named) {e : Event}
    (hown : e.isForeign = false) (hlife : e ≠ .restart) : (s.step e).Seen := by
  cases s.step_changes e with
  | quiet hcatalog hstore _ =>
    intro nqn volume hrecord
    rw [hcatalog]
    exact h nqn volume (hstore ▸ hrecord)
  | @restored _ _ snapshot hread _ hcatalog hstore =>
    intro nqn volume hrecord
    rw [hstore] at hrecord
    rw [hcatalog, Catalog.allocation?_overlay, Store.getElem?_of_load_eq_ok hread, hrecord]
    rfl
  | merged hcatalog hstore _ =>
    intro nqn volume hrecord
    rw [hstore] at hrecord
    rw [hcatalog, Catalog.allocation?_merge, h nqn volume hrecord]
    rfl
  | @bound _ owner d _ _ hfirst hcatalog hstore _ =>
    have hfree : s.broker.catalog.allocation? d.nqn = some .free :=
      Catalog.allocation?_of_firstAllocatable? hnamed hfirst
    intro nqn volume hrecord
    rw [hstore, Store.record?_put] at hrecord
    rw [hcatalog, Catalog.allocation?_assign]
    -- Store and catalog are given the same allocation, and only of this device.
    by_cases hk : d.nqn = nqn
    · rw [if_pos hk] at hrecord ⊢
      rw [← hk, hfree, Option.map_some, hrecord]
    · rw [if_neg hk] at hrecord ⊢
      exact h nqn volume hrecord
  | @freed _ k _ _ _ hcatalog hstore _ =>
    intro nqn volume hrecord
    rw [hstore, Store.record?_put] at hrecord
    rw [hcatalog, Catalog.allocation?_assign]
    by_cases hk : k = nqn
    · rw [if_pos hk] at hrecord
      cases hrecord
    · rw [if_neg hk] at hrecord ⊢
      exact h nqn volume hrecord
  | written hforeign _ _ _ => simp [hown] at hforeign
  | restarted _ => exact absurd rfl hlife

/-- A device that is bound after an event was bound before it, or it is bound by it, or it is the
snapshot of a load that binds it. -/
theorem owned_step_cases {s : System} {e : Event} {nqn volume : String}
    (hbound : (s.step e).broker.catalog.allocation? nqn = some (.owned volume)) :
    s.broker.catalog.allocation? nqn = some (.owned volume) ∨ s.Binds e nqn volume ∨
      (s.broker.store.record? nqn = some (.owned volume) ∧
        ∃ (number : Nat) (faults : Faults), e = .load number faults) := by
  cases s.step_changes e with
  | quiet hcatalog _ _ | written _ hcatalog _ _ =>
    rw [hcatalog] at hbound
    exact .inl hbound
  | @restored number faults snapshot hread _ hcatalog _ =>
    rw [hcatalog, Catalog.allocation?_overlay, Store.getElem?_of_load_eq_ok hread] at hbound
    cases hrecord : s.broker.store.record? nqn with
    | none =>
      left
      simpa [hrecord] using hbound
    | some a =>
      obtain rfl : a = .owned volume := by simpa [hrecord] using hbound
      exact .inr (.inr ⟨rfl, number, faults, rfl⟩)
  | merged hcatalog _ _ =>
    rw [hcatalog] at hbound
    exact .inl (Catalog.allocation?_of_merge_owned hbound)
  | @bound faults owner d hsave howned hfirst hcatalog _ _ =>
    rw [hcatalog] at hbound
    rcases Catalog.allocation?_of_assign_owned hbound with ⟨rfl, rfl⟩ | hbefore
    · exact .inr (.inl ⟨faults, d, rfl, hsave, howned, hfirst, rfl⟩)
    · exact .inl hbefore
  | freed _ _ hcatalog _ _ =>
    rw [hcatalog] at hbound
    exact .inl (Catalog.allocation?_of_assign_free hbound)
  | restarted hstart => simp [hstart, start, Broker.start] at hbound

/-- Where every record was written by the broker itself, a device comes to be bound only by a
request for one. -/
theorem Seen.owned_step {s : System} (h : s.Seen) {e : Event} {nqn volume : String}
    (hbound : (s.step e).broker.catalog.allocation? nqn = some (.owned volume)) :
    s.broker.catalog.allocation? nqn = some (.owned volume) ∨ s.Binds e nqn volume := by
  rcases owned_step_cases hbound with hbefore | hbinds | ⟨hrecord, -⟩
  · exact .inl hbefore
  · exact .inr hbinds
  · exact .inl (h nqn volume hrecord)

end System

/-! ## Operations at work -/

namespace Broker

variable {b : Broker} {faults : Faults} {volume : String} {d : Device}

/-- A volume that owns a device is given that device, and nothing is written. -/
theorem allocate_of_owned (howned : b.catalog.ownedBy? volume = some d) :
    b.allocate faults volume = (.ok d, b) := by
  simp only [allocate, carryOut, Catalog.allocate, howned]

/-- A volume that owns none is bound to the first device that can be, if the record can be written.
-/
theorem allocate_of_first (howned : b.catalog.ownedBy? volume = none)
    (hfirst : b.catalog.firstAllocatable? = some d) (hsave : faults.save = none) :
    b.allocate faults volume =
      (.ok { d with allocation := .owned volume },
        { b with
          store := b.store.put d.nqn (.owned volume)
          catalog := b.catalog.assign d.nqn (.owned volume) }) := by
  simp only [allocate, carryOut, Catalog.allocate, howned, hfirst, hsave]

/-- If there is none that can be bound, the volume gets none. -/
theorem allocate_of_exhausted (howned : b.catalog.ownedBy? volume = none)
    (hfirst : b.catalog.firstAllocatable? = none) (faults : Faults) :
    b.allocate faults volume = (.error .noDeviceAvailable, b) := by
  simp only [allocate, carryOut, Catalog.allocate, howned, hfirst]

/-- If the record cannot be written, nothing is bound. -/
theorem allocate_of_unwritten {e : StoreError} (howned : b.catalog.ownedBy? volume = none)
    (hfirst : b.catalog.firstAllocatable? = some d) (hsave : faults.save = some e) :
    b.allocate faults volume = (.error (.persistence e), b) := by
  simp only [allocate, carryOut, Catalog.allocate, howned, hfirst, hsave]

/-- A request for a device is met with the one that the volume owns, or with the first one that can
be bound if the record can be written. -/
theorem allocate_eq_ok_iff :
    (b.allocate faults volume).1 = .ok d ↔
      b.catalog.ownedBy? volume = some d ∨
        (b.catalog.ownedBy? volume = none ∧ faults.save = none ∧
          ∃ first : Device, b.catalog.firstAllocatable? = some first ∧
            { first with allocation := .owned volume } = d) := by
  cases howned : b.catalog.ownedBy? volume with
  | some own =>
    rw [allocate_of_owned howned]
    simp
  | none =>
    cases hfirst : b.catalog.firstAllocatable? with
    | none =>
      rw [allocate_of_exhausted howned hfirst]
      simp
    | some first =>
      cases hsave : faults.save with
      | some e =>
        rw [allocate_of_unwritten howned hfirst hsave]
        simp
      | none =>
        rw [allocate_of_first howned hfirst hsave]
        simp

/-- Afterwards the device stands in the catalog as it has been given out. -/
theorem getElem?_allocate (hnamed : b.catalog.Named) (h : (b.allocate faults volume).1 = .ok d) :
    (b.allocate faults volume).2.catalog[d.nqn]? = some d ∧ d.allocation = .owned volume := by
  rcases allocate_eq_ok_iff.mp h with howned | ⟨howned, hsave, first, hfirst, rfl⟩
  · rw [allocate_of_owned howned]
    exact Catalog.getElem?_of_ownedBy? hnamed howned
  · obtain ⟨hd, -, -⟩ := Catalog.getElem?_of_firstAllocatable? hnamed hfirst
    rw [allocate_of_first howned hfirst hsave]
    refine ⟨?_, rfl⟩
    show (b.catalog.assign first.nqn (.owned volume))[first.nqn]? = _
    rw [Catalog.getElem?_assign, if_pos rfl, hd, Option.map_some]

/-- The device that a volume is given is bound to it. -/
theorem allocation?_allocate (hnamed : b.catalog.Named)
    (h : (b.allocate faults volume).1 = .ok d) :
    (b.allocate faults volume).2.catalog.allocation? d.nqn = some (.owned volume) := by
  obtain ⟨hd, hallocation⟩ := getElem?_allocate hnamed h
  rw [Catalog.allocation?, hd, Option.map_some, hallocation]

end Broker

namespace Operation

variable {around : Surroundings} {b : Broker} {op : Operation}

/-- The work of a creation is a request for a device. -/
theorem step_create {request : CreateRequest} (hrequest : op.request = .create request)
    (hstage : op.stage = .working) :
    op.step around b =
      (.closing (match (b.allocate around.faults request.name).1 with
        | .ok d => .ok (.created ⟨d.nqn, d.volumeContext⟩)
        | .error e => .error (.resourceExhausted e.message)),
        (b.allocate around.faults request.name).2) := by
  simp only [step, hstage, hrequest]
  exact congrArg (fun result : Outcome × Broker => (Stage.closing result.1, result.2))
    (work_create b around.faults request)

/-- A creation succeeds with the device that the request for one is met with. -/
theorem created_iff {request : CreateRequest} {volume : CreatedVolume}
    (hrequest : op.request = .create request) (hstage : op.stage = .working) :
    (op.step around b).1 = .closing (.ok (.created volume)) ↔
      ∃ d : Device, (b.allocate around.faults request.name).1 = .ok d ∧
        ⟨d.nqn, d.volumeContext⟩ = volume := by
  rw [step_create hrequest hstage]
  cases (b.allocate around.faults request.name).1 <;> simp

/-- The device that a creation gives out is bound to the volume. -/
theorem allocation?_of_created {request : CreateRequest} {volume : CreatedVolume}
    (hrequest : op.request = .create request) (hstage : op.stage = .working)
    (hnamed : b.catalog.Named)
    (hok : (op.step around b).1 = .closing (.ok (.created volume))) :
    (op.step around b).2.catalog.allocation? volume.id = some (.owned request.name) := by
  obtain ⟨d, hresult, rfl⟩ := (created_iff hrequest hstage).mp hok
  rw [step_create hrequest hstage]
  exact Broker.allocation?_allocate hnamed hresult

/-- A creation that finds a device it can bind gives it out, if the record can be written. -/
theorem created_of_first {request : CreateRequest} {d : Device}
    (hrequest : op.request = .create request) (hstage : op.stage = .working)
    (howned : b.catalog.ownedBy? request.name = none)
    (hfirst : b.catalog.firstAllocatable? = some d) (hsave : around.faults.save = none) :
    ∃ volume : CreatedVolume, volume.id = d.nqn ∧
      (op.step around b).1 = .closing (.ok (.created volume)) := by
  rw [step_create hrequest hstage, Broker.allocate_of_first howned hfirst hsave]
  exact ⟨_, rfl, rfl⟩

/-- Work of a deletion that frees its device has succeeded. -/
theorem deleted_of_freed {id volume : String} (hrequest : op.request = .delete id)
    (hstage : op.stage = .working) (hbound : b.catalog.allocation? id = some (.owned volume))
    (hfreed : (op.step around b).2.catalog.allocation? id = some .free) :
    (op.step around b).1 = .closing (.ok .deleted) := by
  rw [step_delete hrequest hstage] at hfreed ⊢
  cases hsave : around.faults.save with
  | none => rw [Broker.release_of_owned hbound hsave]
  | some e =>
    rw [Broker.release_of_unwritten hbound hsave, hbound] at hfreed
    cases hfreed

/-- Only the work of a deletion gives a device back. -/
theorem delete_of_event? {faults : Faults} {id : String}
    (h : op.event? around = some (.release faults id)) :
    op.request = .delete id ∧ op.stage = .working := by
  cases causes_of_event? h with
  | deleted hstage hrequest => exact ⟨hrequest, hstage⟩

/-- Only the work of a creation asks for a device. -/
theorem create_of_event? {faults : Faults} {volume : String}
    (h : op.event? around = some (.allocate faults volume)) :
    (∃ request : CreateRequest, op.request = .create request ∧ request.name = volume) ∧
      op.stage = .working ∧ faults = around.faults := by
  cases causes_of_event? h with
  | created hstage hrequest => exact ⟨⟨_, hrequest, rfl⟩, hstage, rfl⟩

end Operation

/-! ## Histories -/

namespace Traffic

/-- Whether an event keeps to the life of one broker: the process goes on, nobody else writes to the
store, and devices are handed out and taken back by operations only. -/
def Event.isOrderly : Event → Bool
  | .beside (.allocate _ _) => false
  | .beside (.release _ _) => false
  | .beside (.write _) => false
  | .beside (.writeTexts _) => false
  | .beside .restart => false
  | _ => true

/-- The event is the work of an operation on the request, which comes to the outcome. -/
def Performs (t : Traffic) (e : Event) (request : Request) (outcome : Outcome) : Prop :=
  ∃ (i : Nat) (around : Surroundings) (op : Operation), e = .advance i around ∧
    t.operations[i]? = some op ∧ op.request = request ∧ op.stage = .working ∧
    (op.step around t.system.broker).1 = .closing outcome

/-- The event is the work of a creation of the volume `name` that gives out the device `id`. -/
def Creates (t : Traffic) (e : Event) (name id : String) : Prop :=
  ∃ (request : CreateRequest) (volume : CreatedVolume), request.name = name ∧ volume.id = id ∧
    t.Performs e (.create request) (.ok (.created volume))

/-- The event is the work of a deletion of the device that succeeds. -/
def Deletes (t : Traffic) (e : Event) (id : String) : Prop :=
  t.Performs e (.delete id) (.ok .deleted)

/-- What the catalog says of the device. -/
def allocation? (t : Traffic) (nqn : String) : Option Allocation :=
  t.system.broker.catalog.allocation? nqn

/-- The event is the work of a deletion that succeeds and frees a device that was bound. -/
def Frees (t : Traffic) (e : Event) (id : String) : Prop :=
  t.Deletes e id ∧ (∃ volume : String, t.allocation? id = some (.owned volume)) ∧
    (t.step e).allocation? id = some .free

/-- The event gives a device back that was bound, by whomever it has been asked for. -/
def Releases (t : Traffic) (e : Event) (id : String) : Prop :=
  (∃ faults : Faults, t.event? e = some (.release faults id)) ∧
    (∃ volume : String, t.allocation? id = some (.owned volume)) ∧
    (t.step e).allocation? id = some .free

/-- An orderly event is not the work of other processes. -/
theorem isForeign_of_isOrderly {e : Event} (h : e.isOrderly = true) : e.isForeign = false := by
  cases e with
  | beside e => cases e <;> first | rfl | cases h
  | _ => rfl

/-- An orderly event does not end the process. -/
theorem ne_restart_of_isOrderly {e : Event} (h : e.isOrderly = true) : e ≠ .beside .restart := by
  rintro rfl
  cases h

/-! ### One event -/

/-- After the work of a creation its device is bound to the volume. -/
theorem Creates.allocation?_step {t : Traffic} {e : Event} {name id : String}
    (h : t.Creates e name id) (hnamed : t.system.broker.catalog.Named) :
    (t.step e).allocation? id = some (.owned name) := by
  obtain ⟨request, volume, rfl, rfl, i, around, op, rfl, hop, hrequest, hstage, hok⟩ := h
  rw [allocation?, broker_step_advance hop]
  exact Operation.allocation?_of_created hrequest hstage hnamed hok

/-- After the work of a deletion its device is bound to no volume. -/
theorem Deletes.allocation?_step {t : Traffic} {e : Event} {id : String} (h : t.Deletes e id)
    (volume : String) : (t.step e).allocation? id ≠ some (.owned volume) := by
  obtain ⟨i, around, op, rfl, hop, hrequest, hstage, hok⟩ := h
  rw [allocation?, broker_step_advance hop]
  exact Operation.allocation?_of_deleted hrequest hstage hok volume

/-- An event leaves a device bound to its volume, or it gives the device back. -/
theorem bound_step {t : Traffic} (h : t.system.Faithful) {e : Event} (hown : e.isForeign = false)
    (hlife : e ≠ .beside .restart) {id volume : String}
    (hbound : t.allocation? id = some (.owned volume)) :
    (t.step e).allocation? id = some (.owned volume) ∨ t.Releases e id := by
  rcases t.system_step_cases e with ⟨-, hsame⟩ | ⟨e', hevent, hsystem⟩
  · left
    rw [allocation?, hsame]
    exact hbound
  · rcases h.owner_step (isForeign_of_event? hevent hown) (ne_restart_of_event? hevent hlife) hbound
      with hkept | ⟨hfreed, faults, rfl⟩
    · left
      rw [allocation?, hsystem]
      exact hkept
    · right
      rw [← hsystem] at hfreed
      exact ⟨⟨faults, hevent⟩, ⟨volume, hbound⟩, hfreed⟩

/-- Where devices are given back by operations only, it is a deletion that gives the device back. -/
theorem Releases.frees {t : Traffic} {e : Event} {id : String} (h : t.Releases e id)
    (horderly : e.isOrderly = true) : t.Frees e id := by
  obtain ⟨⟨faults, hevent⟩, ⟨volume, hbound⟩, hfreed⟩ := h
  refine ⟨?_, ⟨volume, hbound⟩, hfreed⟩
  cases e with
  | arrive request => cases hevent
  | advance i around =>
    obtain ⟨op, hop, hopevent⟩ := Option.bind_eq_some_iff.mp hevent
    obtain ⟨hrequest, hstage⟩ := Operation.delete_of_event? hopevent
    rw [allocation?, broker_step_advance hop] at hfreed
    exact ⟨i, around, op, rfl, hop, hrequest, hstage,
      Operation.deleted_of_freed hrequest hstage hbound hfreed⟩
  | beside e => cases e <;> simp_all [event?, Event.isOrderly]

/-- An event leaves a device bound to its volume, or it is a deletion that frees the device. -/
theorem owner_step {t : Traffic} (h : t.system.Faithful) {e : Event} (horderly : e.isOrderly = true)
    {id volume : String} (hbound : t.allocation? id = some (.owned volume)) :
    (t.step e).allocation? id = some (.owned volume) ∨ t.Frees e id :=
  (bound_step h (isForeign_of_isOrderly horderly) (ne_restart_of_isOrderly horderly)
    hbound).imp_right (·.frees horderly)

/-- A stage of an operation that binds a device is the work of a creation that gives it out. -/
theorem creates_of_binds {t : Traffic} {i : Nat} {around : Surroundings} {e : System.Event}
    (hevent : t.event? (.advance i around) = some e) {id volume : String}
    (h : t.system.Binds e id volume) : t.Creates (.advance i around) volume id := by
  obtain ⟨faults, d, rfl, hsave, howned, hfirst, rfl⟩ := h
  obtain ⟨op, hop, hopevent⟩ := Option.bind_eq_some_iff.mp hevent
  obtain ⟨⟨request, hrequest, rfl⟩, hstage, rfl⟩ := Operation.create_of_event? hopevent
  obtain ⟨created, hid, hok⟩ := Operation.created_of_first hrequest hstage howned hfirst hsave
  exact ⟨request, created, rfl, hid, i, around, op, rfl, hop, hrequest, hstage, hok⟩

/-- Where every record was written by the broker itself, a device comes to be bound only by a
creation. -/
theorem owned_step {t : Traffic} (h : t.system.Seen) {e : Event} (horderly : e.isOrderly = true)
    {id volume : String} (hbound : (t.step e).allocation? id = some (.owned volume)) :
    t.allocation? id = some (.owned volume) ∨ t.Creates e volume id := by
  rcases t.system_step_cases e with ⟨-, hsame⟩ | ⟨e', hevent, hsystem⟩
  · left
    rw [allocation?, hsame] at hbound
    exact hbound
  · rw [allocation?, hsystem] at hbound
    rcases h.owned_step hbound with hbefore | hbinds
    · exact .inl hbefore
    · right
      cases e with
      | arrive request => cases hevent
      | advance i around => exact creates_of_binds hevent hbinds
      | beside e =>
        obtain ⟨faults, d, rfl, -⟩ := hbinds
        cases e <;> simp_all [event?, Event.isOrderly]

/-! ### Runs -/

/-- In orderly traffic from an empty store, the broker knows every binding in it. -/
theorem seen_run {store : Store} (hempty : ∀ nqn : String, ¬ store.Names nqn) {events : List Event}
    (horderly : ∀ e ∈ events, e.isOrderly = true) : ((start store).run events).system.Seen := by
  have hboth : ((start store).run events).system.Faithful ∧
      ((start store).run events).system.Seen := by
    refine run_induction (P := fun t => t.system.Faithful ∧ t.system.Seen)
      (fun e => e.isOrderly = true) (fun t e he h => ?_) horderly
      ⟨System.faithful_start store, System.seen_start hempty⟩
    refine ⟨faithful_step h.1 (isForeign_of_isOrderly he), ?_⟩
    exact system_step_induction h.2 fun _ hevent =>
      h.2.step h.1.named (isForeign_of_event? hevent (isForeign_of_isOrderly he))
        (ne_restart_of_event? hevent (ne_restart_of_isOrderly he))
  exact hboth.2

/-- In the course of events a device stays bound to its volume until it is given back. -/
theorem bound_run {t : Traffic} (h : t.system.Faithful) {events : List Event}
    (hown : ∀ e ∈ events, e.isForeign = false) (hlife : ∀ e ∈ events, e ≠ .beside .restart)
    {id volume : String} (hbound : t.allocation? id = some (.owned volume)) :
    (t.run events).allocation? id = some (.owned volume) ∨
      ∃ (before after : List Event) (d : Event), events = before ++ d :: after ∧
        (t.run before).Releases d id := by
  induction events generalizing t with
  | nil => exact .inl hbound
  | cons e events ih =>
    obtain ⟨he, hownrest⟩ := List.forall_mem_cons.mp hown
    obtain ⟨helife, hliferest⟩ := List.forall_mem_cons.mp hlife
    rcases bound_step h he helife hbound with hkept | hreleases
    · rcases ih (faithful_step h he) hownrest hliferest hkept with
        hlater | ⟨before, after, d, rfl, hreleases⟩
      · exact .inl hlater
      · exact .inr ⟨e :: before, after, d, rfl, hreleases⟩
    · exact .inr ⟨[], events, e, rfl, hreleases⟩

/-- In the course of events a device stays bound to its volume until a deletion frees it. -/
theorem owner_run {t : Traffic} (h : t.system.Faithful) {events : List Event}
    (horderly : ∀ e ∈ events, e.isOrderly = true) {id volume : String}
    (hbound : t.allocation? id = some (.owned volume)) :
    (t.run events).allocation? id = some (.owned volume) ∨
      ∃ (before after : List Event) (d : Event), events = before ++ d :: after ∧
        (t.run before).Frees d id := by
  refine (bound_run h (fun e he => isForeign_of_isOrderly (horderly e he))
    (fun e he => ne_restart_of_isOrderly (horderly e he)) hbound).imp_right ?_
  rintro ⟨before, after, d, rfl, hreleases⟩
  exact ⟨before, after, d, rfl, hreleases.frees (horderly d (by simp))⟩

/-- In the course of the events a creation has given the device out, and no deletion of it has
succeeded since. -/
def Granted (t : Traffic) (events : List Event) (id : String) : Prop :=
  ∃ (before after : List Event) (e : Event) (name : String), events = before ++ e :: after ∧
    (t.run before).Creates e name id ∧
    ∀ (mid rest : List Event) (d : Event), after = mid ++ d :: rest →
      ¬ (t.run (before ++ e :: mid)).Deletes d id

/-- After one more event, a device is granted that the event gives out, or that was granted before
and is not deleted by it. -/
theorem granted_append_singleton {t : Traffic} {events : List Event} {e : Event} {id : String} :
    t.Granted (events ++ [e]) id ↔
      (∃ name : String, (t.run events).Creates e name id) ∨
        (t.Granted events id ∧ ¬ (t.run events).Deletes e id) := by
  constructor
  · rintro ⟨before, after, c, name, heq, hcreates, hnone⟩
    -- The creation is the last event, or the last event comes after it and is no deletion.
    rcases List.eq_nil_or_concat after with rfl | ⟨after, x, rfl⟩
    · obtain ⟨rfl, hlast⟩ := List.append_inj' heq rfl
      obtain rfl : e = c := List.singleton_inj.mp hlast
      exact .inl ⟨name, hcreates⟩
    · rw [List.concat_eq_append, ← List.cons_append, ← List.append_assoc] at heq
      obtain ⟨rfl, hlast⟩ := List.append_inj' heq rfl
      obtain rfl : e = x := List.singleton_inj.mp hlast
      refine .inr ⟨⟨before, after, c, name, rfl, hcreates, fun mid rest d hsplit => ?_⟩, ?_⟩
      · exact hnone mid (rest ++ [e]) d (by rw [hsplit]; simp)
      · exact hnone after [] e (by simp)
  · rintro (⟨name, hcreates⟩ | ⟨⟨before, after, c, name, rfl, hcreates, hnone⟩, hlast⟩)
    · refine ⟨events, [], e, name, rfl, hcreates, fun mid rest d hsplit => ?_⟩
      simp at hsplit
    · refine ⟨before, after ++ [e], c, name, by simp, hcreates, fun mid rest d hsplit => ?_⟩
      rcases List.eq_nil_or_concat rest with rfl | ⟨rest, x, rfl⟩
      · obtain ⟨rfl, hd⟩ := List.append_inj' hsplit rfl
        obtain rfl : e = d := List.singleton_inj.mp hd
        exact hlast
      · rw [List.concat_eq_append, ← List.cons_append, ← List.append_assoc] at hsplit
        obtain ⟨rfl, -⟩ := List.append_inj' hsplit rfl
        exact hnone mid rest d rfl

/-- In a store that was empty at first, the devices that are bound are those that have been granted.
-/
theorem owned_run_iff_granted {store : Store} (hempty : ∀ nqn : String, ¬ store.Names nqn)
    {events : List Event} (horderly : ∀ e ∈ events, e.isOrderly = true) (id : String) :
    (∃ volume : String, ((start store).run events).allocation? id = some (.owned volume)) ↔
      (start store).Granted events id := by
  -- From the end of the run, because what is granted depends on what comes last.
  induction events using List.reverseRecOn with
  | nil =>
    constructor
    · rintro ⟨volume, hbound⟩
      simp [run, allocation?, start, System.start, Broker.start] at hbound
    · rintro ⟨before, after, e, name, heq, -⟩
      simp at heq
  | append_singleton events e ih =>
    have hbefore : ∀ d ∈ events, d.isOrderly = true := fun d hd =>
      horderly d (List.mem_append_left _ hd)
    have he : e.isOrderly = true := horderly e (by simp)
    have hfaithful : ((start store).run events).system.Faithful :=
      faithful_run fun d hd => isForeign_of_isOrderly (hbefore d hd)
    have hseen : ((start store).run events).system.Seen := seen_run hempty hbefore
    rw [granted_append_singleton, ← ih hbefore, run_append]
    show (∃ volume : String,
      (((start store).run events).step e).allocation? id = some (.owned volume)) ↔ _
    constructor
    · rintro ⟨volume, hbound⟩
      rcases owned_step hseen he hbound with hold | hcreates
      · exact .inr ⟨⟨volume, hold⟩, fun hdeletes => hdeletes.allocation?_step volume hbound⟩
      · exact .inl ⟨volume, hcreates⟩
    · rintro (⟨name, hcreates⟩ | ⟨⟨volume, hold⟩, hkept⟩)
      · exact ⟨name, hcreates.allocation?_step hfaithful.named⟩
      · rcases owner_step hfaithful he hold with hbound | hfrees
        · exact ⟨volume, hbound⟩
        · exact absurd hfrees.1 hkept

/-- The work of a creation is not that of a deletion. -/
theorem Creates.not_deletes {t : Traffic} {e : Event} {name id id' : String}
    (h : t.Creates e name id) : ¬ t.Deletes e id' := by
  obtain ⟨request, -, -, -, i, around, op, rfl, hop, hrequest, -⟩ := h
  rintro ⟨i', around', op', he, hop', hrequest', -⟩
  obtain ⟨rfl, -⟩ := Event.advance.inj he
  obtain rfl : op = op' := Option.some.inj (hop ▸ hop')
  rw [hrequest] at hrequest'
  cases hrequest'

/-- Between two creations, of which the second gives the device of the first one to another volume
or another device to its volume, a deletion frees the device. -/
theorem freed_between {t : Traffic} (h : t.system.Faithful) {e₁ e₂ : Event} {between : List Event}
    (horderly : ∀ e ∈ e₁ :: (between ++ [e₂]), e.isOrderly = true)
    {name₁ name₂ id₁ id₂ : String} (hfirst : t.Creates e₁ name₁ id₁)
    (hsecond : ((t.step e₁).run between).Creates e₂ name₂ id₂)
    (hexclusive : (((t.step e₁).run between).step e₂).system.broker.catalog.Exclusive)
    (hchange : (name₁ ≠ name₂ ∧ id₁ = id₂) ∨ (name₁ = name₂ ∧ id₁ ≠ id₂)) :
    ∃ (mid rest : List Event) (d : Event), between = mid ++ d :: rest ∧
      ((t.step e₁).run mid).Frees d id₁ := by
  have he₁ : e₁.isOrderly = true := horderly e₁ List.mem_cons_self
  have he₂ : e₂.isOrderly = true := horderly e₂ (by simp)
  have hbetween : ∀ e ∈ between, e.isOrderly = true := fun e he => horderly e (by simp [he])
  have hafter : (t.step e₁).system.Faithful := faithful_step h (isForeign_of_isOrderly he₁)
  have hbefore : ((t.step e₁).run between).system.Faithful :=
    faithful_continues hafter fun e he => isForeign_of_isOrderly (hbetween e he)
  rcases owner_run hafter hbetween (hfirst.allocation?_step h.named) with hkept | hfreed
  · -- Were it not freed, it would still be bound to the first volume after the second creation.
    exfalso
    have hgiven := hsecond.allocation?_step hbefore.named
    rcases owner_step hbefore he₂ hkept with hstill | hfrees
    · rcases hchange with ⟨hname, rfl⟩ | ⟨rfl, hid⟩
      · rw [hstill] at hgiven
        exact hname (Allocation.owned.inj (Option.some.inj hgiven))
      · exact hid (hexclusive id₁ id₂ name₁ hstill hgiven)
    · exact hsecond.not_deletes hfrees.1
  · obtain ⟨mid, rest, d, hsplit, hfrees⟩ := hfreed
    exact ⟨mid, rest, d, hsplit, hfrees⟩

/-- In any traffic no two devices of the catalog have one owner. -/
theorem exclusive_run (store : Store) (events : List Event) :
    ((start store).run events).system.broker.catalog.Exclusive := by
  rw [system_run]
  exact (System.sound_run store _).exclusive

end Traffic

namespace Operation

/-- The work of a publication is a look at the device. -/
theorem step_publish {op : Operation} {id node : String} (around : Surroundings) (b : Broker)
    (hrequest : op.request = .publish id node) (hstage : op.stage = .working) :
    ∃ outcome : Outcome, (op.step around b).1 = .closing outcome ∧
      ((∃ answer : Answer, outcome = .ok answer) ↔
        ∃ volume : String, b.catalog.allocation? id = some (.owned volume)) := by
  rw [← Catalog.any_isOwned_iff]
  by_cases hbound : b.catalog[id]?.any (·.allocation.isOwned) = true
  · refine ⟨.ok (.published ∅), ?_, iff_of_true ⟨_, rfl⟩ hbound⟩
    simp [step, hstage, hrequest, work, Broker.device?, hbound]
  · refine ⟨.error (.notFound ("volume " ++ id ++ " not found or not allocated")), ?_,
      iff_of_false ?_ hbound⟩
    · simp [step, hstage, hrequest, work, Broker.device?, hbound]
    · rintro ⟨answer, hanswer⟩
      cases hanswer

/-- A publication that names a volume and a node and finds the lock of the volume free gets to its
work. -/
theorem step_publish_unlocked {op : Operation} {id node : String} (around : Surroundings)
    (b : Broker) (hrequest : op.request = .publish id node) (hid : id ≠ "") (hnode : node ≠ "") :
    (op.stage = .arrived → (op.step around b).1 = .locking) ∧
      (op.stage = .locking → b.locks.isLocked id = false → (op.step around b).1 = .working) := by
  constructor
  · intro hstage
    simp [step, hstage, hrequest, Request.fault?, afterArrival, hid, hnode]
  · intro hstage hfree
    simp [step, hstage, hrequest, Request.key, Broker.lock?, LockTable.tryAcquire, hfree]

end Operation

namespace Traffic

/-- In the life of one broker that is the only one to write to its store, whatever fails and however
the operations are interleaved: if a creation gives the device of an earlier one to another volume,
or another device to its volume, then a deletion has freed the device of the earlier one between the
two.  If the store was empty at first, a publication that names a volume and a node, and finds the
lock of the volume free, succeeds exactly if a creation has given out the volume and no deletion of
it has succeeded since. -/
theorem volumes_change_by_deletion (store : Store) (events : List Event)
    (horderly : ∀ e ∈ events, e.isOrderly = true) :
    (∀ (before between after : List Event) (e₁ e₂ : Event) (name₁ name₂ id₁ id₂ : String),
      events = before ++ e₁ :: (between ++ e₂ :: after) →
      ((start store).run before).Creates e₁ name₁ id₁ →
      ((start store).run (before ++ e₁ :: between)).Creates e₂ name₂ id₂ →
      (name₁ ≠ name₂ ∧ id₁ = id₂) ∨ (name₁ = name₂ ∧ id₁ ≠ id₂) →
      ∃ (mid rest : List Event) (d : Event), between = mid ++ d :: rest ∧
        ((start store).run (before ++ e₁ :: mid)).Frees d id₁) ∧
    ((∀ nqn : String, ¬ store.Names nqn) →
      ∀ (i : Nat) (op : Operation) (around : Surroundings) (id node : String),
        ((start store).run events).operations[i]? = some op → op.request = .publish id node →
        id ≠ "" → node ≠ "" →
        let b := ((start store).run events).system.broker
        (op.stage = .arrived → (op.step around b).1 = .locking) ∧
        (op.stage = .locking → b.locks.isLocked id = false → (op.step around b).1 = .working) ∧
        (op.stage = .working → ∃ outcome : Outcome, (op.step around b).1 = .closing outcome ∧
          ((∃ answer : Answer, outcome = .ok answer) ↔ (start store).Granted events id))) := by
  constructor
  · rintro before between after e₁ e₂ name₁ name₂ id₁ id₂ rfl hfirst hsecond hchange
    have hbefore : ((start store).run before).system.Faithful :=
      faithful_run fun e he => isForeign_of_isOrderly (horderly e (by simp [he]))
    have hexclusive : (((start store).run (before ++ e₁ :: between)).step
        e₂).system.broker.catalog.Exclusive := by
      have h := exclusive_run store ((before ++ e₁ :: between) ++ [e₂])
      rw [run_append] at h
      exact h
    simp only [run_append] at hsecond hexclusive ⊢
    refine freed_between hbefore (fun e he => horderly e ?_) hfirst hsecond hexclusive hchange
    simp only [List.mem_cons, List.mem_append, List.not_mem_nil, or_false] at he ⊢
    tauto
  · intro hempty i op around id node _ hrequest hid hnode b
    obtain ⟨harrived, hlocking⟩ := Operation.step_publish_unlocked around b hrequest hid hnode
    refine ⟨harrived, hlocking, fun hstage => ?_⟩
    obtain ⟨outcome, hclosing, hok⟩ := Operation.step_publish around b hrequest hstage
    exact ⟨outcome, hclosing, hok.trans (owned_run_iff_granted hempty horderly id)⟩

/-- Surroundings in which nothing fails and the fabric has these devices. -/
def fabricOf (nqns : List String) : Surroundings :=
  { fabric := fun _ => .ok (nqns.map fun nqn => ⟨nqn, .tcp, ["10.0.0.1:4420"]⟩) }

/-- A load, and the creation of `vol1` while the fabric has one device, up to its work. -/
def firstCreation : List Event :=
  [.beside .enterSync, .beside (.load 0 {}), .beside (.finishLoad 0),
    .arrive (.create ⟨"vol1", [some .mount], ∅⟩)] ++
    List.replicate 5 (.advance 0 (fabricOf ["nqn-b"]))

/-- The deletion of that device, and the creation of `vol1` once more, after the fabric has got a
second device, up to its work. -/
def secondCreation : List Event :=
  [.advance 0 (fabricOf []), .arrive (.delete "nqn-b")] ++
    List.replicate 4 (.advance 1 (fabricOf [])) ++
    [.arrive (.create ⟨"vol1", [some .mount], ∅⟩)] ++
    List.replicate 5 (.advance 2 (fabricOf ["nqn-a", "nqn-b"]))

/-- The creation of `vol2`, up to its work. -/
def thirdCreation : List Event :=
  .arrive (.create ⟨"vol2", [some .mount], ∅⟩) ::
    List.replicate 5 (.advance 3 (fabricOf ["nqn-a", "nqn-b"]))

/-- The publication of the device of `vol2`, up to its work. -/
def publication : List Event :=
  .arrive (.publish "nqn-b" "node-1") :: List.replicate 2 (.advance 4 (fabricOf []))

/-- The work of an operation while the fabric has nothing. -/
def workOf (i : Nat) : Event := .advance i (fabricOf [])

/-- The volume `vol1` goes from one device to another, and its first device goes to `vol2`. -/
def exchange : List Event :=
  firstCreation ++ workOf 0 ::
    (secondCreation ++ workOf 2 :: (thirdCreation ++ workOf 3 :: publication))

/-- In the exchange `nqn-b` is freed between its two owners, and it is granted in the end. -/
theorem exchange_frees_device :
    (∃ (mid rest : List Event) (d : Event), secondCreation = mid ++ d :: rest ∧
        ((start (.inMemory ∅)).run (firstCreation ++ workOf 0 :: mid)).Frees d "nqn-b") ∧
      (∃ (mid rest : List Event) (d : Event),
        secondCreation ++ workOf 2 :: thirdCreation = mid ++ d :: rest ∧
          ((start (.inMemory ∅)).run (firstCreation ++ workOf 0 :: mid)).Frees d "nqn-b") ∧
      (start (.inMemory ∅)).Granted exchange "nqn-b" := by
  have horderly : ∀ e ∈ exchange, e.isOrderly = true := by decide
  have hempty : ∀ nqn : String, ¬ (Store.inMemory ∅).Names nqn := fun _ =>
    Std.ExtTreeMap.not_mem_empty
  have hfirst : ((start (.inMemory ∅)).run firstCreation).Creates (workOf 0) "vol1" "nqn-b" :=
    ⟨_, ⟨"nqn-b", _⟩, rfl, rfl, 0, fabricOf [], _, rfl, rfl, rfl, rfl, rfl⟩
  have hsecond : ((start (.inMemory ∅)).run
      (firstCreation ++ workOf 0 :: secondCreation)).Creates (workOf 2) "vol1" "nqn-a" :=
    ⟨_, ⟨"nqn-a", _⟩, rfl, rfl, 2, fabricOf [], _, rfl, rfl, rfl, rfl, rfl⟩
  have hthird : ((start (.inMemory ∅)).run (firstCreation ++ workOf 0 ::
      (secondCreation ++ workOf 2 :: thirdCreation))).Creates (workOf 3) "vol2" "nqn-b" :=
    ⟨_, ⟨"nqn-b", _⟩, rfl, rfl, 3, fabricOf [], _, rfl, rfl, rfl, rfl, rfl⟩
  obtain ⟨hchange, hpublish⟩ := volumes_change_by_deletion (.inMemory ∅) exchange horderly
  refine ⟨?_, ?_, ?_⟩
  · exact hchange firstCreation secondCreation _ _ _ _ _ _ _ rfl hfirst hsecond
      (.inr ⟨rfl, by decide⟩)
  · exact hchange firstCreation (secondCreation ++ workOf 2 :: thirdCreation) publication
      _ _ _ _ _ _ rfl hfirst hthird (.inl ⟨by decide, rfl⟩)
  · obtain ⟨-, -, hworking⟩ := hpublish hempty 4 ⟨.publish "nqn-b" "node-1", .working⟩
      (fabricOf []) "nqn-b" "node-1" rfl rfl (by decide) (by decide)
    obtain ⟨outcome, hclosing, hok⟩ := hworking rfl
    exact hok.mp ⟨.published ∅, (Stage.closing.inj hclosing).symm⟩

end Traffic

end VolumeBroker
