import VolumeBroker.Proofs.FailedOperations
import VolumeBroker.Proofs.VolumeHistory

/-!
# Devices whose lock is held

A volume goes by the name of its device, and deletions, publications and unpublications of it take
the lock of that name.  A creation does not know the device yet and takes the lock of the name it
has been asked for.  So while somebody holds the lock of a device, the operations that work under it
are turned away, and creations are not: the theorem here says exactly which of them bind the device
or give it out all the same.
-/

set_option autoImplicit false

namespace VolumeBroker

namespace Operation

variable {around : Surroundings} {b : Broker} {op : Operation}

/-- Whether an operation gets past its acquire depends on its own key alone. -/
theorem step_of_locking (hstage : op.stage = .locking) (around : Surroundings) (b : Broker) :
    (op.step around b).1 =
      if b.locks.isLocked op.request.key then .ended (.error (.aborted op.request.key))
      else .working := by
  cases hlocked : b.locks.isLocked op.request.key with
  | true => rw [step_of_locked hstage hlocked, if_pos rfl]
  | false => simp [step, hstage, Broker.lock?, LockTable.tryAcquire, hlocked]

/-- No operation loads the snapshot itself: it waits for the task of the load. -/
theorem event?_ne_load {number : Nat} {faults : Faults} :
    op.event? around ≠ some (.load number faults) := by
  intro h
  cases causes_of_event? h

end Operation

namespace Traffic

/-- Somebody other than the operation `i` holds the key. -/
def HeldBeside (t : Traffic) (i : Nat) (key : String) : Prop :=
  (∃ (j : Nat) (other : Operation), j ≠ i ∧ t.operations[j]? = some other ∧
    other.holds key = true) ∨ key ∈ t.guards

/-- What somebody else holds is in the table. -/
theorem HeldBeside.isLocked {t : Traffic} (hexact : t.Exact) {i : Nat} {key : String}
    (h : t.HeldBeside i key) : t.isLocked key = true := by
  rw [hexact.isLocked_iff, mem_holders]
  rcases h with ⟨j, other, -, hj, hholds⟩ | hguard
  · exact .inl ⟨other, List.mem_of_getElem? hj, hholds⟩
  · exact .inr hguard

/-- What somebody else holds, the operation does not hold. -/
theorem HeldBeside.holds_eq_false {t : Traffic} (hexact : t.Exact) {i : Nat} {key : String}
    (h : t.HeldBeside i key) {op : Operation} (hop : t.operations[i]? = some op) :
    op.holds key = false := by
  by_contra hholds
  rw [Bool.not_eq_false] at hholds
  -- Without the operation one holder fewer is counted, and still there is one.
  let others := t.operations.set i { request := op.request }
  have hothers : others.countP (·.holds key) + 1 = t.operations.countP (·.holds key) := by
    have hset := countP_set_add (p := (·.holds key)) hop { request := op.request }
    rwa [hholds] at hset
  have hcount := hexact key
  have hle := Bool.toNat_le (t.isLocked key)
  rcases h with ⟨j, other, hne, hj, hother⟩ | hguard
  · have hstays : others[j]? = some other := by rw [List.getElem?_set_ne hne.symm, hj]
    have hpos : 0 < others.countP (·.holds key) :=
      List.countP_pos_iff.mpr ⟨other, List.mem_of_getElem? hstays, hother⟩
    omega
  · have hpos : 0 < t.guards.count key := List.count_pos_iff.mpr hguard
    omega

/-- A creation gives a device out exactly if, when it does its work, the device is the one that the
volume owns, or it is bound to the volume. -/
theorem creates_advance_iff {t : Traffic} (hnamed : t.system.broker.catalog.Named)
    (hexclusive : t.system.broker.catalog.Exclusive) {i : Nat} {op : Operation}
    (hop : t.operations[i]? = some op) {request : CreateRequest}
    (hrequest : op.request = .create request) (around : Surroundings) (id : String) :
    t.Creates (.advance i around) request.name id ↔ op.stage = .working ∧
      (t.allocation? id = some (.owned request.name) ∨
        t.system.Binds (.allocate around.faults request.name) id request.name) := by
  constructor
  · rintro ⟨request', volume, -, rfl, i', around', op', he, hop', hrequest', hstage, hdone⟩
    obtain ⟨rfl, rfl⟩ := Event.advance.inj he
    obtain rfl : op = op' := Option.some.inj (hop ▸ hop')
    obtain rfl : request = request' := Request.create.inj (hrequest ▸ hrequest')
    refine ⟨hstage, ?_⟩
    obtain ⟨d, hresult, rfl⟩ := (Operation.created_iff hrequest hstage).mp hdone
    rcases Broker.allocate_eq_ok_iff.mp hresult with howned | ⟨howned, hsave, first, hfirst, rfl⟩
    · exact .inl (Catalog.allocation?_of_ownedBy? hnamed howned)
    · exact .inr ⟨around.faults, first, rfl, hsave, howned, hfirst, rfl⟩
  · rintro ⟨hstage, hgiven⟩
    -- Either way the request for a device is met with this one.
    obtain ⟨d, hresult, hid⟩ : ∃ d : Device,
        (t.system.broker.allocate around.faults request.name).1 = .ok d ∧ d.nqn = id := by
      rcases hgiven with howned | ⟨faults, first, he, hsave, howned, hfirst, hid⟩
      · obtain ⟨d, hd, hid⟩ := Catalog.ownedBy?_of_allocation? hnamed hexclusive howned
        exact ⟨d, Broker.allocate_eq_ok_iff.mpr (.inl hd), hid⟩
      · obtain ⟨rfl, -⟩ := System.Event.allocate.inj he
        exact ⟨_, Broker.allocate_eq_ok_iff.mpr (.inr ⟨howned, hsave, first, hfirst, rfl⟩), hid⟩
    exact ⟨request, ⟨d.nqn, d.volumeContext⟩, rfl, hid, i, around, op, rfl, hop, hrequest, hstage,
      (Operation.created_iff hrequest hstage).mpr ⟨d, hresult, rfl⟩⟩

/-- A stage of an operation binds a device to a volume only as the work of a creation. -/
theorem owned_advance {t : Traffic} {i : Nat} {around : Surroundings} {id volume : String}
    (h : (t.step (.advance i around)).allocation? id = some (.owned volume)) :
    t.allocation? id = some (.owned volume) ∨ t.Creates (.advance i around) volume id := by
  rcases t.system_step_cases (.advance i around) with ⟨-, hsame⟩ | ⟨e, hevent, hsystem⟩
  · left
    rwa [allocation?, hsame] at h
  · rw [allocation?, hsystem] at h
    rcases System.owned_step_cases h with hbefore | hbinds | ⟨-, number, faults, rfl⟩
    · exact .inl hbefore
    · exact .inr (creates_of_binds hevent hbinds)
    · obtain ⟨op, -, hopevent⟩ := Option.bind_eq_some_iff.mp hevent
      exact absurd hopevent Operation.event?_ne_load

/-- In any run, let the lock of a device be held by an operation or by a guard, and take the next
stage of another operation.  If it works under the name of the device, it has not got past its
acquire, and there it is turned away and changes nothing.  A creation is turned away there exactly
if the name of its volume is held.  So a creation of a volume of another name, when it does its
work, gives the device out exactly if the volume owns it, or if it is the first one that can be
bound, the volume owns nothing and the record can be written; after its work it returns what it has
come to; and no other stage binds the device. -/
theorem locked_device_given_out_iff (store : Store) (events : List Event) (i : Nat)
    (op : Operation) (id : String) (hop : ((start store).run events).operations[i]? = some op)
    (hheld : ((start store).run events).HeldBeside i id) :
    let t := (start store).run events
    (op.request.key = id → op.holdsLock = false ∧ (op.stage = .locking → ∀ around : Surroundings,
      op.step around t.system.broker = (.ended (.error (.aborted id)), t.system.broker))) ∧
    (∀ (request : CreateRequest) (around : Surroundings), op.request = .create request →
      (op.stage = .locking → (op.step around t.system.broker).1 =
        if t.isLocked request.name then .ended (.error (.aborted request.name)) else .working) ∧
      (t.Creates (.advance i around) request.name id ↔ request.name ≠ id ∧ op.stage = .working ∧
        (t.allocation? id = some (.owned request.name) ∨
          t.system.Binds (.allocate around.faults request.name) id request.name)) ∧
      ∀ outcome : Outcome, op.stage = .closing outcome →
        request.name ≠ id ∧ (op.step around t.system.broker).1 = .ended outcome) ∧
    ∀ (around : Surroundings) (volume : String),
      (t.step (.advance i around)).allocation? id = some (.owned volume) →
      t.allocation? id = some (.owned volume) ∨ t.Creates (.advance i around) volume id := by
  intro t
  have hexact : t.Exact := exact_run store events
  have hsound : t.system.Sound := by
    rw [show t.system = _ from system_run _ _]
    exact System.sound_run store _
  have hlocked : t.isLocked id = true := hheld.isLocked hexact
  have hnot : op.holds id = false := hheld.holds_eq_false hexact hop
  have hwaits : op.request.key = id → op.holdsLock = false := by
    rintro rfl
    simpa [Operation.holds] using hnot
  -- A creation from its acquire to its end holds its own key, which nobody else holds.
  have hother (request : CreateRequest) (hrequest : op.request = .create request)
      (hholds : op.holdsLock = true) : request.name ≠ id := by
    rintro rfl
    rw [hwaits (by rw [hrequest]; rfl)] at hholds
    cases hholds
  refine ⟨fun hkey => ⟨hwaits hkey, fun hstage around => ?_⟩,
    fun request around hrequest => ⟨fun hstage => ?_, ?_, fun outcome hstage => ⟨?_, ?_⟩⟩,
    fun around volume h => owned_advance h⟩
  · subst hkey
    exact Operation.step_of_locked hstage hlocked
  · rw [Operation.step_of_locking hstage, hrequest]
    rfl
  · rw [creates_advance_iff hsound.named hsound.exclusive hop hrequest]
    constructor
    · rintro ⟨hstage, hgiven⟩
      exact ⟨hother request hrequest (by rw [Operation.holdsLock, hstage]), hstage, hgiven⟩
    · rintro ⟨-, hstage, hgiven⟩
      exact ⟨hstage, hgiven⟩
  · exact hother request hrequest (by rw [Operation.holdsLock, hstage])
  · simp only [Operation.step, hstage]

/-- The volume `vol1` has been created, the deletion of its device holds the lock, and `vol1` is
asked for once more, up to the work. -/
def creationDuringDeletion : List Event :=
  firstCreation ++ [workOf 0, workOf 0, .arrive (.delete "nqn-b"), workOf 1, workOf 1,
      .arrive (.create ⟨"vol1", [some .mount], ∅⟩)] ++
    List.replicate 5 (workOf 2)

/-- The creation gives out the device that is about to be freed, and then it is freed. -/
theorem device_given_out_during_deletion :
    let t := (start (.inMemory ∅)).run creationDuringDeletion
    t.operations[1]? = some ⟨.delete "nqn-b", .working⟩ ∧
      t.Creates (workOf 2) "vol1" "nqn-b" ∧
      ((t.step (workOf 2)).step (workOf 1)).allocation? "nqn-b" = some .free := by
  intro t
  have hdelete : t.operations[1]? = some ⟨.delete "nqn-b", .working⟩ := rfl
  have hcreate : t.operations[2]? = some ⟨.create ⟨"vol1", [some .mount], ∅⟩, .working⟩ := rfl
  have hheld : t.HeldBeside 2 "nqn-b" := .inl ⟨1, _, by decide, hdelete, by decide⟩
  obtain ⟨-, hcreation, -⟩ := locked_device_given_out_iff (.inMemory ∅) creationDuringDeletion 2 _
    "nqn-b" hcreate hheld
  obtain ⟨-, hgiven, -⟩ := hcreation _ (fabricOf []) rfl
  refine ⟨hdelete, hgiven.mpr ⟨by decide, rfl, .inl ?_⟩, ?_⟩
  · decide
  · decide

/-- A guard holds the lock of a device, and a creation binds the device and gives it out. -/
theorem guarded_device_given_out :
    let t := (start (.inMemory ∅)).run (.beside (.lock "nqn-b") :: firstCreation)
    "nqn-b" ∈ t.guards ∧ t.isLocked "nqn-b" = true ∧ t.Creates (workOf 0) "vol1" "nqn-b" ∧
      (t.step (workOf 0)).allocation? "nqn-b" = some (.owned "vol1") ∧
      (t.step (workOf 0)).isLocked "nqn-b" = true := by
  refine ⟨?_, ?_, ?_, ?_, ?_⟩
  · decide
  · decide
  · exact ⟨_, ⟨"nqn-b", _⟩, rfl, rfl, 0, fabricOf [], _, rfl, rfl, rfl, rfl, rfl⟩
  · decide
  · decide

end Traffic

end VolumeBroker
