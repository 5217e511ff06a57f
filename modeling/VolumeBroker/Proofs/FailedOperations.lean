import Mathlib.Data.List.Induction
import VolumeBroker.Proofs.DeviceLifecycle
import VolumeBroker.Proofs.LockDiscipline

/-!
# What a failed operation leaves behind

An operation that fails has not written to the store and has given its lock back.  If it was to
create a volume, it may have left two things in the catalog: the devices that its discovery has
reported, which are free, and what the snapshot says that was loaded while it waited.  Every other
operation leaves the catalog as it was.

`Traffic.Spares` says this of two states, and it is transitive, so it is shown of each event that is
part of the call and then holds of a call that nothing interrupts.  A stage spares what it should
because the one stage that writes is work that succeeds, and the outcome of work is not lost: an
operation that ends with an error cannot have got there by way of it.
-/

set_option autoImplicit false

namespace VolumeBroker

/-- What an operation that fails may make of the allocation of a device: it is what the snapshot
records, or else what it was, and if there is neither the device may have been added as free. -/
def Allocation.Spared (recorded before after : Option Allocation) : Prop :=
  after = recorded.or before ∨ (recorded.or before = none ∧ after = some .free)

/-- Two failures in a row spare what each of them spares; the later snapshot counts. -/
theorem Allocation.Spared.trans {first second a b c : Option Allocation} (h : Spared first a b)
    (h' : Spared second b c) : Spared (second.or first) a c := by
  unfold Spared at h h' ⊢
  cases second with
  | some x =>
    left
    simpa using h'
  | none =>
    rw [Option.none_or] at h' ⊢
    rcases h with rfl | ⟨hnone, rfl⟩
    · exact h'
    · right
      simpa [hnone] using h'

namespace Traffic

/-- The events that are part of the call of an operation: its stages, and what happens to the load
that it waits for. -/
def PartOfCall (t : Traffic) (i : Nat) : Event → Prop
  | .advance j _ => j = i
  | .beside (.load number _) | .beside (.finishLoad number) =>
    ∃ op : Operation, t.operations[i]? = some op ∧ op.stage = .awaiting number
  | _ => False

/-- All of the events are parts of the call. -/
def Uninterrupted (t : Traffic) (i : Nat) : List Event → Prop
  | [] => True
  | e :: events => t.PartOfCall i e ∧ (t.step e).Uninterrupted i events

/-- Each event in an uninterrupted call is a part of it. -/
theorem Uninterrupted.partOfCall {t : Traffic} {i : Nat} {mid rest : List Event} {e : Event}
    (h : t.Uninterrupted i (mid ++ e :: rest)) : (t.run mid).PartOfCall i e := by
  induction mid generalizing t with
  | nil => exact h.1
  | cons x mid ih => exact ih h.2

/-- What holds before an uninterrupted call and is kept by each of its parts holds after it. -/
theorem Uninterrupted.induction {t : Traffic} {i : Nat} {events : List Event}
    {P : List Event → Prop} (h : t.Uninterrupted i events) (hstart : P [])
    (hstep : ∀ (mid rest : List Event) (e : Event), events = mid ++ e :: rest →
      (t.run mid).PartOfCall i e → P mid → P (mid ++ [e])) : P events := by
  -- On how far the call has got; every step may use what is known of the whole call.
  have hprefix : ∀ mid rest : List Event, events = mid ++ rest → P mid := by
    intro mid
    induction mid using List.reverseRecOn with
    | nil => exact fun _ _ => hstart
    | append_singleton mid e ih =>
      intro rest hsplit
      have hsplit' : events = mid ++ e :: rest := by simp [hsplit]
      exact hstep mid rest e hsplit' (hsplit' ▸ h).partOfCall (ih (e :: rest) hsplit')
  exact hprefix events [] (List.append_nil events).symm

/-- The snapshot that an event lays over the catalog. -/
def applied? (t : Traffic) (e : Event) : Option Snapshot := (t.event? e).bind t.system.applied?

/-- Whether somebody other than the operation `i` holds a key. -/
def isLockedBeside (t : Traffic) (i : Nat) (key : String) : Bool :=
  t.isLocked key && !t.operations[i]?.any (·.holds key)

/-- The second state is the first one but for what an operation that fails may do, where `loaded` is
the snapshot that has been laid over the catalog, if one has. -/
structure Spares (t : Traffic) (i : Nat) (request : Request) (loaded : Option Snapshot)
    (u : Traffic) : Prop where
  store : u.system.broker.store = t.system.broker.store
  /-- Nobody else has lost or got a lock. -/
  locks : ∀ key : String, u.isLockedBeside i key = t.isLockedBeside i key
  /-- The catalog is as it was, unless a volume was to be created. -/
  catalog : (∀ r : CreateRequest, request ≠ .create r) →
    u.system.broker.catalog = t.system.broker.catalog
  /-- The snapshot is the one of the store. -/
  snapshot : ∀ s ∈ loaded, t.system.broker.store.load = .ok s ∧ s.Valid
  allocation : ∀ nqn : String, Allocation.Spared (loaded.bind (·[nqn]?))
    (t.system.broker.catalog.allocation? nqn) (u.system.broker.catalog.allocation? nqn)

/-- A state with the same store, catalog and foreign locks is spared. -/
theorem spares_of_eq {t u : Traffic} {i : Nat} {request : Request}
    (hstore : u.system.broker.store = t.system.broker.store)
    (hlocks : ∀ key : String, u.isLockedBeside i key = t.isLockedBeside i key)
    (hcatalog : u.system.broker.catalog = t.system.broker.catalog) : t.Spares i request none u where
  store := hstore
  locks := hlocks
  catalog _ := hcatalog
  snapshot := by simp
  allocation nqn := by
    left
    rw [hcatalog]
    rfl

/-- What has not changed is spared. -/
theorem Spares.refl (t : Traffic) (i : Nat) (request : Request) : t.Spares i request none t :=
  spares_of_eq rfl (fun _ => rfl) rfl

/-- What is spared twice in a row is spared. -/
theorem Spares.trans {t u v : Traffic} {i : Nat} {request : Request}
    {first second : Option Snapshot} (h : t.Spares i request first u)
    (h' : u.Spares i request second v) : t.Spares i request (second.or first) v where
  store := h'.store.trans h.store
  locks key := (h'.locks key).trans (h.locks key)
  catalog hrequest := (h'.catalog hrequest).trans (h.catalog hrequest)
  snapshot s hs := by
    rcases Option.or_eq_some_iff.mp hs with hsecond | ⟨-, hfirst⟩
    · exact h.store ▸ h'.snapshot s hsecond
    · exact h.snapshot s hfirst
  allocation nqn := by
    have hboth := (h.allocation nqn).trans (h'.allocation nqn)
    cases second with
    | none => exact hboth
    | some s' =>
      cases first with
      | none => simpa using hboth
      | some s =>
        -- Nothing has been written between the two, so both are the same snapshot.
        have hfirst := (h.snapshot s rfl).1
        have hsecond := (h'.snapshot s' rfl).1
        rw [h.store, hfirst] at hsecond
        obtain rfl : s = s' := Except.ok.inj hsecond
        simpa using hboth

/-! ## The events of a call -/

/-- A key that an operation holds is in the table. -/
theorem Exact.isLocked_of_holds {t : Traffic} (h : t.Exact) {i : Nat} {op : Operation}
    (hop : t.operations[i]? = some op) {key : String} (hholds : op.holds key = true) :
    t.isLocked key = true := by
  rw [h.isLocked_iff, mem_holders]
  exact .inl ⟨op, List.mem_of_getElem? hop, hholds⟩

/-- If a key comes into the table and goes out of it only with the operation's own hold, then
whether somebody else holds it does not change. -/
theorem beside_eq_of_add_eq {before after held held' : Bool}
    (hcount : after.toNat + held.toNat = before.toNat + held'.toNat)
    (hheld : held = true → before = true) (hheld' : held' = true → after = true) :
    (after && !held') = (before && !held) := by
  cases held <;> cases held' <;> cases before <;> cases after <;> simp_all

/-- A stage of an operation takes no lock from others, and gives none to them. -/
theorem Exact.isLockedBeside_advance {t : Traffic} (h : t.Exact) {i : Nat} {op : Operation}
    (hop : t.operations[i]? = some op) (around : Surroundings) (key : String) :
    (t.step (.advance i around)).isLockedBeside i key = t.isLockedBeside i key := by
  have hnext := operations_step_advance hop around
  have hbefore : op.holds key = true → t.isLocked key = true := h.isLocked_of_holds hop
  have hafter : (op.next around t.system.broker).holds key = true →
      (t.step (.advance i around)).isLocked key = true :=
    (h.step (.advance i around)).isLocked_of_holds hnext
  have hlocks := op.isLocked_step around hbefore
  rw [← broker_step_advance hop around] at hlocks
  rw [isLockedBeside, isLockedBeside, hop, hnext, Option.any_some, Option.any_some]
  exact beside_eq_of_add_eq hlocks hbefore hafter

/-- A stage of an operation that does not succeed spares the state. -/
theorem spares_advance {t : Traffic} (hexact : t.Exact) {i : Nat} {op : Operation}
    (hop : t.operations[i]? = some op) (hregular : op.Regular) {around : Surroundings}
    (hfails : ∀ answer : Answer,
      (op.next around t.system.broker).outcome? ≠ some (.ok answer)) :
    t.Spares i op.request none (t.step (.advance i around)) := by
  have hlocks := hexact.isLockedBeside_advance hop around
  have hbroker := broker_step_advance hop around
  rcases op.step_effect around t.system.broker with
    ⟨hstore, hcatalog⟩ | ⟨found, hmerging, hstore, hcatalog⟩ | ⟨-, answer, hanswer⟩
  · rw [← hbroker] at hstore hcatalog
    exact spares_of_eq hstore hlocks hcatalog
  · -- Of the devices that a discovery reports, those that are not known are added as free.
    rw [← hbroker] at hstore hcatalog
    obtain ⟨request, hcreate⟩ := hregular.create_of_merging hmerging
    refine ⟨hstore, hlocks, fun hother => absurd hcreate (hother request), by simp, fun nqn => ?_⟩
    rw [hcatalog, Catalog.allocation?_merge, Option.bind_none, Allocation.Spared, Option.none_or]
    cases t.system.broker.catalog.allocation? nqn with
    | some a => exact .inl rfl
    | none =>
      rw [Option.none_or]
      split
      · exact .inr ⟨rfl, rfl⟩
      · exact .inl rfl
  · -- Work that succeeds settles the outcome.
    refine absurd ?_ (hfails answer)
    simp only [Operation.outcome?, Operation.next, hanswer]

/-- Events that leave the locks alone leave those of others alone. -/
theorem isLockedBeside_step_beside (t : Traffic) {e : System.Event} (h : e.touchesLocks = false)
    (i : Nat) (key : String) :
    (t.step (.beside e)).isLockedBeside i key = t.isLockedBeside i key := by
  have hlocks := t.system.locks_step h
  cases e with
  | lock _ | unlock _ | restart => cases h
  | _ =>
    exact congrArg (fun locks : LockTable => locks.isLocked key &&
      !t.operations[i]?.any (·.holds key)) hlocks

/-- The load that a creation waits for spares the state, but for the snapshot that it lays over the
catalog. -/
theorem spares_load (t : Traffic) (i : Nat) (request : CreateRequest) (number : Nat)
    (faults : Faults) :
    t.Spares i (.create request) (t.applied? (.beside (.load number faults)))
      (t.step (.beside (.load number faults))) := by
  have hsystem : (t.step (.beside (.load number faults))).system =
      t.system.step (.load number faults) := rfl
  have happlied : t.applied? (.beside (.load number faults)) =
      t.system.applied? (.load number faults) := rfl
  have hlocks := t.isLockedBeside_step_beside (e := .load number faults) rfl i
  rw [happlied]
  cases hload : t.system.applied? (.load number faults) with
  | none =>
    have hbroker := System.broker_step_load_of_applied?_eq_none hload
    rw [← hsystem] at hbroker
    exact spares_of_eq (congrArg (·.store) hbroker) hlocks (congrArg (·.catalog) hbroker)
  | some snapshot =>
    obtain ⟨_, _, -, hread, hvalid, hstep⟩ := System.step_of_applied? hload
    rw [← hsystem] at hstep
    refine ⟨congrArg (·.broker.store) hstep, hlocks, fun hother => absurd rfl (hother request), ?_,
      fun nqn => .inl ?_⟩
    · rintro s ⟨⟩
      exact ⟨hread, hvalid⟩
    · rw [hstep]
      exact Catalog.allocation?_overlay _ _ _

/-- The end of the load spares the state. -/
theorem spares_finishLoad (t : Traffic) (i : Nat) (request : Request) (number : Nat) :
    t.Spares i request none (t.step (.beside (.finishLoad number))) := by
  have hlocks := t.isLockedBeside_step_beside (e := .finishLoad number) rfl i
  have hbroker : (t.system.step (.finishLoad number)).broker.store = t.system.broker.store ∧
      (t.system.step (.finishLoad number)).broker.catalog = t.system.broker.catalog := by
    simp only [System.step]
    split
    · exact ⟨rfl, rfl⟩
    · split <;> exact ⟨rfl, rfl⟩
  exact spares_of_eq hbroker.1 hlocks hbroker.2

/-- No stage of an operation applies a snapshot. -/
theorem applied?_advance (t : Traffic) (i : Nat) (around : Surroundings) :
    t.applied? (.advance i around) = none := by
  rw [applied?, Option.bind_eq_none_iff]
  intro e hevent
  obtain ⟨⟨request, stage⟩, -, hop⟩ := Option.bind_eq_some_iff.mp hevent
  cases stage with
  | arrived | discovering | ended _ => cases hop
  | syncing | awaiting _ | merging _ | locking | closing _ =>
    cases hop
    rfl
  | working =>
    cases request <;> cases hop <;> rfl

/-- A part of a call that does not succeed spares the state. -/
theorem spares_of_partOfCall {t : Traffic} (hexact : t.Exact) {i : Nat} {op : Operation}
    (hop : t.operations[i]? = some op) (hregular : op.Regular) {e : Event}
    (hpart : t.PartOfCall i e) (hfails : ∀ (later : Operation) (answer : Answer),
      (t.step e).operations[i]? = some later → later.outcome? ≠ some (.ok answer)) :
    t.Spares i op.request (t.applied? e) (t.step e) := by
  cases e with
  | arrive request => exact hpart.elim
  | advance j around =>
    obtain rfl : j = i := hpart
    rw [applied?_advance]
    exact spares_advance hexact hop hregular fun answer =>
      hfails _ answer (operations_step_advance hop around)
  | beside e =>
    cases e with
    | load number faults =>
      -- Only a creation waits for a load.
      obtain ⟨waiting, hwaiting, hstage⟩ := hpart
      obtain rfl : op = waiting := Option.some.inj (hop.symm.trans hwaiting)
      simp only [Operation.Regular, hstage] at hregular
      obtain ⟨-, request, hcreate⟩ := hregular
      rw [hcreate]
      exact t.spares_load i request number faults
    | finishLoad number => exact t.spares_finishLoad i op.request number
    | _ => exact hpart.elim

/-- A part of a call whose request is not in order does nothing and calls nobody. -/
theorem idle_of_partOfCall {t : Traffic} {i : Nat} {op : Operation}
    (hop : t.operations[i]? = some op) (hregular : op.Regular) {e : Event}
    (hpart : t.PartOfCall i e) {text : String}
    (hfault : op.request.fault? = some (.invalidArgument text)) :
    (∃ around : Surroundings, e = .advance i around) ∧ (t.step e).system = t.system ∧
      op.calls? t.system.broker = none := by
  have hnever : ∀ number : Nat, op.stage ≠ .awaiting number := by
    intro number hstage
    simp [Operation.Regular, hstage, hfault] at hregular
  cases e with
  | arrive request => exact hpart.elim
  | advance j around =>
    obtain rfl : j = i := hpart
    obtain ⟨hbroker, hcalls⟩ := hregular.idle_of_faulty around hfault
    refine ⟨⟨around, rfl⟩, ?_, hcalls⟩
    simp only [step, hop, hbroker]
  | beside e =>
    cases e with
    | load number faults | finishLoad number =>
      obtain ⟨waiting, hwaiting, hstage⟩ := hpart
      obtain rfl : op = waiting := Option.some.inj (hop.symm.trans hwaiting)
      exact absurd hstage (hnever number)
    | _ => exact hpart.elim

/-- A device that is bound to a volume was so before, or the snapshot says so. -/
theorem Spares.owned {t u : Traffic} {i : Nat} {request : Request} {loaded : Option Snapshot}
    (h : t.Spares i request loaded u) {nqn volume : String}
    (howned : u.system.broker.catalog.allocation? nqn = some (.owned volume)) :
    t.system.broker.catalog.allocation? nqn = some (.owned volume) ∨
      ∃ s ∈ loaded, s[nqn]? = some (.owned volume) := by
  rcases h.allocation nqn with hsame | ⟨-, hfree⟩
  · rw [hsame, Option.or_eq_some_iff] at howned
    rcases howned with hrecorded | ⟨-, hbefore⟩
    · right
      exact Option.bind_eq_some_iff.mp hrecorded
    · exact .inl hbefore
  · rw [hfree] at howned
    cases howned

/-! ## The whole call -/

/-- In a run, a request that has just arrived comes to end with an error. -/
structure FailedCall (t : Traffic) (i : Nat) (request : Request) (error : VolumeError)
    (events : List Event) : Prop where
  reachable : ∃ (store : Store) (before : List Event), t = (start store).run before
  arrived : t.operations[i]? = some { request }
  life : ∀ e ∈ events, e ≠ .beside .restart
  failed : ∃ op : Operation, (t.run events).operations[i]? = some op ∧
    op.stage = .ended (.error error)

namespace FailedCall

variable {t : Traffic} {i : Nat} {request : Request} {error : VolumeError}
  {events mid rest : List Event}

/-- Within the call the table has the keys of the holders. -/
theorem exact (h : t.FailedCall i request error events) (mid : List Event) : (t.run mid).Exact := by
  obtain ⟨store, before, rfl⟩ := h.reachable
  rw [← run_append]
  exact exact_run store _

/-- Within the call the stages tell of the requests. -/
theorem regular (h : t.FailedCall i request error events) (mid : List Event) :
    ∀ op ∈ (t.run mid).operations, op.Regular := by
  obtain ⟨store, before, rfl⟩ := h.reachable
  rw [← run_append]
  exact regular_run

/-- On its way the operation keeps its request, and has no other outcome than the error. -/
theorem operation (h : t.FailedCall i request error events) (hsplit : events = mid ++ rest) :
    ∃ op : Operation, (t.run mid).operations[i]? = some op ∧ op.request = request ∧
      ∀ outcome : Outcome, op.outcome? = some outcome → outcome = .error error := by
  have hlife := h.life
  rw [hsplit, List.forall_mem_append] at hlife
  obtain ⟨op, hop, hrequest, -⟩ := operation_run (P := fun _ => True) (fun _ _ _ _ => trivial)
    h.arrived trivial hlife.1
  refine ⟨op, hop, hrequest, fun outcome houtcome => ?_⟩
  obtain ⟨later, hlater, -, hkept⟩ := operation_run
    (P := fun later => later.outcome? = some outcome)
    (fun _ _ _ h => Operation.outcome?_next h) hop houtcome hlife.2
  obtain ⟨final, hfinal, hended⟩ := h.failed
  rw [hsplit, run_append] at hfinal
  obtain rfl : later = final := Option.some.inj (hlater.symm.trans hfinal)
  simp only [Operation.outcome?, hended, Option.some.injEq] at hkept
  exact hkept.symm

/-- A call that fails for its request had a request that is not in order. -/
theorem fault? {text : String} (h : t.FailedCall i request (.invalidArgument text) events) :
    request.fault? = some (.invalidArgument text) := by
  obtain ⟨final, hfinal, hended⟩ := h.failed
  obtain ⟨op, hop, hrequest, -⟩ := h.operation (List.append_nil events).symm
  obtain rfl : op = final := Option.some.inj (hop.symm.trans hfinal)
  rw [← hrequest]
  exact (h.regular events op (List.mem_of_getElem? hop)).fault?_of_ended hended

/-- Each part of the call spares the state. -/
theorem spares_step (h : t.FailedCall i request error events) {e : Event}
    (hsplit : events = mid ++ e :: rest) (hpart : (t.run mid).PartOfCall i e) :
    (t.run mid).Spares i request ((t.run mid).applied? e) ((t.run mid).step e) := by
  obtain ⟨op, hop, hrequest, -⟩ := h.operation hsplit
  have hregular := h.regular mid op (List.mem_of_getElem? hop)
  have hsplit' : events = (mid ++ [e]) ++ rest := by simp [hsplit]
  obtain ⟨next, hnext, -, houtcome⟩ := h.operation hsplit'
  rw [run_append] at hnext
  rw [← hrequest]
  refine spares_of_partOfCall (h.exact mid) hop hregular hpart fun later answer hlater hok => ?_
  obtain rfl : next = later := Option.some.inj (hnext.symm.trans hlater)
  have hne : (.ok answer : Outcome) = .error error := houtcome _ hok
  cases hne

/-- Each part of a call that fails for its request does nothing and calls nobody. -/
theorem idle_step {text : String} (h : t.FailedCall i request (.invalidArgument text) events)
    {e : Event} (hsplit : events = mid ++ e :: rest) (hpart : (t.run mid).PartOfCall i e) :
    (∃ around : Surroundings, e = .advance i around) ∧
      ((t.run mid).step e).system = (t.run mid).system ∧
      ∀ op : Operation, (t.run mid).operations[i]? = some op →
        op.calls? (t.run mid).system.broker = none := by
  obtain ⟨op, hop, hrequest, -⟩ := h.operation hsplit
  have hregular := h.regular mid op (List.mem_of_getElem? hop)
  obtain ⟨hstage, hsystem, hcalls⟩ := idle_of_partOfCall hop hregular hpart (hrequest ▸ h.fault?)
  refine ⟨hstage, hsystem, fun other hother => ?_⟩
  obtain rfl : op = other := Option.some.inj (hop.symm.trans hother)
  exact hcalls

/-- The whole call spares the state, but for the snapshot that one of its parts has laid over the
catalog. -/
theorem spares_run (h : t.FailedCall i request error events)
    (hwhole : t.Uninterrupted i events) :
    ∃ loaded : Option Snapshot,
      (∀ s ∈ loaded, ∃ (mid rest : List Event) (e : Event), events = mid ++ e :: rest ∧
        (t.run mid).applied? e = some s) ∧
      t.Spares i request loaded (t.run events) := by
  refine hwhole.induction (P := fun done => ∃ loaded : Option Snapshot,
    (∀ s ∈ loaded, ∃ (mid rest : List Event) (e : Event), events = mid ++ e :: rest ∧
      (t.run mid).applied? e = some s) ∧ t.Spares i request loaded (t.run done))
    ⟨none, by simp, .refl t i request⟩ fun mid rest e hsplit hpart hbefore => ?_
  obtain ⟨loaded, hloaded, hspares⟩ := hbefore
  have hnext := h.spares_step hsplit hpart
  refine ⟨((t.run mid).applied? e).or loaded, fun s hs => ?_, ?_⟩
  · rcases Option.or_eq_some_iff.mp hs with happlied | ⟨-, hearlier⟩
    · exact ⟨mid, rest, e, hsplit, happlied⟩
    · exact hloaded s hearlier
  · rw [run_append]
    exact hspares.trans hnext

/-- A whole call that fails for its request leaves everything as it was. -/
theorem system_run_eq {text : String} (h : t.FailedCall i request (.invalidArgument text) events)
    (hwhole : t.Uninterrupted i events) : (t.run events).system = t.system := by
  refine hwhole.induction (P := fun done => (t.run done).system = t.system) rfl
    fun mid rest e hsplit hpart hbefore => ?_
  rw [run_append]
  exact (h.idle_step hsplit hpart).2.1.trans hbefore

/-- After the call everybody has the locks that they had before it. -/
theorem isLocked_run (h : t.FailedCall i request error events) {loaded : Option Snapshot}
    (hspares : t.Spares i request loaded (t.run events)) (key : String) :
    (t.run events).isLocked key = t.isLocked key := by
  -- Neither before its first stage nor after its last one does the operation hold a lock itself.
  obtain ⟨final, hfinal, hended⟩ := h.failed
  have hafter : (t.run events).isLockedBeside i key = (t.run events).isLocked key := by
    simp [isLockedBeside, hfinal, holds_of_ended ⟨_, hended⟩ key]
  have hbefore : t.isLockedBeside i key = t.isLocked key := by
    simp [isLockedBeside, h.arrived, Operation.holds, Operation.holdsLock]
  rw [← hafter, hspares.locks key, hbefore]

end FailedCall

/-- Let a request arrive in any state that can be reached, and end with an error, whatever happens
in between.  Every event that is part of the call spares what it should, and if the request was not
in order, then it is no load but a stage of the operation, which does nothing and calls nobody.  If
nothing comes between the events of the call, the same holds of the call as a whole: the store and
the locks are as they were, the catalog is too unless a volume was to be created, and no device has
got an owner but from the snapshot that was loaded in the call. -/
theorem failed_call_spares {t : Traffic} {i : Nat} {request : Request} {error : VolumeError}
    {events : List Event} (h : t.FailedCall i request error events) :
    (∀ (mid rest : List Event) (e : Event), events = mid ++ e :: rest → (t.run mid).PartOfCall i e →
      (t.run mid).Spares i request ((t.run mid).applied? e) ((t.run mid).step e) ∧
      ∀ text : String, error = .invalidArgument text →
        (∃ around : Surroundings, e = .advance i around) ∧
        ((t.run mid).step e).system = (t.run mid).system ∧
        ∀ op : Operation, (t.run mid).operations[i]? = some op →
          op.calls? (t.run mid).system.broker = none) ∧
    (t.Uninterrupted i events →
      ∃ loaded : Option Snapshot,
        (∀ s ∈ loaded, ∃ (mid rest : List Event) (e : Event), events = mid ++ e :: rest ∧
          (t.run mid).applied? e = some s) ∧
        t.Spares i request loaded (t.run events) ∧
        (∀ key : String, (t.run events).isLocked key = t.isLocked key) ∧
        (∀ nqn volume : String,
          (t.run events).system.broker.catalog.allocation? nqn = some (.owned volume) →
          t.system.broker.catalog.allocation? nqn = some (.owned volume) ∨
            ∃ s ∈ loaded, s[nqn]? = some (.owned volume)) ∧
        ∀ text : String, error = .invalidArgument text → (t.run events).system = t.system) := by
  refine ⟨fun mid rest e hsplit hpart => ⟨h.spares_step hsplit hpart, ?_⟩, fun hwhole => ?_⟩
  · rintro text rfl
    exact h.idle_step hsplit hpart
  · obtain ⟨loaded, hloaded, hspares⟩ := h.spares_run hwhole
    refine ⟨loaded, hloaded, hspares, h.isLocked_run hspares, fun nqn volume => hspares.owned, ?_⟩
    rintro text rfl
    exact h.system_run_eq hwhole

/-- Surroundings in which a store has no space for another record. -/
def fullStoreSurroundings : Surroundings :=
  { calmSurroundings with faults := { save := some (.backend "no space left") } }

/-- The creation of a volume loads the snapshot, discovers a device, and cannot bind it. -/
def unwrittenCreation : List Event :=
  List.replicate 2 (.advance 0 fullStoreSurroundings) ++
    [.beside (.load 0 {}), .beside (.finishLoad 0)] ++
    List.replicate 6 (.advance 0 fullStoreSurroundings)

/-- A store that records `nqn-b` as a device of `vol2`. -/
def otherDeviceBound : Store := .inMemory ((∅ : Snapshot).insert "nqn-b" (.owned "vol2"))

/-- A creation whose record cannot be written leaves the store and the locks as they were.  The
device it has discovered stays in the catalog as free, and the device of `vol2` is there from the
snapshot. -/
theorem unwritten_creation_spares :
    let t := (start otherDeviceBound).run [.arrive (.create ⟨"vol1", [some .mount], ∅⟩)]
    (t.run unwrittenCreation).system.broker.store = t.system.broker.store ∧
      (t.run unwrittenCreation).system.broker.catalog.allocation? "nqn-a" = some .free ∧
      (t.run unwrittenCreation).system.broker.catalog.allocation? "nqn-b" = some (.owned "vol2") ∧
      ∀ key : String, (t.run unwrittenCreation).isLocked key = t.isLocked key := by
  have hended : (((start otherDeviceBound).run
      [.arrive (.create ⟨"vol1", [some .mount], ∅⟩)]).run unwrittenCreation).operations[0]? =
      some ⟨.create ⟨"vol1", [some .mount], ∅⟩, .ended (.error (.resourceExhausted
        (RegistryError.persistence (.backend "no space left")).message))⟩ := rfl
  have hlife : ∀ e ∈ unwrittenCreation, e ≠ .beside .restart := by simp [unwrittenCreation]
  have hwhole : ((start otherDeviceBound).run
      [.arrive (.create ⟨"vol1", [some .mount], ∅⟩)]).Uninterrupted 0 unwrittenCreation :=
    ⟨rfl, rfl, ⟨⟨_, .awaiting 0⟩, rfl, rfl⟩, ⟨⟨_, .awaiting 0⟩, rfl, rfl⟩, rfl, rfl, rfl, rfl, rfl,
      rfl, trivial⟩
  obtain ⟨-, hspares⟩ := failed_call_spares ⟨⟨_, _, rfl⟩, rfl, hlife, _, hended, rfl⟩
  obtain ⟨_, -, hspares, hlocks, -⟩ := hspares hwhole
  exact ⟨hspares.store, by decide, by decide, hlocks⟩

end Traffic

end VolumeBroker
