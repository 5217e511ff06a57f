import VolumeBroker.Proofs.Traffic

/-!
# The course of an operation

An operation keeps its place in the list of operations and its request until the process ends, and
once its work is done its outcome is settled.  `Operation.step_moves` says once what a stage can do.
From it follow what a stage does to the store and to the catalog (`Operation.step_effect`) and what
it does to the locks (`Operation.step_changes_locks`).  Work that fails does nothing at all.

`Operation.Regular` is what the stage of an operation tells of its request: one that is not in order
is refused when it arrives, and only a creation goes by the snapshot and the fabric.
-/

set_option autoImplicit false

namespace VolumeBroker

namespace Broker

variable {b : Broker} {faults : Faults}

/-- A decision that is carried out leaves the locks alone. -/
theorem locks_carryOut {α : Type} (b : Broker) (faults : Faults) (decision : Decision α) :
    (b.carryOut faults decision).2.locks = b.locks := by
  rcases b.carryOut_changes faults decision with hsame | ⟨_, _, _, _, _, hbroker⟩
  · rw [hsame]
  · rw [hbroker]

/-- A decision that cannot be carried out changes nothing. -/
theorem carryOut_of_error {α : Type} {decision : Decision α} {e : RegistryError}
    (h : (b.carryOut faults decision).1 = .error e) : (b.carryOut faults decision).2 = b := by
  unfold carryOut at h ⊢
  cases decision with
  | settled answer => rfl
  | commit nqn a answer =>
    cases hsave : faults.save with
    | some e => rfl
    | none => simp [hsave] at h

/-- An allocation that fails changes nothing. -/
theorem allocate_of_error {volume : String} {e : RegistryError}
    (h : (b.allocate faults volume).1 = .error e) : (b.allocate faults volume).2 = b := by
  rw [allocate_snd]
  rcases b.carryOut_changes faults (b.catalog.allocate volume) with
    hsame | ⟨nqn, a, answer, hcommit, hsave, -⟩
  · exact hsame
  · obtain ⟨-, d, -, -, -, rfl⟩ := Catalog.allocate_eq_commit_iff.mp hcommit
    simp [allocate, carryOut, hcommit, hsave] at h

end Broker

namespace Operation

/-- How an operation comes out, once its work is done. -/
def outcome? (op : Operation) : Option Outcome :=
  match op.stage with
  | .closing outcome => some outcome
  | .ended outcome => some outcome
  | _ => none

/-- The operation after its next stage. -/
def next (around : Surroundings) (b : Broker) (op : Operation) : Operation :=
  { op with stage := (op.step around b).1 }

/-- The moves from one stage to the next, with what each does to the broker. -/
inductive Move (around : Surroundings) (b b' : Broker) (op op' : Operation) : Prop
  | refused {e : VolumeError} (hstage : op.stage = .arrived) (hfault : op.request.fault? = some e)
      (hnext : op'.stage = .ended (.error e)) (hbroker : b' = b)
  | accepted (hstage : op.stage = .arrived) (hfault : op.request.fault? = none)
      (hnext : op'.stage = afterArrival op.request) (hbroker : b' = b)
  | ready (hstage : op.stage = .syncing) (hnext : op'.stage = .discovering)
      (hbroker : b' = b.enterSync.2)
  | joined {load : Nat} (hstage : op.stage = .syncing) (hnext : op'.stage = .awaiting load)
      (hbroker : b' = b.enterSync.2)
  | waiting {load : Nat} (hstage : op.stage = .awaiting load) (hnext : op'.stage = .awaiting load)
      (hbroker : b' = b)
  | woken {load : Nat} {outcome : LoadOutcome} (hstage : op.stage = .awaiting load)
      (hnext : op'.stage = .discovering) (hbroker : b' = b.leaveSync load outcome)
  | found {found : List Descriptor} (hstage : op.stage = .discovering)
      (hfabric : around.fabric (parameters op.request) = .ok found)
      (hnext : op'.stage = .merging found) (hbroker : b' = b)
  | unfound {e : DiscoveryError} (hstage : op.stage = .discovering)
      (hnext : op'.stage = .ended (.error (.internal (RegistryError.discovery e).message)))
      (hbroker : b' = b)
  | merged {found : List Descriptor} (hstage : op.stage = .merging found)
      (hnext : op'.stage = .locking) (hbroker : b' = (b.mergeFound found).2)
  | turnedAway (hstage : op.stage = .locking)
      (hnext : op'.stage = .ended (.error (.aborted op.request.key))) (hbroker : b' = b)
  | locked {locks : LockTable} (hstage : op.stage = .locking)
      (hacquire : b.locks.tryAcquire op.request.key = some locks) (hnext : op'.stage = .working)
      (hbroker : b' = { b with locks })
  | worked (hstage : op.stage = .working)
      (hnext : op'.stage = .closing (work b around.faults op.request).1)
      (hbroker : b' = (work b around.faults op.request).2)
  | closed {outcome : Outcome} (hstage : op.stage = .closing outcome)
      (hnext : op'.stage = .ended outcome) (hbroker : b' = b.unlock op.request.key)
  | rested {outcome : Outcome} (hstage : op.stage = .ended outcome)
      (hnext : op'.stage = .ended outcome) (hbroker : b' = b)

/-- An operation makes no other moves. -/
theorem step_moves (around : Surroundings) (b : Broker) (op : Operation) :
    Move around b (op.step around b).2 op (op.next around b) := by
  obtain ⟨request, stage⟩ := op
  cases stage with
  | arrived =>
    cases hfault : request.fault? with
    | some e => exact .refused rfl hfault (by simp [next, step, hfault]) (by simp [step, hfault])
    | none => exact .accepted rfl hfault (by simp [next, step, hfault]) (by simp [step, hfault])
  | syncing =>
    simp only [next, step]
    split
    · next hentry =>
      obtain rfl := congrArg Prod.snd hentry
      exact .ready rfl rfl rfl
    · next hentry =>
      obtain rfl := congrArg Prod.snd hentry
      exact .joined rfl rfl rfl
  | awaiting load =>
    simp only [next, step]
    split
    · exact .waiting rfl rfl rfl
    · exact .woken rfl rfl rfl
  | discovering =>
    simp only [next, step]
    split
    · next found hfabric => exact .found rfl hfabric rfl rfl
    · exact .unfound rfl rfl rfl
  | merging found => exact .merged rfl rfl rfl
  | locking =>
    simp only [next, step, Broker.lock?]
    cases hacquire : b.locks.tryAcquire request.key with
    | none => exact .turnedAway rfl rfl rfl
    | some locks => exact .locked rfl hacquire rfl rfl
  | working => exact .worked rfl rfl rfl
  | closing outcome => exact .closed rfl rfl rfl
  | ended outcome => exact .rested rfl rfl rfl

variable {around : Surroundings} {b : Broker} {op : Operation}

/-- An operation that has come out in some way does not come out in another. -/
theorem outcome?_next {outcome : Outcome} (h : op.outcome? = some outcome) :
    (op.next around b).outcome? = some outcome := by
  obtain ⟨request, stage⟩ := op
  cases stage with
  | closing _ | ended _ => exact h
  | _ => cases h

/-- An operation that has ended stays so. -/
theorem stage_next_of_ended {outcome : Outcome} (h : op.stage = .ended outcome) :
    (op.next around b).stage = .ended outcome := by
  simp only [next, step, h]

/-- Work that fails changes nothing. -/
theorem work_of_error {faults : Faults} {request : Request} {e : VolumeError}
    (h : (work b faults request).1 = .error e) : (work b faults request).2 = b := by
  cases request with
  | create request =>
    rw [work_create] at h ⊢
    cases hresult : (b.allocate faults request.name).1 with
    | error e => exact Broker.allocate_of_error hresult
    | ok d =>
      rw [hresult] at h
      cases h
  | delete id =>
    rw [work_delete] at h ⊢
    cases hresult : (b.release faults id).1 with
    | error e => exact Broker.carryOut_of_error hresult
    | ok freed =>
      rw [hresult] at h
      cases h
  | publish id node => rw [work_publish_snd]
  | unpublish id node => rfl

/-- A stage leaves the store and the catalog alone, or it merges the findings of a discovery, or it
is work that succeeds. -/
theorem step_effect (around : Surroundings) (b : Broker) (op : Operation) :
    ((op.step around b).2.store = b.store ∧ (op.step around b).2.catalog = b.catalog) ∨
      (∃ found : List Descriptor, op.stage = .merging found ∧
        (op.step around b).2.store = b.store ∧
        (op.step around b).2.catalog = b.catalog.merge found) ∨
      (op.stage = .working ∧ ∃ answer : Answer, (op.step around b).1 = .closing (.ok answer)) := by
  cases op.step_moves around b with
  | refused _ _ _ hbroker | accepted _ _ _ hbroker | ready _ _ hbroker | joined _ _ hbroker
  | waiting _ _ hbroker | woken _ _ hbroker | found _ _ _ hbroker | unfound _ _ hbroker
  | turnedAway _ _ hbroker | locked _ _ _ hbroker | closed _ _ hbroker | rested _ _ hbroker =>
    left
    rw [hbroker]
    exact ⟨rfl, rfl⟩
  | merged hstage _ hbroker =>
    right; left
    rw [hbroker]
    exact ⟨_, hstage, rfl, rfl⟩
  | worked hstage hnext hbroker =>
    cases hwork : (work b around.faults op.request).1 with
    | ok answer => exact .inr (.inr ⟨hstage, answer, hwork ▸ hnext⟩)
    | error e =>
      left
      rw [hbroker, work_of_error hwork]
      exact ⟨rfl, rfl⟩

/-! ## Locks -/

/-- What a stage that makes `op'` of `op` can do to the locks. -/
inductive LockChange (b b' : Broker) (op op' : Operation) : Prop
  | kept (hlocks : b'.locks = b.locks) (hholds : op'.holdsLock = op.holdsLock)
  /-- The operation takes its lock, which nobody held. -/
  | taken (hstage : op.stage = .locking) (hfree : b.locks.isLocked op.request.key = false)
      (hlocks : ∀ key : String, b'.locks.isLocked key =
        (decide (key = op.request.key) || b.locks.isLocked key)) (hnext : op'.stage = .working)
  /-- The operation gives its lock back and ends. -/
  | returned {outcome : Outcome} (hstage : op.stage = .closing outcome)
      (hlocks : b'.locks = b.locks.release op.request.key) (hnext : op'.stage = .ended outcome)

/-- Work leaves the locks alone. -/
theorem locks_work (b : Broker) (faults : Faults) (request : Request) :
    (work b faults request).2.locks = b.locks := by
  cases request with
  | create request =>
    rw [work_create, Broker.allocate_snd]
    exact b.locks_carryOut faults _
  | delete id =>
    rw [work_delete]
    exact b.locks_carryOut faults _
  | publish id node => rw [work_publish_snd]
  | unpublish id node => rfl

/-- A stage does nothing else to the locks. -/
theorem step_changes_locks (around : Surroundings) (b : Broker) (op : Operation) :
    LockChange b (op.step around b).2 op (op.next around b) := by
  cases op.step_moves around b with
  | refused hstage _ hnext hbroker | found hstage _ hnext hbroker | ready hstage hnext hbroker
  | joined hstage hnext hbroker | waiting hstage hnext hbroker | woken hstage hnext hbroker
  | unfound hstage hnext hbroker | merged hstage hnext hbroker | turnedAway hstage hnext hbroker
  | rested hstage hnext hbroker =>
    refine .kept (congrArg (·.locks) hbroker) ?_
    simp only [holdsLock, hstage, hnext]
  | accepted hstage _ hnext hbroker =>
    refine .kept (by rw [hbroker]) ?_
    cases hrequest : op.request <;> simp only [holdsLock, hstage, hnext, hrequest, afterArrival]
  | locked hstage hacquire hnext hbroker =>
    have hfree : b.locks.isLocked op.request.key = false := by
      rw [← Bool.not_eq_true, ← LockTable.tryAcquire_eq_none_iff, hacquire]
      simp
    refine .taken hstage hfree ?_ hnext
    rw [hbroker]
    exact LockTable.isLocked_of_tryAcquire hacquire
  | worked hstage hnext hbroker =>
    refine .kept (by rw [hbroker, locks_work]) ?_
    simp only [holdsLock, hstage, hnext]
  | closed hstage hnext hbroker => exact .returned hstage (by rw [hbroker]; rfl) hnext

/-! ## Requests -/

/-- Work does not fail for an invalid request, nor for a lock: that has been settled before. -/
theorem work_ne {faults : Faults} {request : Request} {e : VolumeError}
    (h : (work b faults request).1 = .error e) :
    (∀ text : String, e ≠ .invalidArgument text) ∧ ∀ key : String, e ≠ .aborted key := by
  cases request with
  | create _ | delete _ | publish _ _ =>
    simp only [work] at h
    split at h
    · cases h
    · cases h
      simp
  | unpublish id node => cases h

/-- What the stage of an operation tells of its request: it is in order if the operation has got
past its arrival, and it is a creation if the snapshot or the fabric is asked. -/
def Regular (op : Operation) : Prop :=
  match op.stage with
  | .arrived => True
  | .syncing | .awaiting _ | .discovering | .merging _ =>
    op.request.fault? = none ∧ ∃ request : CreateRequest, op.request = .create request
  | .locking | .working => op.request.fault? = none
  | .closing outcome =>
    op.request.fault? = none ∧ ∀ text : String, outcome ≠ .error (.invalidArgument text)
  | .ended outcome =>
    (∃ e : VolumeError, op.request.fault? = some e ∧ outcome = .error e) ∨
      (op.request.fault? = none ∧ ∀ text : String, outcome ≠ .error (.invalidArgument text))

/-- What the stage tells of the request is so after the next stage as well. -/
theorem Regular.next (h : op.Regular) (around : Surroundings) (b : Broker) :
    (op.next around b).Regular := by
  have hrequest : (op.next around b).request = op.request := rfl
  unfold Regular at h ⊢
  rw [hrequest]
  -- The request never changes, so each move only carries on what its stage has known of it.
  cases op.step_moves around b with
  | refused _ hfault hnext _ =>
    rw [hnext]
    exact .inl ⟨_, hfault, rfl⟩
  | accepted _ hfault hnext _ =>
    rw [hnext]
    cases hkind : op.request with
    | create request =>
      rw [hkind] at hfault
      exact ⟨hfault, request, rfl⟩
    | delete _ | publish _ _ | unpublish _ _ =>
      rw [hkind] at hfault
      exact hfault
  | ready hstage hnext _ | joined hstage hnext _ | waiting hstage hnext _ | woken hstage hnext _
  | found hstage _ hnext _ | rested hstage hnext _ =>
    rw [hstage] at h
    rw [hnext]
    exact h
  | closed hstage hnext _ =>
    rw [hstage] at h
    rw [hnext]
    exact .inr h
  | unfound hstage hnext _ =>
    rw [hstage] at h
    rw [hnext]
    exact .inr ⟨h.1, by simp⟩
  | turnedAway hstage hnext _ =>
    rw [hstage] at h
    rw [hnext]
    exact .inr ⟨h, by simp⟩
  | merged hstage hnext _ =>
    rw [hstage] at h
    rw [hnext]
    exact h.1
  | locked hstage _ hnext _ =>
    rw [hstage] at h
    rw [hnext]
    exact h
  | worked hstage hnext _ =>
    rw [hstage] at h
    rw [hnext]
    refine ⟨h, fun text hwork => ?_⟩
    exact (work_ne hwork).1 text rfl

/-- An operation whose request is not in order changes nothing and calls nobody. -/
theorem Regular.idle_of_faulty (h : op.Regular) (around : Surroundings) {text : String}
    (hfault : op.request.fault? = some (.invalidArgument text)) :
    (op.step around b).2 = b ∧ op.calls? b = none := by
  obtain ⟨request, stage⟩ := op
  have hfault : request.fault? = some (.invalidArgument text) := hfault
  cases stage with
  -- It is refused when it arrives, so it is either still there or has ended.
  | arrived => simp [step, calls?, hfault]
  | ended outcome => exact ⟨rfl, rfl⟩
  | _ => simp [Regular, hfault] at h

/-- An operation that has ended with a complaint about its request had a request that is not in
order. -/
theorem Regular.fault?_of_ended (h : op.Regular) {text : String}
    (hended : op.stage = .ended (.error (.invalidArgument text))) :
    op.request.fault? = some (.invalidArgument text) := by
  simp only [Regular, hended] at h
  rcases h with ⟨e, hfault, he⟩ | ⟨-, hne⟩
  · rw [hfault, Except.error.inj he]
  · exact absurd rfl (hne text)

/-- Only a creation merges what a discovery has found. -/
theorem Regular.create_of_merging (h : op.Regular) {found : List Descriptor}
    (hstage : op.stage = .merging found) :
    ∃ request : CreateRequest, op.request = .create request := by
  simp only [Regular, hstage] at h
  exact h.2

end Operation

namespace Traffic

/-! ## The place of an operation -/

/-- A stage is the stage of the operation whose turn it is. -/
theorem operations_step_advance {t : Traffic} {i : Nat} {op : Operation}
    (hop : t.operations[i]? = some op) (around : Surroundings) :
    (t.step (.advance i around)).operations[i]? = some (op.next around t.system.broker) := by
  have hlt : i < t.operations.length := (List.getElem?_eq_some_iff.mp hop).1
  simp only [step, hop]
  exact List.getElem?_set_self hlt

/-- Whatever happens in the traffic, an operation stays as it is or takes its own next stage. -/
theorem operation_step {t : Traffic} {e : Event} {i : Nat} {op : Operation}
    (hop : t.operations[i]? = some op) (hlife : e ≠ .beside .restart) :
    (t.step e).operations[i]? = some op ∨
      ∃ around : Surroundings, e = .advance i around ∧
        (t.step e).operations[i]? = some (op.next around t.system.broker) := by
  cases e with
  | arrive request =>
    have hlt : i < t.operations.length := (List.getElem?_eq_some_iff.mp hop).1
    left
    simp only [step]
    rw [List.getElem?_append_left hlt, hop]
  | advance j around =>
    by_cases hj : j = i
    · subst hj
      exact .inr ⟨around, rfl, operations_step_advance hop around⟩
    · left
      simp only [step]
      split
      · exact hop
      · simpa [List.getElem?_set_ne hj] using hop
  | beside e =>
    left
    cases e with
    | restart => exact absurd rfl hlife
    | lock key | unlock key =>
      simp only [step, stepBeside]
      split <;> exact hop
    | _ => exact hop

/-- Where an operation comes from: it was there before, or it has just arrived, or it has been
carried on by a stage. -/
theorem operation_of_step {t : Traffic} {e : Event} {i : Nat} {op : Operation}
    (hop : (t.step e).operations[i]? = some op) :
    (e ≠ .beside .restart ∧ t.operations[i]? = some op) ∨ op.stage = .arrived ∨
      ∃ (around : Surroundings) (earlier : Operation), e = .advance i around ∧
        t.operations[i]? = some earlier ∧ op = earlier.next around t.system.broker := by
  cases e with
  | arrive request =>
    simp only [step, List.getElem?_append] at hop
    split at hop
    · exact .inl ⟨by simp, hop⟩
    · right; left
      obtain rfl : op = { request } := List.mem_singleton.mp (List.mem_of_getElem? hop)
      rfl
  | advance j around =>
    by_cases hj : j = i
    · subst hj
      cases hearlier : t.operations[j]? with
      | none =>
        simp [step, hearlier] at hop
      | some earlier =>
        rw [operations_step_advance hearlier around] at hop
        exact .inr (.inr ⟨around, earlier, rfl, rfl, (Option.some.inj hop).symm⟩)
    · left
      refine ⟨by simp, ?_⟩
      simp only [step] at hop
      split at hop
      · exact hop
      · rwa [List.getElem?_set_ne hj] at hop
  | beside e =>
    cases e with
    | restart => cases hop
    | lock key | unlock key =>
      left
      refine ⟨by simp, ?_⟩
      simp only [step, stepBeside] at hop
      split at hop <;> exact hop
    | _ => exact .inl ⟨by simp, hop⟩

/-- An operation keeps its place and its request while the process goes on, and whatever its stages
keep. -/
theorem operation_run {P : Operation → Prop}
    (hnext : ∀ (around : Surroundings) (b : Broker) (op : Operation), P op → P (op.next around b))
    {t : Traffic} {events : List Event} {i : Nat} {op : Operation}
    (hop : t.operations[i]? = some op) (h : P op) (hlife : ∀ e ∈ events, e ≠ .beside .restart) :
    ∃ later : Operation, (t.run events).operations[i]? = some later ∧
      later.request = op.request ∧ P later := by
  refine run_induction (P := fun u => ∃ later : Operation, u.operations[i]? = some later ∧
    later.request = op.request ∧ P later) (fun e => e ≠ .beside .restart)
    (fun u e he hu => ?_) hlife ⟨op, hop, rfl, h⟩
  obtain ⟨later, hlater, hrequest, hP⟩ := hu
  rcases operation_step hlater he with hsame | ⟨around, -, hstage⟩
  · exact ⟨later, hsame, hrequest, hP⟩
  · exact ⟨_, hstage, hrequest, hnext around u.system.broker later hP⟩

/-- What holds of an operation at its arrival, and is kept by its stages, holds of every operation.
-/
theorem forall_operations_step {P : Operation → Prop}
    (harrived : ∀ request : Request, P { request }) {t : Traffic} {e : Event}
    (hnext : ∀ (i : Nat) (around : Surroundings) (op : Operation), e = .advance i around → P op →
      P (op.next around t.system.broker))
    (h : ∀ op ∈ t.operations, P op) : ∀ op ∈ (t.step e).operations, P op := by
  intro op hop
  obtain ⟨i, hi⟩ := List.getElem?_of_mem hop
  rcases operation_of_step hi with ⟨-, hsame⟩ | hstage | ⟨around, earlier, rfl, hearlier, rfl⟩
  · exact h op (List.mem_of_getElem? hsame)
  · obtain ⟨request, _⟩ := op
    obtain rfl := hstage
    exact harrived request
  · exact hnext i around earlier rfl (h earlier (List.mem_of_getElem? hearlier))

/-- In any traffic the stage of an operation tells of its request. -/
theorem regular_run {store : Store} {events : List Event} :
    ∀ op ∈ ((start store).run events).operations, op.Regular :=
  run_induction (P := fun t => ∀ op ∈ t.operations, op.Regular) (fun _ => True)
    (fun _ _ _ h => forall_operations_step (fun _ => trivial)
      (fun _ around _ _ hop => hop.next around _) h)
    (fun _ _ => trivial) (by simp [start])

end Traffic

end VolumeBroker
