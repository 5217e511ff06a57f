import VolumeBroker.Proofs.LockedDevices

/-!
# The calls that an operation makes

An operation calls each of its collaborators at most once: it has the snapshot loaded, it asks the
fabric, and it has a record written, in this order.  What it may still call at a stage is a list
(`Stage.ahead`), and a stage takes what it calls off that list.

A load is a task of its own, which has one turn in the catalog; it is counted as a call of the
operation that begins it, and whoever joins it calls nobody.
-/

set_option autoImplicit false

namespace VolumeBroker

namespace System

/-- Once the snapshot has been loaded, it stays so while the process goes on. -/
theorem synced_step {s : System} (h : s.broker.sync.phase = .synced) {e : Event}
    (hlife : e ≠ .restart) : (s.step e).broker.sync.phase = .synced := by
  cases s.step_changes_sync e with
  | quiet hsync _ | turned _ hsync _ => rw [hsync, h]
  | begun hphase _ _ => rw [h] at hphase; cases hphase
  | finished _ _ _ _ _ =>
    simp only [step]
    split
    · exact h
    · split
      · simp only [Broker.finishLoad, Sync.finish, h]
      · exact h
  | settled hseen _ _ => simp [step, hseen, Broker.leaveSync, Sync.settle, h]
  | restarted _ => exact absurd rfl hlife

end System

/-- What an operation may still call that has reached the stage. -/
def Stage.ahead : Stage → List Collaborator
  | .arrived | .syncing => [.load, .discover, .save]
  | .awaiting _ | .discovering => [.discover, .save]
  | .merging _ | .locking | .working => [.save]
  | .closing _ | .ended _ => []

namespace Operation

/-- Whom the next stage calls.  Whoever asks for the snapshot first has it loaded. -/
def issues? (b : Broker) (op : Operation) : Option Collaborator :=
  match op.stage with
  | .syncing => if b.sync.phase = .notSynced then some .load else none
  | _ => op.calls? b

variable {around : Surroundings} {b : Broker} {op : Operation}

/-- The work of an operation calls the store to save, or nobody. -/
theorem issues?_of_working (hstage : op.stage = .working) (b : Broker) :
    op.issues? b = none ∨ op.issues? b = some .save := by
  simp only [issues?, calls?, hstage]
  cases op.request with
  | create request => cases (b.catalog.allocate request.name).isCommit <;> simp
  | delete id => cases (b.catalog.release id).isCommit <;> simp
  | publish _ _ | unpublish _ _ => exact .inl rfl

/-- Whom a stage calls is no longer ahead after it. -/
theorem ahead_next (around : Surroundings) (b : Broker) (op : Operation) :
    ((op.issues? b).toList ++ (op.next around b).stage.ahead).Sublist op.stage.ahead := by
  cases op.step_moves around b with
  | refused hstage _ hnext _ | waiting hstage hnext _ | woken hstage hnext _
  | found hstage _ hnext _ | unfound hstage hnext _ | merged hstage hnext _
  | turnedAway hstage hnext _ | locked hstage _ hnext _ | closed hstage hnext _
  | rested hstage hnext _ =>
    simp [issues?, calls?, hstage, hnext, Stage.ahead]
  | accepted hstage _ hnext _ =>
    cases hrequest : op.request <;>
      simp [issues?, calls?, hstage, hnext, hrequest, afterArrival, Stage.ahead]
  | ready hstage hnext _ | joined hstage hnext _ =>
    simp only [issues?, hstage, hnext, Stage.ahead]
    split <;> simp
  | worked hstage hnext _ =>
    rw [hnext, hstage]
    rcases issues?_of_working hstage b with hnone | hsave
    · simp [hnone, Stage.ahead]
    · simp [hsave, Stage.ahead]

/-- A record is written in the work of an operation, and not but for a decision that asks for it. -/
theorem step_of_issues?_ne_save (h : op.issues? b ≠ some .save) (around : Surroundings) :
    (op.step around b).2.store = b.store := by
  have hdecided : ∀ {α : Type} (decision : Decision α), decision.isCommit = false →
      (b.carryOut around.faults decision).2.store = b.store := by
    intro α decision hsettled
    cases decision with
    | settled answer => rfl
    | commit nqn a answer => cases hsettled
  rcases op.step_effect around b with ⟨hstore, -⟩ | ⟨_, -, hstore, -⟩ | ⟨hstage, -⟩
  · exact hstore
  · exact hstore
  · obtain ⟨request, _⟩ := op
    obtain rfl := hstage
    show (work b around.faults request).2.store = b.store
    cases request with
    | create request =>
      rw [work_create, Broker.allocate_snd]
      refine hdecided _ ?_
      simpa [issues?, calls?] using h
    | delete id =>
      rw [work_delete]
      refine hdecided _ ?_
      simpa [issues?, calls?] using h
    | publish id node => rw [work_publish_snd]
    | unpublish id node => rfl

/-- Only an operation that is about to synchronise asks for the snapshot. -/
theorem stage_of_event?_enterSync (h : op.event? around = some .enterSync) :
    op.stage = .syncing := by
  cases causes_of_event? h with
  | entered hstage => exact hstage

/-- A load is begun by whoever asks for the snapshot first. -/
theorem step_of_issues?_ne_load (h : op.issues? b ≠ some .load) (around : Surroundings) :
    (op.step around b).2.sync.begun = b.sync.begun := by
  have hrun := op.step_eq_run { broker := b } around
  cases hevent : op.event? around with
  | none =>
    rw [hevent] at hrun
    exact congrArg (·.broker.sync.begun) hrun
  | some e =>
    rw [hevent] at hrun
    refine (congrArg (·.broker.sync.begun) hrun).trans ?_
    show ((System.mk b []).step e).broker.sync.begun = b.sync.begun
    cases (System.mk b []).step_changes_sync e with
    | quiet hsync _ | turned _ hsync _ | settled _ hsync _ => rw [hsync]
    | finished _ _ hbegun _ _ => exact hbegun
    | begun hphase _ _ =>
      have hphase : b.sync.phase = .notSynced := hphase
      simp [issues?, stage_of_event?_enterSync hevent, hphase] at h
    | restarted _ => exact absurd hevent event?_ne_restart

/-- What is so when a creation has a record written. -/
theorem save_of_issues? {request : CreateRequest} (hrequest : op.request = .create request)
    (h : op.issues? b = some .save) :
    op.stage = .working ∧ b.catalog.ownedBy? request.name = none ∧
      ∃ d : Device, b.catalog.firstAllocatable? = some d := by
  obtain ⟨_, stage⟩ := op
  obtain rfl := hrequest
  cases stage with
  | syncing =>
    simp only [issues?] at h
    split at h <;> cases h
  | working =>
    refine ⟨rfl, ?_⟩
    simp only [issues?, calls?] at h
    cases hdecision : b.catalog.allocate request.name with
    | settled answer => simp [hdecision, Decision.isCommit] at h
    | commit nqn a answer =>
      obtain ⟨howned, d, hfirst, -⟩ := Catalog.allocate_eq_commit_iff.mp hdecision
      exact ⟨howned, d, hfirst⟩
  | arrived | awaiting _ | discovering | merging _ | locking | closing _ | ended _ => cases h

end Operation

namespace Traffic

/-- The operation that an event carries on, if it is the one at the place `i`, with what it meets.
-/
def turn? (t : Traffic) (i : Nat) : Event → Option (Surroundings × Operation)
  | .advance j around => if j = i then t.operations[i]?.map (around, ·) else none
  | _ => none

/-- An operation has its turn in an event that advances it. -/
theorem turn?_eq_some_iff {t : Traffic} {i : Nat} {e : Event} {around : Surroundings}
    {op : Operation} :
    t.turn? i e = some (around, op) ↔ e = .advance i around ∧ t.operations[i]? = some op := by
  cases e with
  | advance j around' =>
    simp only [turn?, Event.advance.injEq]
    by_cases hj : j = i
    · simp [hj, and_left_comm]
    · simp [hj]
  | arrive _ | beside _ => simp [turn?]

/-- An event leaves an operation as it is, or carries it on by a stage. -/
theorem turn_cases {t : Traffic} {e : Event} {i : Nat} {op : Operation}
    (hop : t.operations[i]? = some op) (hlife : e ≠ .beside .restart) :
    (t.turn? i e = none ∧ (t.step e).operations[i]? = some op) ∨
      ∃ around : Surroundings, t.turn? i e = some (around, op) ∧ e = .advance i around ∧
        (t.step e).operations[i]? = some (op.next around t.system.broker) := by
  cases hturn : t.turn? i e with
  | some turn =>
    obtain ⟨around, op'⟩ := turn
    obtain ⟨rfl, hop'⟩ := turn?_eq_some_iff.mp hturn
    obtain rfl : op = op' := Option.some.inj (hop.symm.trans hop')
    exact .inr ⟨around, rfl, rfl, operations_step_advance hop around⟩
  | none =>
    refine .inl ⟨rfl, (operation_step hop hlife).resolve_right ?_⟩
    rintro ⟨around, rfl, -⟩
    rw [turn?_eq_some_iff.mpr ⟨rfl, hop⟩] at hturn
    cases hturn

/-- Whom the operation calls in an event. -/
def issuedBy? (t : Traffic) (i : Nat) (e : Event) : Option Collaborator :=
  (t.turn? i e).bind (·.2.issues? t.system.broker)

/-- The calls that the operation makes in the course of the events, one after the other. -/
def issued (t : Traffic) (i : Nat) : List Event → List Collaborator
  | [] => []
  | e :: events => (t.issuedBy? i e).toList ++ (t.step e).issued i events

/-- An operation calls only whom it has ahead, each at most once and in order. -/
theorem issued_sublist {t : Traffic} {i : Nat} {op : Operation} (hop : t.operations[i]? = some op)
    {events : List Event} (hlife : ∀ e ∈ events, e ≠ .beside .restart) :
    (t.issued i events).Sublist op.stage.ahead := by
  induction events generalizing t op with
  | nil => exact List.nil_sublist _
  | cons e events ih =>
    obtain ⟨he, hlife⟩ := List.forall_mem_cons.mp hlife
    rcases turn_cases hop he with ⟨hturn, hsame⟩ | ⟨around, hturn, -, hnext⟩
    · simpa [issued, issuedBy?, hturn] using ih hsame hlife
    · have hcall : t.issuedBy? i e = op.issues? t.system.broker := by simp [issuedBy?, hturn]
      rw [issued, hcall]
      exact ((ih hnext hlife).append_left _).trans (op.ahead_next around t.system.broker)

/-- Once the snapshot has been loaded, no operation has it loaded again. -/
theorem load_notMem_issued {t : Traffic} (hsynced : t.system.broker.sync.phase = .synced) {i : Nat}
    {events : List Event} (hlife : ∀ e ∈ events, e ≠ .beside .restart) :
    Collaborator.load ∉ t.issued i events := by
  induction events generalizing t with
  | nil => simp [issued]
  | cons e events ih =>
    obtain ⟨he, hlife⟩ := List.forall_mem_cons.mp hlife
    have hstill : (t.step e).system.broker.sync.phase = .synced :=
      system_step_induction (P := fun s => s.broker.sync.phase = .synced) hsynced
        fun _ hevent => System.synced_step hsynced (ne_restart_of_event? hevent he)
    have hnot : t.issuedBy? i e ≠ some .load := by
      intro hload
      obtain ⟨⟨_, ⟨request, stage⟩⟩, -, hload⟩ := Option.bind_eq_some_iff.mp hload
      cases stage with
      | syncing => simp [Operation.issues?, hsynced] at hload
      | working =>
        have hworking : (Operation.mk request .working).stage = .working := rfl
        rcases Operation.issues?_of_working hworking t.system.broker with hnone | hsave
        · exact absurd (hnone.symm.trans hload) (by simp)
        · exact absurd (hsave.symm.trans hload) (by simp)
      | arrived | awaiting _ | discovering | merging _ | locking | closing _ | ended _ =>
        cases hload
    rw [issued, List.mem_append, not_or]
    exact ⟨by simpa using hnot, ih hstill hlife⟩

/-- The creation calls others no more than it has to in the course of the events. -/
structure Frugal (t : Traffic) (i : Nat) (request : CreateRequest) (events : List Event) :
    Prop where
  /-- It calls each at most once, and in this order. -/
  calls : (t.issued i events).Sublist [.load, .discover, .save]
  /-- If the snapshot has been loaded, it is not loaded again. -/
  loaded : t.system.broker.sync.phase = .synced → Collaborator.load ∉ t.issued i events
  /-- It has a record written only while it holds its lock, for a volume that owns no device, and
  only if a device can be bound. -/
  saves : ∀ (mid rest : List Event) (e : Event), events = mid ++ e :: rest →
    (t.run mid).issuedBy? i e = some .save →
    (∃ op : Operation, (t.run mid).operations[i]? = some op ∧ op.holds request.name = true) ∧
    (t.run mid).isLocked request.name = true ∧
    (∀ nqn : String, (t.run mid).allocation? nqn ≠ some (.owned request.name)) ∧
    ∃ d ∈ (t.run mid).system.broker.catalog.devices, d.allocation = .free ∧ d.isAddressable = true
  /-- Without a call none of its stages writes to the store, and none begins a load. -/
  effects : ∀ (mid rest : List Event) (around : Surroundings),
    events = mid ++ .advance i around :: rest →
    let now := t.run mid
    let next := now.step (.advance i around)
    (now.issuedBy? i (.advance i around) ≠ some .save →
      next.system.broker.store = now.system.broker.store) ∧
    (now.issuedBy? i (.advance i around) ≠ some .load →
      next.system.broker.sync.begun = now.system.broker.sync.begun)

/-- Where every key has at most one holder, a creation that arrives calls others no more than it has
to. -/
theorem frugal_run {t : Traffic} (hexact : ∀ mid : List Event, (t.run mid).Exact) {i : Nat}
    {request : CreateRequest} (hop : t.operations[i]? = some { request := .create request })
    {events : List Event} (hlife : ∀ e ∈ events, e ≠ .beside .restart) :
    t.Frugal i request events := by
  have hkept : ∀ mid rest : List Event, events = mid ++ rest → ∃ op : Operation,
      (t.run mid).operations[i]? = some op ∧ op.request = .create request := by
    intro mid rest hsplit
    rw [hsplit, List.forall_mem_append] at hlife
    obtain ⟨op, hop, hrequest, -⟩ := operation_run (P := fun _ => True) (fun _ _ _ _ => trivial)
      hop trivial hlife.1
    exact ⟨op, hop, hrequest⟩
  refine ⟨issued_sublist hop hlife, fun hsynced => load_notMem_issued hsynced hlife,
    fun mid rest e hsplit hsave => ?_, fun mid rest around hsplit => ?_⟩
  · obtain ⟨op, hop, hrequest⟩ := hkept mid _ hsplit
    obtain ⟨⟨around, op'⟩, hturn, hsave⟩ := Option.bind_eq_some_iff.mp hsave
    obtain ⟨rfl, hop'⟩ := turn?_eq_some_iff.mp hturn
    obtain rfl : op = op' := Option.some.inj (hop.symm.trans hop')
    obtain ⟨hstage, howned, d, hfirst⟩ := Operation.save_of_issues? hrequest hsave
    have hholds : op.holds request.name = true := by
      simp [Operation.holds, Operation.holdsLock, hstage, hrequest, Request.key]
    refine ⟨⟨op, hop, hholds⟩, (hexact mid).isLocked_of_holds hop hholds,
      Catalog.ownedBy?_eq_none_iff.mp howned, d, List.mem_of_find?_eq_some hfirst, ?_⟩
    exact Catalog.isAllocatable_iff.mp (List.find?_some hfirst)
  · obtain ⟨op, hop, -⟩ := hkept mid _ hsplit
    have hcall : (t.run mid).issuedBy? i (.advance i around) =
        op.issues? (t.run mid).system.broker := by
      simp [issuedBy?, turn?_eq_some_iff.mpr ⟨rfl, hop⟩]
    intro now next
    rw [hcall]
    have hbroker : next.system.broker = (op.step around now.system.broker).2 :=
      broker_step_advance hop around
    rw [hbroker]
    exact ⟨fun h => op.step_of_issues?_ne_save h around,
      fun h => op.step_of_issues?_ne_load h around⟩

end Traffic

end VolumeBroker
