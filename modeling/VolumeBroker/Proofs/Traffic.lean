import VolumeBroker.Lifecycle
import VolumeBroker.Proofs.Runs

/-!
# Operations under way

Any number of operations are under way at a broker, each at a stage of its own, and locks may be
held by somebody who is not an operation.  An event lets an operation arrive, carries one on by a
stage, or is something that happens beside the operations.  When the process ends, its operations
and the locks that are held end with it.

A stage of an operation is one event of the system or none (`Operation.step_eq_run`), so what the
operations make of the system is a run of it (`Traffic.system_run`).  What holds in every run of the
system therefore holds however the stages of the operations are interleaved.

Nobody goes away from an operation here: it is carried on until it ends, or until the process does.
An operation whose caller goes away gives its lock back and takes no further stage, and if it was in
the middle of a save, a database still writes the record.  That write is no event of these runs.
The runs that have it, and what is left of their agreement with the store, are the subject of
`Abandonment`.
-/

set_option autoImplicit false

namespace VolumeBroker

namespace Request

/-- The event that the work of a request is. -/
def workEvent? (faults : Faults) : Request → Option System.Event
  | .create request => some (.allocate faults request.name)
  | .delete id => some (.release faults id)
  | .publish _ _ => none
  | .unpublish _ _ => none

end Request

namespace Operation

/-- The event that the next stage of an operation is. -/
def event? (around : Surroundings) (op : Operation) : Option System.Event :=
  match op.stage with
  | .syncing => some .enterSync
  | .awaiting load => some (.leaveSync load)
  | .merging found => some (.merge found)
  | .locking => some (.lock op.request.key)
  | .working => op.request.workEvent? around.faults
  | .closing _ => some (.unlock op.request.key)
  | _ => none

/-- What an operation makes happen by its next stage. -/
inductive Causes (op : Operation) (around : Surroundings) : System.Event → Prop
  | entered (hstage : op.stage = .syncing) : Causes op around .enterSync
  | left {load : Nat} (hstage : op.stage = .awaiting load) : Causes op around (.leaveSync load)
  | merged {found : List Descriptor} (hstage : op.stage = .merging found) :
      Causes op around (.merge found)
  | locked (hstage : op.stage = .locking) : Causes op around (.lock op.request.key)
  | created {request : CreateRequest} (hstage : op.stage = .working)
      (hrequest : op.request = .create request) :
      Causes op around (.allocate around.faults request.name)
  | deleted {id : String} (hstage : op.stage = .working) (hrequest : op.request = .delete id) :
      Causes op around (.release around.faults id)
  | unlocked {outcome : Outcome} (hstage : op.stage = .closing outcome) :
      Causes op around (.unlock op.request.key)

/-- The event that a stage amounts to is what the stage does to the broker. -/
theorem causes_of_event? {around : Surroundings} {op : Operation} {e : System.Event}
    (h : op.event? around = some e) : op.Causes around e := by
  obtain ⟨request, stage⟩ := op
  cases stage with
  | arrived | discovering | ended _ => cases h
  | syncing =>
    cases h
    exact .entered rfl
  | awaiting load =>
    cases h
    exact .left rfl
  | merging found =>
    cases h
    exact .merged rfl
  | locking =>
    cases h
    exact .locked rfl
  | closing outcome =>
    cases h
    exact .unlocked rfl
  | working =>
    cases request with
    | create request =>
      cases h
      exact .created rfl rfl
    | delete id =>
      cases h
      exact .deleted rfl rfl
    | publish _ _ | unpublish _ _ => cases h

/-- The work of a creation is an allocation, with its answers put into words. -/
theorem work_create (b : Broker) (faults : Faults) (request : CreateRequest) :
    work b faults (.create request) =
      (match (b.allocate faults request.name).1 with
        | .ok d => .ok (.created ⟨d.nqn, d.volumeContext⟩)
        | .error e => .error (.resourceExhausted e.message),
        (b.allocate faults request.name).2) := by
  simp only [work]
  split <;> next hresult => rw [hresult]

/-- The work of a deletion is a release, with its answers put into words. -/
theorem work_delete (b : Broker) (faults : Faults) (id : String) :
    work b faults (.delete id) =
      (match (b.release faults id).1 with
        | .ok _ => .ok .deleted
        | .error e =>
          .error (.internal ("failed to release volume " ++ id ++ ": " ++ e.message)),
        (b.release faults id).2) := by
  simp only [work]
  split <;> next hresult => rw [hresult]

/-- Publishing a volume changes nothing. -/
theorem work_publish_snd (b : Broker) (faults : Faults) (id node : String) :
    (work b faults (.publish id node)).2 = b := by
  simp only [work]
  split <;> rfl

/-- The work of any request is one event of the system, or none. -/
theorem work_eq_run (s : System) (faults : Faults) (request : Request) :
    { s with broker := (work s.broker faults request).2 } =
      s.run (request.workEvent? faults).toList := by
  cases request with
  | create request =>
    show { s with broker := (work s.broker faults (.create request)).2 } =
      s.step (.allocate faults request.name)
    rw [work_create]
    rfl
  | delete id =>
    show { s with broker := (work s.broker faults (.delete id)).2 } = s.step (.release faults id)
    rw [work_delete]
    rfl
  | publish id node =>
    show { s with broker := (work s.broker faults (.publish id node)).2 } = s
    rw [work_publish_snd]
  | unpublish id node => rfl

/-- A stage of an operation changes what its event changes. -/
theorem step_eq_run (s : System) (around : Surroundings) (op : Operation) :
    { s with broker := (op.step around s.broker).2 } = s.run (op.event? around).toList := by
  obtain ⟨request, stage⟩ := op
  cases stage with
  | arrived =>
    show { s with broker := (step around s.broker ⟨request, .arrived⟩).2 } = s
    simp only [step]
    split <;> rfl
  | syncing =>
    show { s with broker := (step around s.broker ⟨request, .syncing⟩).2 } = s.step .enterSync
    simp only [step, System.step]
    split <;> next h => rw [h]
  | awaiting load =>
    show { s with broker := (step around s.broker ⟨request, .awaiting load⟩).2 } =
      s.step (.leaveSync load)
    simp only [step, System.step]
    cases s.broker.sync.outcome? load <;> rfl
  | discovering =>
    show { s with broker := (step around s.broker ⟨request, .discovering⟩).2 } = s
    simp only [step]
    split <;> rfl
  | merging found => rfl
  | locking =>
    show { s with broker := (step around s.broker ⟨request, .locking⟩).2 } =
      s.step (.lock request.key)
    simp only [step, System.step]
    cases s.broker.lock? request.key <;> rfl
  | working => exact work_eq_run s around.faults request
  | closing outcome => rfl
  | ended outcome => rfl

/-- Operations write to the store as its own, never as somebody else. -/
theorem isForeign_of_event? {around : Surroundings} {op : Operation} {e : System.Event}
    (h : op.event? around = some e) : e.isForeign = false := by
  cases causes_of_event? h <;> rfl

/-- No operation restarts the process. -/
theorem event?_ne_restart {around : Surroundings} {op : Operation} :
    op.event? around ≠ some .restart := by
  intro h
  cases causes_of_event? h

end Operation

/-- A system with the operations that are under way at its broker. -/
structure Traffic where
  system : System
  /-- The operations of the present process in the order of their arrival. -/
  operations : List Operation := []
  /-- The keys of the locks that are held by somebody who is not an operation. -/
  guards : List String := []

namespace Traffic

/-- Something that happens to the operations or beside them. -/
inductive Event
  | arrive (request : Request)
  /-- An operation is carried on by a stage. -/
  | advance (i : Nat) (around : Surroundings)
  | beside (e : System.Event)

/-- The store is written to by somebody else. -/
def Event.isForeign : Event → Bool
  | .beside e => e.isForeign
  | _ => false

/-- A new broker on a store, with nothing under way. -/
def start (store : Store) : Traffic := { system := .start store }

/-- What something that happens beside the operations makes of them.  A lock is taken only if nobody
holds it, and given back only by whoever took it. -/
def stepBeside (t : Traffic) (e : System.Event) : Traffic :=
  match e with
  | .lock key =>
    if t.system.broker.locks.isLocked key then t
    else { t with system := t.system.step e, guards := key :: t.guards }
  | .unlock key =>
    if key ∈ t.guards then
      { t with system := t.system.step e, guards := t.guards.erase key }
    else t
  | .restart => { system := t.system.step e }
  | e => { t with system := t.system.step e }

/-- What an event makes of the operations.  An event that cannot happen changes nothing. -/
def step (t : Traffic) : Event → Traffic
  | .arrive request => { t with operations := t.operations ++ [{ request }] }
  | .advance i around =>
    match t.operations[i]? with
    | none => t
    | some op =>
      let (stage, broker) := op.step around t.system.broker
      { t with system.broker := broker, operations := t.operations.set i { op with stage } }
  | .beside e => t.stepBeside e

/-- The traffic after a number of events. -/
def run (t : Traffic) (events : List Event) : Traffic := events.foldl step t

/-- A stage of an operation makes of the broker what the operation does. -/
theorem broker_step_advance {t : Traffic} {i : Nat} {op : Operation}
    (hop : t.operations[i]? = some op) (around : Surroundings) :
    (t.step (.advance i around)).system.broker = (op.step around t.system.broker).2 := by
  simp only [step, hop]

/-! ## The run of the system -/

/-- What an event of the traffic is to the system behind it, if it is anything. -/
def event? (t : Traffic) : Event → Option System.Event
  | .arrive _ => none
  | .advance i around => t.operations[i]?.bind (·.event? around)
  | .beside (.lock key) => if t.system.broker.locks.isLocked key then none else some (.lock key)
  | .beside (.unlock key) => if key ∈ t.guards then some (.unlock key) else none
  | .beside e => some e

/-- The events of the system that a run consists of. -/
def trace (t : Traffic) : List Event → List System.Event
  | [] => []
  | e :: events => (t.event? e).toList ++ (t.step e).trace events

/-- An event makes of the system what the event of the system makes of it. -/
theorem system_step (t : Traffic) (e : Event) :
    (t.step e).system = t.system.run (t.event? e).toList := by
  cases e with
  | arrive request => rfl
  | advance i around =>
    simp only [step, event?]
    cases t.operations[i]? with
    | none => rfl
    | some op => exact op.step_eq_run t.system around
  | beside e =>
    cases e with
    | lock key =>
      simp only [step, event?, stepBeside]
      split <;> rfl
    | unlock key =>
      simp only [step, event?, stepBeside]
      split <;> rfl
    | _ => rfl

/-- The system behind any traffic has gone through the history that the traffic amounts to. -/
theorem system_run (t : Traffic) (events : List Event) :
    (t.run events).system = t.system.run (t.trace events) := by
  induction events generalizing t with
  | nil => rfl
  | cons e events ih =>
    have hfirst := t.system_step e
    calc
      ((t.step e).run events).system = (t.step e).system.run ((t.step e).trace events) := ih _
      _ = (t.system.run (t.event? e).toList).run ((t.step e).trace events) := by rw [hfirst]
      _ = t.system.run (t.trace (e :: events)) := (System.run_append ..).symm

/-- Traffic can be gone through in two parts. -/
theorem run_append (t : Traffic) (first second : List Event) :
    t.run (first ++ second) = (t.run first).run second := List.foldl_append ..

/-- One more event can be put at the end. -/
theorem run_step (t : Traffic) (events : List Event) (e : Event) :
    (t.run events).step e = t.run (events ++ [e]) := (run_append t events [e]).symm

/-- What every event of a kind keeps, a run of such events keeps. -/
theorem run_induction {P : Traffic → Prop} (allowed : Event → Prop)
    (hstep : ∀ (t : Traffic) (e : Event), allowed e → P t → P (t.step e)) {events : List Event}
    (hevents : ∀ e ∈ events, allowed e) {t : Traffic} (ht : P t) : P (t.run events) := by
  induction events generalizing t with
  | nil => exact ht
  | cons e events ih =>
    have hfirst : P (t.step e) := hstep t e (hevents e List.mem_cons_self) ht
    exact ih (fun e' he' => hevents e' (List.mem_cons_of_mem e he')) hfirst

/-- An event leaves the system as it is, or it is one event of the system. -/
theorem system_step_cases (t : Traffic) (e : Event) :
    (t.event? e = none ∧ (t.step e).system = t.system) ∨
      ∃ e' : System.Event, t.event? e = some e' ∧ (t.step e).system = t.system.step e' := by
  rw [system_step]
  cases t.event? e with
  | none => exact .inl ⟨rfl, rfl⟩
  | some e' => exact .inr ⟨e', rfl, rfl⟩

/-- What the event of the system keeps, if there is one, an event keeps. -/
theorem system_step_induction {P : System → Prop} {t : Traffic} {e : Event} (h : P t.system)
    (hstep : ∀ e' : System.Event, t.event? e = some e' → P (t.system.step e')) :
    P (t.step e).system := by
  rcases t.system_step_cases e with ⟨-, hsame⟩ | ⟨e', hevent, hsystem⟩
  · exact hsame ▸ h
  · exact hsystem ▸ hstep e' hevent

/-- What happens beside the operations is what it is, if it happens at all. -/
theorem eq_of_event?_beside {t : Traffic} {e e' : System.Event}
    (h : t.event? (.beside e) = some e') : e = e' := by
  cases e <;> simp_all [event?]

/-- Traffic that leaves the store to its own writers is such a history. -/
theorem isForeign_of_event? {t : Traffic} {e : Event} {e' : System.Event}
    (h : t.event? e = some e') (hown : e.isForeign = false) : e'.isForeign = false := by
  cases e with
  | arrive request => simp [event?] at h
  | advance i around =>
    obtain ⟨op, -, hop⟩ := Option.bind_eq_some_iff.mp h
    exact Operation.isForeign_of_event? hop
  | beside e => exact eq_of_event?_beside h ▸ hown

/-- The process ends only beside the operations. -/
theorem ne_restart_of_event? {t : Traffic} {e : Event} {e' : System.Event}
    (h : t.event? e = some e') (hlife : e ≠ .beside .restart) : e' ≠ .restart := by
  rintro rfl
  cases e with
  | arrive request => cases h
  | advance i around =>
    obtain ⟨op, -, hop⟩ := Option.bind_eq_some_iff.mp h
    exact Operation.event?_ne_restart hop
  | beside e => exact hlife (eq_of_event?_beside h ▸ rfl)

end Traffic

end VolumeBroker
