import VolumeBroker.Proofs.CallCompletion
import VolumeBroker.Proofs.CollaboratorCalls

/-!
# How a creation comes out

Four things decide how a creation comes out, and they do so in a fixed order: the request, what the
fabric answers, whether somebody holds the lock of the name, and the catalog in which the device is
asked for, with the failure that its record meets.  `CreateRequest.ruling` is that decision.  How
the load of the snapshot has ended is not among them: it counts only by what it has made of the
catalog.

What a creation meets is read off the events (`Traffic.encounter`), whoever else is at work between
its stages; what it has not met does not matter, because the theorem holds of whatever is put in its
place.  If nothing comes between its stages, what it is going to meet can be told from the state in
which it arrives (`Traffic.foreseen`): each part of the call leaves what is still to be met as it
is.
-/

set_option autoImplicit false

namespace VolumeBroker

/-- The code of the answer, if an operation has failed. -/
def Outcome.code? : Outcome → Option StatusCode
  | .ok _ => none
  | .error e => some e.code

/-- What a creation meets that decides how it comes out. -/
structure Encounter where
  /-- What the fabric answers. -/
  answer : Except DiscoveryError (List Descriptor)
  /-- Whether somebody holds the lock of the name when the creation asks for it. -/
  busy : Bool
  /-- The catalog in which it asks for a device. -/
  catalog : Catalog
  /-- The failure that the record of the device meets. -/
  save : Option StoreError

namespace CreateRequest

/-- The request names no volume, or it asks for nothing, or for something of no known kind. -/
def Malformed (request : CreateRequest) : Prop :=
  request.name = "" ∨ request.capabilities = [] ∨ none ∈ request.capabilities

/-- Whether a request is malformed can be read off its fields. -/
instance (request : CreateRequest) : Decidable request.Malformed :=
  inferInstanceAs (Decidable (_ ∨ _ ∨ _))

/-- The volume owns no device, and none can be bound to it. -/
def Unserved (request : CreateRequest) (met : Encounter) : Prop :=
  (∀ d ∈ met.catalog.devices, d.owner? ≠ some request.name) ∧
    ((∀ d ∈ met.catalog.devices, ¬ (d.allocation = .free ∧ d.isAddressable = true)) ∨
      met.save ≠ none)

/-- Whether a request is left unserved can be read off the catalog it meets. -/
instance (request : CreateRequest) (met : Encounter) : Decidable (request.Unserved met) :=
  inferInstanceAs (Decidable (_ ∧ (_ ∨ _)))

/-- The code with which the creation fails, if it does. -/
def ruling (request : CreateRequest) (met : Encounter) : Option StatusCode :=
  if request.Malformed then some .invalidArgument
  else
    match met.answer with
    | .error _ => some .internal
    | .ok _ =>
      if met.busy then some .aborted
      else if request.Unserved met then some .resourceExhausted
      else none

/-- A request is accepted exactly if it is not malformed. -/
theorem fault?_eq_none_iff (request : CreateRequest) :
    (Request.create request).fault? = none ↔ ¬ request.Malformed := by
  simp only [Request.fault?, Malformed]
  by_cases hname : request.name = ""
  · simp [hname]
  · by_cases hasked : request.capabilities = []
    · simp [hname, hasked]
    · simp [hname, hasked]

/-- A request that is not accepted is answered as an invalid argument. -/
theorem code_of_fault? {request : CreateRequest} {e : VolumeError}
    (h : (Request.create request).fault? = some e) : e.code = .invalidArgument := by
  simp only [Request.fault?] at h
  split at h
  · cases h
    rfl
  · split at h
    · cases h
      rfl
    · cases h

/-- A request is left unserved exactly if its volume owns no device and there is none to bind, or
the record cannot be written. -/
theorem unserved_iff (request : CreateRequest) (met : Encounter) :
    request.Unserved met ↔ met.catalog.ownedBy? request.name = none ∧
      (met.catalog.firstAllocatable? = none ∨ met.save ≠ none) := by
  simp [Unserved, Catalog.ownedBy?, Catalog.firstAllocatable?, List.find?_eq_none,
    Catalog.isAllocatable_iff]

end CreateRequest

namespace Encounter

/-- What has been met after another stage of the operation. -/
def update (met : Encounter) (around : Surroundings) (b : Broker) (op : Operation) : Encounter :=
  match op.stage with
  | .discovering => { met with answer := around.fabric (Operation.parameters op.request) }
  | .locking => { met with busy := b.locks.isLocked op.request.key }
  | .working => { met with catalog := b.catalog, save := around.faults.save }
  | _ => met

/-- What the stage of a creation tells of what it has met: nothing of it has made the creation fail
so far, or the creation has come out as it had to. -/
def Leads (met : Encounter) (request : CreateRequest) : Stage → Prop
  | .arrived => True
  | .syncing | .awaiting _ | .discovering => ¬ request.Malformed
  | .merging _ | .locking =>
    ¬ request.Malformed ∧ ∃ found : List Descriptor, met.answer = .ok found
  | .working =>
    (¬ request.Malformed ∧ ∃ found : List Descriptor, met.answer = .ok found) ∧ met.busy = false
  | .closing outcome | .ended outcome => outcome.code? = request.ruling met

variable {request : CreateRequest}

/-- Without an answer of the fabric the creation fails as an internal error. -/
theorem ruling_of_unanswered (met : Encounter) (hformed : ¬ request.Malformed) {e : DiscoveryError}
    (hanswer : met.answer = .error e) : request.ruling met = some .internal := by
  rw [CreateRequest.ruling, if_neg hformed, hanswer]

/-- Where the lock is held, the creation is aborted. -/
theorem ruling_of_busy (met : Encounter) (hformed : ¬ request.Malformed) {found : List Descriptor}
    (hanswer : met.answer = .ok found) (hbusy : met.busy = true) :
    request.ruling met = some .aborted := by
  rw [CreateRequest.ruling, if_neg hformed, hanswer]
  exact if_pos hbusy

/-- Where the fabric answers and the lock is free, the creation fails for want of resources, or not
at all. -/
theorem ruling_of_free (met : Encounter) (hformed : ¬ request.Malformed) {found : List Descriptor}
    (hanswer : met.answer = .ok found) (hbusy : met.busy = false) :
    request.ruling met = if request.Unserved met then some .resourceExhausted else none := by
  rw [CreateRequest.ruling, if_neg hformed, hanswer]
  exact if_neg (by simp [hbusy])

end Encounter

namespace Operation

variable {around : Surroundings} {b : Broker} {op : Operation} {request : CreateRequest}
  {met : Encounter}

/-- The request for a device is met unless the volume is unserved. -/
theorem code?_work_create (b : Broker) (faults : Faults) (request : CreateRequest)
    (hcatalog : met.catalog = b.catalog) (hsave : met.save = faults.save) :
    Outcome.code? (work b faults (.create request)).1 =
      if request.Unserved met then some .resourceExhausted else none := by
  have hunserved := request.unserved_iff met
  rw [hcatalog, hsave] at hunserved
  rw [work_create]
  cases howned : b.catalog.ownedBy? request.name with
  | some d =>
    rw [Broker.allocate_of_owned howned, if_neg (by simp [hunserved, howned])]
    rfl
  | none =>
    cases hfirst : b.catalog.firstAllocatable? with
    | none =>
      rw [if_pos (by simp [hunserved, howned, hfirst]), Broker.allocate_of_exhausted howned hfirst]
      rfl
    | some d =>
      cases hfault : faults.save with
      | some e =>
        rw [if_pos (by simp [hunserved, howned, hfault]),
          Broker.allocate_of_unwritten howned hfirst hfault]
        rfl
      | none =>
        rw [if_neg (by simp [hunserved, howned, hfirst, hfault]),
          Broker.allocate_of_first howned hfirst hfault]
        rfl

/-- One stage keeps what the stage tells of what has been met. -/
theorem leads_next (hrequest : op.request = .create request) (h : met.Leads request op.stage)
    (around : Surroundings) (b : Broker) :
    (met.update around b op).Leads request (op.next around b).stage := by
  unfold Encounter.update
  -- Most moves leave what has been met; the others are where the ruling decides the next point.
  cases op.step_moves around b with
  | refused hstage hfault hnext _ =>
    rw [hrequest] at hfault
    have hmalformed : request.Malformed := by
      by_contra hformed
      rw [(CreateRequest.fault?_eq_none_iff request).mpr hformed] at hfault
      cases hfault
    rw [hnext, hstage]
    simp [Encounter.Leads, Outcome.code?, CreateRequest.ruling, hmalformed,
      CreateRequest.code_of_fault? hfault]
  | accepted hstage hfault hnext _ =>
    rw [hrequest] at hfault
    rw [hnext, hstage, hrequest]
    exact (CreateRequest.fault?_eq_none_iff request).mp hfault
  | ready hstage hnext _ | joined hstage hnext _ | waiting hstage hnext _ | woken hstage hnext _
  | merged hstage hnext _ | closed hstage hnext _ | rested hstage hnext _ =>
    rw [hstage] at h
    rw [hnext, hstage]
    exact h
  | found hstage hfabric hnext _ =>
    rw [hstage] at h
    rw [hnext, hstage]
    exact ⟨h, _, hfabric⟩
  | unfound hstage hnext _ =>
    rw [hstage] at h
    cases hfabric : around.fabric (parameters op.request) with
    | ok found => simp [next, step, hstage, hfabric] at hnext
    | error e =>
      rw [hnext, hstage]
      exact (Encounter.ruling_of_unanswered _ h rfl).symm
  | turnedAway hstage hnext _ =>
    rw [hstage] at h
    obtain ⟨hformed, found, hanswer⟩ := h
    have hbusy : b.locks.isLocked op.request.key = true := by
      have hstep := step_of_locking hstage around b
      by_contra hfree
      rw [if_neg hfree] at hstep
      exact absurd (hnext.symm.trans hstep) (by simp)
    rw [hnext, hstage]
    exact (Encounter.ruling_of_busy { met with busy := b.locks.isLocked op.request.key }
      hformed hanswer hbusy).symm
  | locked hstage hacquire hnext _ =>
    rw [hstage] at h
    rw [hnext, hstage]
    refine ⟨h, ?_⟩
    show b.locks.isLocked op.request.key = false
    rw [← Bool.not_eq_true, ← LockTable.tryAcquire_eq_none_iff, hacquire]
    simp
  | worked hstage hnext _ =>
    rw [hstage] at h
    obtain ⟨⟨hformed, found, hanswer⟩, hbusy⟩ := h
    rw [hnext, hstage, hrequest]
    exact (code?_work_create b around.faults request rfl rfl).trans
      (Encounter.ruling_of_free { met with catalog := b.catalog, save := around.faults.save }
        hformed hanswer hbusy).symm

end Operation

namespace Traffic

/-- What the operation has met after another event. -/
def meet (t : Traffic) (i : Nat) (met : Encounter) (e : Event) : Encounter :=
  match t.turn? i e with
  | some (around, op) => met.update around t.system.broker op
  | none => met

/-- What the operation has met after the events; what it has not met is what was put in its place at
first. -/
def encounter (t : Traffic) (i : Nat) (met : Encounter) : List Event → Encounter
  | [] => met
  | e :: events => (t.step e).encounter i (t.meet i met e) events

/-- A whole run keeps what the stage of a creation tells of what it has met, whatever else goes on.
-/
theorem leads_run {t : Traffic} {i : Nat} {request : CreateRequest} {met : Encounter}
    {op : Operation} (hop : t.operations[i]? = some op) (hrequest : op.request = .create request)
    (h : met.Leads request op.stage) {events : List Event}
    (hlife : ∀ e ∈ events, e ≠ .beside .restart) :
    ∃ later : Operation, (t.run events).operations[i]? = some later ∧
      (t.encounter i met events).Leads request later.stage := by
  induction events generalizing t met op with
  | nil => exact ⟨op, hop, h⟩
  | cons e events ih =>
    obtain ⟨he, hlife⟩ := List.forall_mem_cons.mp hlife
    rcases turn_cases hop he with ⟨hturn, hsame⟩ | ⟨around, hturn, -, hnext⟩
    · have hmet : t.meet i met e = met := by rw [meet, hturn]
      rw [encounter, hmet]
      exact ih hsame hrequest h hlife
    · have hmet : t.meet i met e = met.update around t.system.broker op := by rw [meet, hturn]
      rw [encounter, hmet]
      exact ih hnext hrequest (Operation.leads_next hrequest h around t.system.broker) hlife

/-- A creation that has ended came out as what it has met decides. -/
theorem code?_eq_ruling {t : Traffic} {i : Nat} {request : CreateRequest}
    (harrived : t.operations[i]? = some { request := .create request }) {events : List Event}
    (hlife : ∀ e ∈ events, e ≠ .beside .restart) {outcome : Outcome}
    (hended : t.EndsWith i events outcome) (met : Encounter) :
    outcome.code? = request.ruling (t.encounter i met events) := by
  obtain ⟨op, hop, hstage⟩ := hended
  have hstart : met.Leads request .arrived := trivial
  obtain ⟨later, hlater, hleads⟩ := leads_run harrived rfl hstart hlife
  obtain rfl : op = later := Option.some.inj (hop.symm.trans hlater)
  rw [hstage] at hleads
  exact hleads

end Traffic

/-! ## A call that nothing interrupts -/

namespace System

/-- The catalog once the load has had its turn. -/
def catalogAfterLoad (s : System) (number : Nat) (faults : Faults) : Catalog :=
  if s.awaitsTurn number then (s.broker.loadSnapshot faults).2.catalog else s.broker.catalog

/-- A load that has had its turn does not have another. -/
theorem awaitsTurn_eq_false {s : System} {number : Nat} {outcome : LoadOutcome}
    (h : s.loaded.lookup number = some outcome) : s.awaitsTurn number = false := by
  simp [awaitsTurn, h]

/-- Once the load has had its turn, the catalog is what it is. -/
theorem catalogAfterLoad_eq {s : System} {number : Nat} {outcome : LoadOutcome}
    (h : s.loaded.lookup number = some outcome) (faults : Faults) :
    s.catalogAfterLoad number faults = s.broker.catalog := by
  rw [catalogAfterLoad, if_neg (by simp [awaitsTurn_eq_false h])]

/-- The turn of the load leads where it was to lead. -/
theorem catalogAfterLoad_step_load (s : System) (number : Nat) (faults : Faults) :
    (s.step (.load number faults)).catalogAfterLoad number faults =
      s.catalogAfterLoad number faults := by
  by_cases hturn : s.awaitsTurn number = true
  · rw [step_load_of_awaitsTurn hturn, catalogAfterLoad_eq List.lookup_cons_self, catalogAfterLoad,
      if_pos hturn]
  · rw [step_load_of_not_awaitsTurn hturn]

/-- The end of the load changes nothing about that. -/
theorem catalogAfterLoad_step_finishLoad (s : System) (number : Nat) (faults : Faults) :
    (s.step (.finishLoad number)).catalogAfterLoad number faults =
      s.catalogAfterLoad number faults := by
  cases hlookup : s.loaded.lookup number with
  | none =>
    have hsame : s.step (.finishLoad number) = s := by simp only [step, hlookup]
    rw [hsame]
  | some outcome =>
    have hkept : (s.step (.finishLoad number)).loaded = s.loaded ∧
        (s.step (.finishLoad number)).broker.catalog = s.broker.catalog := by
      simp only [step, hlookup]
      split <;> exact ⟨rfl, rfl⟩
    have hlater : (s.step (.finishLoad number)).loaded.lookup number = some outcome := by
      rw [hkept.1, hlookup]
    rw [catalogAfterLoad_eq hlater, catalogAfterLoad_eq hlookup, hkept.2]

/-- The number of the next load has not been given to any. -/
theorem Numbered.lookup_begun {s : System} (h : s.Numbered) :
    s.loaded.lookup s.broker.sync.begun = none := by
  cases hlookup : s.loaded.lookup s.broker.sync.begun with
  | none => rfl
  | some outcome =>
    exact absurd (h.begun_of_loaded _ (mem_of_lookup hlookup)) (Nat.lt_irrefl _)

/-- Whoever asks for the snapshot first waits for a load that has its turn still to come. -/
theorem Numbered.catalogAfterLoad_enterSync {s : System} (h : s.Numbered)
    (htruthful : s.Truthful) (hphase : s.broker.sync.phase = .notSynced) (faults : Faults) :
    (s.step .enterSync).catalogAfterLoad s.broker.sync.begun faults =
      (s.broker.loadSnapshot faults).2.catalog := by
  have hloading : (s.step .enterSync).broker.sync.phase = .loading s.broker.sync.begun := by
    rw [System.step, Broker.enterSync_of_notSynced hphase]
  have hunderway := (h.step htruthful .enterSync).under_way _ hloading
  have hloaded : (s.step .enterSync).loaded.lookup s.broker.sync.begun = none := h.lookup_begun
  have hturn : (s.step .enterSync).awaitsTurn s.broker.sync.begun = true := by
    simp [awaitsTurn, hunderway, hloaded]
  have hsame : (s.step .enterSync).broker.readSnapshot faults = s.broker.readSnapshot faults := rfl
  rw [catalogAfterLoad, if_pos hturn, Broker.loadSnapshot, Broker.loadSnapshot, hsame]
  cases s.broker.readSnapshot faults <;> rfl

/-- The catalog once somebody who asks for the snapshot now has waited for it. -/
def syncedCatalog (s : System) (faults : Faults) : Catalog :=
  match s.broker.sync.phase with
  | .synced => s.broker.catalog
  | .loading number => s.catalogAfterLoad number faults
  | .notSynced => (s.broker.loadSnapshot faults).2.catalog

end System

namespace CreateRequest

/-- The catalog with the devices that the fabric reports, if it answers. -/
def reportedTo (request : CreateRequest) (around : Surroundings) (catalog : Catalog) : Catalog :=
  match around.fabric request.parameters with
  | .ok found => catalog.merge found
  | .error _ => catalog

/-- The catalog in which a creation that has reached the stage is going to ask for a device. -/
def comingCatalog (request : CreateRequest) (around : Surroundings) (s : System) :
    Stage → Catalog
  | .arrived | .syncing => request.reportedTo around (s.syncedCatalog around.faults)
  | .awaiting number => request.reportedTo around (s.catalogAfterLoad number around.faults)
  | .discovering => request.reportedTo around s.broker.catalog
  | .merging found => s.broker.catalog.merge found
  | .locking | .working | .closing _ | .ended _ => s.broker.catalog

/-- A stage leaves it as it is, unless the creation comes out in it. -/
theorem comingCatalog_step {s : System} (hnumbered : s.Numbered) (htruthful : s.Truthful)
    {op : Operation} {request : CreateRequest} (hrequest : op.request = .create request)
    (around : Surroundings) (hopen : (op.next around s.broker).outcome? = none) :
    request.comingCatalog around { s with broker := (op.step around s.broker).2 }
        (op.next around s.broker).stage =
      request.comingCatalog around s op.stage := by
  obtain ⟨_, stage⟩ := op
  obtain rfl := hrequest
  cases stage with
  | arrived =>
    cases hfault : (Request.create request).fault? with
    | some e => simp [Operation.next, Operation.step, hfault, Operation.outcome?] at hopen
    | none =>
      simp only [Operation.next, Operation.step, hfault]
      rfl
  | syncing =>
    cases hphase : s.broker.sync.phase with
    | synced =>
      have hstep : Operation.step around s.broker ⟨.create request, .syncing⟩ =
          (.discovering, s.broker) := by
        simp only [Operation.step, Broker.enterSync_of_synced hphase]
      simp only [Operation.next, hstep, comingCatalog, System.syncedCatalog, hphase]
    | loading number =>
      have hstep : Operation.step around s.broker ⟨.create request, .syncing⟩ =
          (.awaiting number, s.broker) := by
        simp only [Operation.step, Broker.enterSync_of_loading hphase]
      simp only [Operation.next, hstep, comingCatalog, System.syncedCatalog, hphase]
    | notSynced =>
      have hcatalog := hnumbered.catalogAfterLoad_enterSync htruthful hphase around.faults
      have hstep : Operation.step around s.broker ⟨.create request, .syncing⟩ =
          (.awaiting s.broker.sync.begun, s.broker.enterSync.2) := by
        simp only [Operation.step, Broker.enterSync_of_notSynced hphase]
      simp only [Operation.next, hstep, comingCatalog, System.syncedCatalog, hphase]
      exact congrArg (request.reportedTo around) hcatalog
  | awaiting number =>
    cases houtcome : s.broker.sync.outcome? number with
    | none =>
      simp only [Operation.next, Operation.step, houtcome]
    | some outcome =>
      -- A load that has ended has had its turn.
      have hdone : s.awaitsTurn number = false := by
        simp [System.awaitsTurn, Sync.isUnderWay, houtcome]
      simp only [Operation.next, Operation.step, houtcome, comingCatalog, System.catalogAfterLoad,
        hdone]
      rfl
  | discovering =>
    cases hfabric : around.fabric request.parameters with
    | error e =>
      simp [Operation.next, Operation.step, Operation.parameters, hfabric, Operation.outcome?]
        at hopen
    | ok found =>
      simp [Operation.next, Operation.step, Operation.parameters, hfabric, comingCatalog,
        reportedTo]
  | merging found => rfl
  | locking =>
    simp only [Operation.next, Operation.step, Broker.lock?] at hopen ⊢
    cases hacquire : s.broker.locks.tryAcquire request.name with
    | none => simp [hacquire, Request.key, Operation.outcome?] at hopen
    | some locks => simp [hacquire, Request.key, comingCatalog]
  | working | closing _ | ended _ => cases hopen

end CreateRequest

namespace Traffic

/-- What a creation that arrives meets if nothing comes between the parts of its call. -/
def foreseen (t : Traffic) (request : CreateRequest) (around : Surroundings) : Encounter where
  answer := around.fabric request.parameters
  busy := t.isLocked request.name
  catalog := request.reportedTo around (t.system.syncedCatalog around.faults)
  save := around.faults.save

/-- A call is on its course: it is still going to meet what is in `met`. -/
structure OnCourse (t : Traffic) (i : Nat) (request : CreateRequest) (around : Surroundings)
    (met : Encounter) (op : Operation) : Prop where
  place : t.operations[i]? = some op
  kind : op.request = .create request
  catalog : op.outcome? = none → request.comingCatalog around t.system op.stage = met.catalog
  busy : op.outcome? = none → op.stage ≠ .working → t.isLocked request.name = met.busy

namespace OnCourse

variable {t : Traffic} {i : Nat} {request : CreateRequest} {around : Surroundings}
  {met : Encounter} {op : Operation}

/-- A stage of a creation on its course meets what it was to meet. -/
theorem update_eq (h : t.OnCourse i request around met op)
    (hanswer : met.answer = around.fabric request.parameters)
    (hsave : met.save = around.faults.save) :
    met.update around t.system.broker op = met := by
  obtain ⟨answer, busy, catalog, save⟩ := met
  obtain ⟨_, stage⟩ := op
  obtain rfl := h.kind
  obtain rfl : answer = _ := hanswer
  obtain rfl : save = _ := hsave
  cases stage with
  | discovering => rfl
  | locking =>
    obtain rfl : _ = busy := h.busy rfl (by simp)
    rfl
  | working =>
    obtain rfl : _ = catalog := h.catalog rfl
    rfl
  | arrived | syncing | awaiting _ | merging _ | closing _ | ended _ => rfl

/-- The next stage keeps a call on its course. -/
theorem advance (h : t.OnCourse i request around met op) (hnumbered : t.system.Numbered)
    (htruthful : t.system.Truthful) :
    (t.step (.advance i around)).OnCourse i request around met
      (op.next around t.system.broker) := by
  have hopen (hnext : (op.next around t.system.broker).outcome? = none) : op.outcome? = none := by
    cases houtcome : op.outcome? with
    | none => rfl
    | some outcome =>
      rw [Operation.outcome?_next houtcome] at hnext
      cases hnext
  have hsystem : (t.step (.advance i around)).system =
      { t.system with broker := (op.step around t.system.broker).2 } := by
    simp only [step, h.place]
  refine ⟨operations_step_advance h.place around, h.kind, fun hnext => ?_, fun hnext hne => ?_⟩
  · rw [hsystem, request.comingCatalog_step hnumbered htruthful h.kind around hnext]
    exact h.catalog (hopen hnext)
  · rw [isLocked, hsystem]
    cases op.step_changes_locks around t.system.broker with
    | kept hlocks _ =>
      rw [hlocks]
      refine h.busy (hopen hnext) fun hworking => ?_
      simp [Operation.next, Operation.step, hworking, Operation.outcome?] at hnext
    | taken _ _ _ hworking => exact absurd hworking hne
    | returned _ _ hended => simp [Operation.outcome?, hended] at hnext

/-- The turn of the load that it waits for keeps a call on its course. -/
theorem load (h : t.OnCourse i request around met op) {number : Nat}
    (hstage : op.stage = .awaiting number) :
    (t.step (.beside (.load number around.faults))).OnCourse i request around met op := by
  refine ⟨h.place, h.kind, fun hnone => ?_, fun hnone hne => ?_⟩
  · rw [← h.catalog hnone, hstage]
    exact congrArg (request.reportedTo around)
      (t.system.catalogAfterLoad_step_load number around.faults)
  · rw [← h.busy hnone hne]
    exact congrArg (·.isLocked request.name)
      (t.system.locks_step (e := .load number around.faults) rfl)

/-- The end of the load that it waits for keeps a call on its course. -/
theorem finishLoad (h : t.OnCourse i request around met op) {number : Nat}
    (hstage : op.stage = .awaiting number) :
    (t.step (.beside (.finishLoad number))).OnCourse i request around met op := by
  refine ⟨h.place, h.kind, fun hnone => ?_, fun hnone hne => ?_⟩
  · rw [← h.catalog hnone, hstage]
    exact congrArg (request.reportedTo around)
      (t.system.catalogAfterLoad_step_finishLoad number around.faults)
  · rw [← h.busy hnone hne]
    exact congrArg (·.isLocked request.name)
      (t.system.locks_step (e := .finishLoad number) rfl)

/-- A part of the call keeps it on its course, and finds what was foreseen. -/
theorem step (h : t.OnCourse i request around met op) (hnumbered : t.system.Numbered)
    (htruthful : t.system.Truthful) (hanswer : met.answer = around.fabric request.parameters)
    (hsave : met.save = around.faults.save) {e : Event} (hpart : t.PartOfCall i e)
    (hfaces : e.Faces around) :
    t.meet i met e = met ∧
      ∃ later : Operation, (t.step e).OnCourse i request around met later := by
  cases e with
  | arrive request => exact hpart.elim
  | advance j around' =>
    obtain rfl : j = i := hpart
    obtain rfl : around' = around := hfaces
    refine ⟨?_, _, h.advance hnumbered htruthful⟩
    rw [meet, turn?_eq_some_iff.mpr ⟨rfl, h.place⟩]
    exact h.update_eq hanswer hsave
  | beside e =>
    cases e with
    | load number faults =>
      obtain ⟨waiting, hwaiting, hstage⟩ := hpart
      obtain rfl : op = waiting := Option.some.inj (h.place.symm.trans hwaiting)
      obtain rfl : faults = around.faults := hfaces
      exact ⟨rfl, op, h.load hstage⟩
    | finishLoad number =>
      obtain ⟨waiting, hwaiting, hstage⟩ := hpart
      obtain rfl : op = waiting := Option.some.inj (h.place.symm.trans hwaiting)
      exact ⟨rfl, op, h.finishLoad hstage⟩
    | _ => exact hpart.elim

end OnCourse

/-- A call on its course, of which the parts follow one another, meets what it was to meet. -/
theorem OnCourse.encounter_eq {store : Store} {before events : List Event} {i : Nat}
    {request : CreateRequest} {around : Surroundings} {met : Encounter} {op : Operation}
    (h : ((start store).run before).OnCourse i request around met op)
    (hanswer : met.answer = around.fabric request.parameters)
    (hsave : met.save = around.faults.save)
    (hwhole : ((start store).run before).Uninterrupted i events)
    (hfaces : ∀ e ∈ events, e.Faces around) :
    ((start store).run before).encounter i met events = met := by
  induction events generalizing before op with
  | nil => rfl
  | cons e events ih =>
    obtain ⟨hpart, hwhole⟩ := hwhole
    obtain ⟨he, hfaces⟩ := List.forall_mem_cons.mp hfaces
    obtain ⟨hmet, later, hlater⟩ :=
      h.step numbered_run truthful_run hanswer hsave hpart he
    rw [encounter, hmet]
    rw [run_step] at hlater hwhole ⊢
    exact ih hlater hwhole hfaces

/-! ## The outcome -/

/-- Let a creation arrive in any state that can be reached.  Whatever happens while it is under way,
as long as the process goes on, it calls nobody more than once and the store only if it has to; and
if it comes to an end, it does so as `ruling` says of what it has met on its way.

If nothing comes between the parts of its call, then it does come to an end, and the ruling is one
on the state in which it has arrived and on what its surroundings do: the catalog is that state's,
after the load that the creation waits for, with the devices that the fabric reports.  Whether that
load succeeds is of no account otherwise. -/
theorem creation_decided_in_order (store : Store) (before : List Event) (i : Nat)
    (request : CreateRequest)
    (harrived : ((start store).run before).operations[i]? = some { request := .create request }) :
    let t := (start store).run before
    (∀ events : List Event, (∀ e ∈ events, e ≠ .beside .restart) →
      t.Frugal i request events ∧
      ∀ outcome : Outcome, t.EndsWith i events outcome →
        ∀ met : Encounter, outcome.code? = request.ruling (t.encounter i met events)) ∧
    ∀ around : Surroundings,
      (∃ (events : List Event) (outcome : Outcome), t.Uninterrupted i events ∧
        (∀ e ∈ events, e.Faces around) ∧ t.EndsWith i events outcome) ∧
      ∀ (events : List Event) (outcome : Outcome), t.Uninterrupted i events →
        (∀ e ∈ events, e.Faces around) → t.EndsWith i events outcome →
        outcome.code? = request.ruling (t.foreseen request around) := by
  intro t
  have hexact : ∀ mid : List Event, (t.run mid).Exact := by
    intro mid
    rw [show t.run mid = (start store).run (before ++ mid) from (run_append ..).symm]
    exact exact_run store _
  refine ⟨fun events hlife => ⟨frugal_run hexact harrived hlife, fun outcome hended met =>
    code?_eq_ruling harrived hlife hended met⟩, fun around => ⟨completes_run harrived around, ?_⟩⟩
  intro events outcome hwhole hfaces hended
  have hcourse : t.OnCourse i request around (t.foreseen request around)
      { request := .create request } := ⟨harrived, rfl, fun _ => rfl, fun _ _ => rfl⟩
  have hmet : t.encounter i (t.foreseen request around) events = t.foreseen request around :=
    hcourse.encounter_eq rfl rfl hwhole hfaces
  have hcode := code?_eq_ruling harrived (life_of_uninterrupted hwhole) hended
    (t.foreseen request around)
  rw [hcode]
  exact congrArg request.ruling hmet

/-- Surroundings in which the store cannot be read. -/
def unreadableStoreSurroundings : Surroundings :=
  { calmSurroundings with faults := { load := some (.backend "no such file") } }

/-- The volume `vol1` is created although the snapshot cannot be loaded; it is refused if the record
of its device cannot be written, and then one load, one discovery and one write have been called. -/
theorem creation_decided_without_snapshot :
    let t := (start otherDeviceBound).run [.arrive (.create ⟨"vol1", [some .mount], ∅⟩)]
    (∃ (events : List Event) (outcome : Outcome), t.Uninterrupted 0 events ∧
      (∀ e ∈ events, e.Faces unreadableStoreSurroundings) ∧ t.EndsWith 0 events outcome ∧
      outcome.code? = none) ∧
    ∃ outcome : Outcome, t.EndsWith 0 unwrittenCreation outcome ∧
      outcome.code? = some .resourceExhausted ∧
      (t.issued 0 unwrittenCreation).Sublist [.load, .discover, .save] := by
  intro t
  obtain ⟨hall, hwhole⟩ := creation_decided_in_order otherDeviceBound
    [.arrive (.create ⟨"vol1", [some .mount], ∅⟩)] 0 ⟨"vol1", [some .mount], ∅⟩ rfl
  constructor
  · obtain ⟨⟨events, outcome, huninterrupted, hfaces, hended⟩, hcode⟩ :=
      hwhole unreadableStoreSurroundings
    refine ⟨events, outcome, huninterrupted, hfaces, hended, ?_⟩
    rw [hcode events outcome huninterrupted hfaces hended]
    decide
  · obtain ⟨hfrugal, hruling⟩ := hall unwrittenCreation (by simp [unwrittenCreation])
    have hplace : (((start otherDeviceBound).run
        [.arrive (.create ⟨"vol1", [some .mount], ∅⟩)]).run unwrittenCreation).operations[0]? =
        some ⟨.create ⟨"vol1", [some .mount], ∅⟩, .ended (.error (.resourceExhausted
          (RegistryError.persistence (.backend "no space left")).message))⟩ := rfl
    have hended : t.EndsWith 0 unwrittenCreation _ := ⟨_, hplace, rfl⟩
    refine ⟨_, hended, ?_, hfrugal.calls⟩
    rw [hruling _ hended (t.foreseen ⟨"vol1", [some .mount], ∅⟩ fullStoreSurroundings)]
    decide

end Traffic

end VolumeBroker
