import VolumeBroker.Broker
import VolumeBroker.Proofs.CatalogLookup
import VolumeBroker.Proofs.SnapshotValidity
import VolumeBroker.Proofs.StoreLookup

/-!
# Runs of a broker

A run is a list of events, each of which is one critical section of a broker or something that
happens beside it: another process writes to the store, or the broker's own process ends and a new
one begins.  Any number of callers may be at work at once, and the order of their sections is the
order of the list; so a statement about every list is one about every interleaving.

A load has three moments, and anything may happen between them: it is begun by whoever enters first,
it has its turn in the catalog, and it ends.  `System.loaded` holds the loads that have had their
turn, with what came of each.  A section calls the store at most once and looks at nothing but the
catalog before and after that call, so a write by another process in the middle of a section is the
same as one right before it or right after it.  A process that ends between its write and the change
of its catalog is one that ends right after the section, because its catalog is lost.

`System.step_changes` says once what an event can do to the catalog and to the store,
`System.step_changes_sync` what it can do to the state of the initial load, and
`System.run_induction` carries an invariant from the events to the runs.
-/

set_option autoImplicit false

namespace VolumeBroker

namespace Broker

/-- A load reads a snapshot exactly when no failure meets it, the store can be read and what it
holds makes sense. -/
theorem readSnapshot_eq_ok_iff {b : Broker} {faults : Faults} {snapshot : Snapshot} :
    b.readSnapshot faults = .ok snapshot ↔
      faults.load = none ∧ b.store.load = .ok snapshot ∧ snapshot.Valid := by
  unfold readSnapshot
  cases faults.load with
  | some e => simp
  | none =>
    cases b.store.load with
    | error e => simp
    | ok s =>
      cases hcheck : s.check with
      | ok _ =>
        have hvalid := Snapshot.check_eq_ok_iff.mp hcheck
        simp only [hcheck, Except.ok.injEq, true_and]
        constructor
        · rintro rfl
          exact ⟨rfl, hvalid⟩
        · exact And.left
      | error fault =>
        have hinvalid : ¬ s.Valid := Snapshot.not_valid_of_check hcheck
        simp only [hcheck, reduceCtorEq, Except.ok.injEq, true_and, false_iff]
        rintro ⟨rfl, hvalid⟩
        exact hinvalid hvalid

/-- A decision that is carried out changes nothing, or a record is written and the catalog takes
it. -/
theorem carryOut_changes {α : Type} (b : Broker) (faults : Faults) (decision : Decision α) :
    (b.carryOut faults decision).2 = b ∨
      ∃ (nqn : String) (a : Allocation) (answer : α), decision = .commit nqn a answer ∧
        faults.save = none ∧ (b.carryOut faults decision).2 =
          { b with store := b.store.put nqn a, catalog := b.catalog.assign nqn a } := by
  unfold carryOut
  cases decision with
  | settled answer => exact .inl rfl
  | commit nqn a answer =>
    cases hsave : faults.save with
    | some e => exact .inl rfl
    | none => exact .inr ⟨nqn, a, answer, rfl, rfl, rfl⟩

/-- A decision that is carried out leaves the synchronisation alone. -/
theorem sync_carryOut {α : Type} (b : Broker) (faults : Faults) (decision : Decision α) :
    (b.carryOut faults decision).2.sync = b.sync := by
  rcases b.carryOut_changes faults decision with hsame | ⟨_, _, _, _, _, hbroker⟩
  · rw [hsame]
  · rw [hbroker]

/-- A load leaves it alone, until its end is announced. -/
theorem sync_loadSnapshot (b : Broker) (faults : Faults) :
    (b.loadSnapshot faults).2.sync = b.sync := by
  unfold loadSnapshot
  split <;> rfl

/-- What an allocation leaves behind is what its decision leaves when it has been carried out. -/
theorem allocate_snd (b : Broker) (faults : Faults) (volume : String) :
    (b.allocate faults volume).2 = (b.carryOut faults (b.catalog.allocate volume)).2 := by
  unfold allocate
  split <;> next h => rw [h]

end Broker

/-- A broker with the loads of its process that have had their turn in the catalog. -/
structure System where
  broker : Broker
  /-- What came of each load that has had its turn, the last one first. -/
  loaded : List (Nat × LoadOutcome) := []

namespace System

/-- Something that happens to a broker or to its store. -/
inductive Event
  /-- Somebody asks for the snapshot. -/
  | enterSync
  /-- A load has its turn in the catalog. -/
  | load (number : Nat) (faults : Faults)
  /-- A load that has had its turn ends. -/
  | finishLoad (number : Nat)
  /-- Somebody who waited for a load sees how it ended. -/
  | leaveSync (number : Nat)
  /-- The findings of a discovery are merged. -/
  | merge (found : List Descriptor)
  /-- Somebody asks for a device. -/
  | allocate (faults : Faults) (volume : String)
  /-- Somebody gives a device back. -/
  | release (faults : Faults) (nqn : String)
  /-- The lock of a volume is taken, unless somebody holds it. -/
  | lock (key : String)
  /-- The lock of a volume is given back. -/
  | unlock (key : String)
  /-- Another process writes records to the store. -/
  | write (records : Snapshot)
  /-- Another process puts texts into the store. -/
  | writeTexts (texts : Std.ExtTreeMap String String)
  /-- The process of the broker ends and a new one begins. -/
  | restart

/-- The store is written to by somebody else. -/
def Event.isForeign : Event → Bool
  | .write _ => true
  | .writeTexts _ => true
  | _ => false

/-- A new broker on a store. -/
def start (store : Store) : System := { broker := Broker.start store }

/-- Whether a load is under way that has not had its turn. -/
def awaitsTurn (s : System) (number : Nat) : Bool :=
  s.broker.sync.isUnderWay number && (s.loaded.lookup number).isNone

/-- What an event makes of a broker.  An event that cannot happen changes nothing. -/
def step (s : System) : Event → System
  | .enterSync => { s with broker := s.broker.enterSync.2 }
  | .load number faults =>
    if s.awaitsTurn number then
      let (outcome, broker) := s.broker.loadSnapshot faults
      ⟨broker, (number, outcome) :: s.loaded⟩
    else s
  | .finishLoad number =>
    match s.loaded.lookup number with
    | none => s
    | some outcome =>
      if s.broker.sync.isUnderWay number then
        { s with broker := s.broker.finishLoad number outcome }
      else s
  | .leaveSync number =>
    match s.broker.sync.outcome? number with
    | none => s
    | some outcome => { s with broker := s.broker.leaveSync number outcome }
  | .merge found => { s with broker := (s.broker.mergeFound found).2 }
  | .allocate faults volume => { s with broker := (s.broker.allocate faults volume).2 }
  | .release faults nqn => { s with broker := (s.broker.release faults nqn).2 }
  | .lock key => { s with broker := (s.broker.lock? key).getD s.broker }
  | .unlock key => { s with broker := s.broker.unlock key }
  | .write records => { s with broker.store := s.broker.store.save records }
  | .writeTexts texts => { s with broker.store := s.broker.store.reopen texts }
  | .restart => start s.broker.store

/-- A load whose turn it is runs, and its outcome is noted. -/
theorem step_load_of_awaitsTurn {s : System} {number : Nat} (h : s.awaitsTurn number = true)
    (faults : Faults) :
    s.step (.load number faults) = ⟨(s.broker.loadSnapshot faults).2,
      (number, (s.broker.loadSnapshot faults).1) :: s.loaded⟩ := if_pos h

/-- Any other load is no event at all. -/
theorem step_load_of_not_awaitsTurn {s : System} {number : Nat} (h : ¬ s.awaitsTurn number = true)
    (faults : Faults) : s.step (.load number faults) = s := if_neg h

/-- The system after a number of events. -/
def run (s : System) (events : List Event) : System := events.foldl step s

/-- A history can be gone through in two parts. -/
theorem run_append (s : System) (first second : List Event) :
    s.run (first ++ second) = (s.run first).run second := List.foldl_append ..

/-- Whether the present process has loaded the snapshot. -/
def HasLoaded (s : System) : Prop := ∃ number : Nat, (number, .ok ()) ∈ s.loaded

/-- What every event of a kind keeps, a run of such events keeps. -/
theorem run_induction {P : System → Prop} (allowed : Event → Prop)
    (hstep : ∀ (s : System) (e : Event), allowed e → P s → P (s.step e)) {events : List Event}
    (hevents : ∀ e ∈ events, allowed e) {s : System} (hs : P s) : P (s.run events) := by
  induction events generalizing s with
  | nil => exact hs
  | cons e events ih =>
    have hfirst : P (s.step e) := hstep s e (hevents e List.mem_cons_self) hs
    exact ih (fun e' he' => hevents e' (List.mem_cons_of_mem e he')) hfirst

/-! ## What an event can do -/

/-- The ways in which an event can change the catalog, the store and the loads. -/
inductive Change (s t : System) : Event → Prop
  /-- The catalog and the store stay as they are, and no load succeeds. -/
  | quiet {e : Event} (hcatalog : t.broker.catalog = s.broker.catalog)
      (hstore : t.broker.store = s.broker.store) (hloaded : t.HasLoaded ↔ s.HasLoaded) :
      Change s t e
  | restored {number : Nat} {faults : Faults} {snapshot : Snapshot}
      (hread : s.broker.store.load = .ok snapshot) (hvalid : snapshot.Valid)
      (hcatalog : t.broker.catalog = s.broker.catalog.overlay snapshot)
      (hstore : t.broker.store = s.broker.store) : Change s t (.load number faults)
  /-- The findings of a discovery are merged. -/
  | merged {found : List Descriptor}
      (hcatalog : t.broker.catalog = s.broker.catalog.merge found)
      (hstore : t.broker.store = s.broker.store) (hloaded : t.loaded = s.loaded) :
      Change s t (.merge found)
  | bound {faults : Faults} {volume : String} {d : Device} (hsave : faults.save = none)
      (howned : s.broker.catalog.ownedBy? volume = none)
      (hfirst : s.broker.catalog.firstAllocatable? = some d)
      (hcatalog : t.broker.catalog = s.broker.catalog.assign d.nqn (.owned volume))
      (hstore : t.broker.store = s.broker.store.put d.nqn (.owned volume))
      (hloaded : t.loaded = s.loaded) : Change s t (.allocate faults volume)
  | freed {faults : Faults} {nqn volume : String} (hsave : faults.save = none)
      (howned : s.broker.catalog.allocation? nqn = some (.owned volume))
      (hcatalog : t.broker.catalog = s.broker.catalog.assign nqn .free)
      (hstore : t.broker.store = s.broker.store.put nqn .free)
      (hloaded : t.loaded = s.loaded) : Change s t (.release faults nqn)
  /-- Another process writes, which drops no name from the store. -/
  | written {e : Event} (hforeign : e.isForeign = true)
      (hcatalog : t.broker.catalog = s.broker.catalog)
      (hstore : ∀ nqn : String, s.broker.store.Names nqn → t.broker.store.Names nqn)
      (hloaded : t.loaded = s.loaded) : Change s t e
  /-- A new broker begins on the store. -/
  | restarted (h : t = start s.broker.store) : Change s t .restart

/-- Whether the snapshot has been loaded depends on the outcomes of the loads alone. -/
theorem hasLoaded_congr {s t : System} (h : t.loaded = s.loaded) : t.HasLoaded ↔ s.HasLoaded := by
  unfold HasLoaded
  rw [h]

/-- One more load that failed makes no difference to whether the snapshot has been loaded. -/
theorem hasLoaded_cons_error {broker : Broker} {number : Nat} {e : SyncError}
    {loaded : List (Nat × LoadOutcome)} :
    HasLoaded ⟨broker, (number, .error e) :: loaded⟩ ↔ HasLoaded ⟨broker, loaded⟩ := by
  simp [HasLoaded]

/-- There is nothing else that an event can change. -/
theorem step_changes (s : System) (e : Event) : Change s (s.step e) e := by
  cases e with
  | enterSync => exact .quiet rfl rfl Iff.rfl
  | load number faults =>
    by_cases hturn : s.awaitsTurn number = true
    · rw [step_load_of_awaitsTurn hturn]
      unfold Broker.loadSnapshot
      cases hread : s.broker.readSnapshot faults with
      | error e => exact .quiet rfl rfl hasLoaded_cons_error
      | ok snapshot =>
        obtain ⟨-, hload, hvalid⟩ := Broker.readSnapshot_eq_ok_iff.mp hread
        exact .restored hload hvalid rfl rfl
    · rw [step_load_of_not_awaitsTurn hturn]
      exact .quiet rfl rfl Iff.rfl
  | finishLoad number =>
    simp only [step]
    split
    · exact .quiet rfl rfl Iff.rfl
    · split <;> exact .quiet rfl rfl Iff.rfl
  | leaveSync number =>
    simp only [step]
    split <;> exact .quiet rfl rfl Iff.rfl
  | merge found => exact .merged rfl rfl rfl
  | allocate faults volume =>
    simp only [step, Broker.allocate_snd]
    rcases s.broker.carryOut_changes faults (s.broker.catalog.allocate volume) with
      hsame | ⟨nqn, a, answer, hcommit, hsave, hbroker⟩
    · rw [hsame]
      exact .quiet rfl rfl Iff.rfl
    -- A record is to be written only for a volume without a device, and for the first one free.
    · obtain ⟨howned, d, hfirst, rfl, rfl, -⟩ := Catalog.allocate_eq_commit_iff.mp hcommit
      rw [hbroker]
      exact .bound hsave howned hfirst rfl rfl rfl
  | release faults nqn =>
    simp only [step, Broker.release]
    rcases s.broker.carryOut_changes faults (s.broker.catalog.release nqn) with
      hsame | ⟨k, a, answer, hcommit, hsave, hbroker⟩
    · rw [hsame]
      exact .quiet rfl rfl Iff.rfl
    · obtain ⟨⟨volume, howned⟩, rfl, rfl, -⟩ := Catalog.release_eq_commit_iff.mp hcommit
      rw [hbroker]
      exact .freed hsave howned rfl rfl rfl
  | lock key =>
    simp only [step, Broker.lock?]
    cases s.broker.locks.tryAcquire key <;> exact .quiet rfl rfl Iff.rfl
  | unlock key => exact .quiet rfl rfl Iff.rfl
  | write records => exact .written rfl rfl (fun _ h => h.save records) rfl
  | writeTexts texts => exact .written rfl rfl (fun _ h => h.reopen texts) rfl
  | restart => exact .restarted rfl

/-- The ways in which an event can change the state of the initial load and the loads that have had
their turn. -/
inductive SyncChange (s t : System) : Event → Prop
  | quiet {e : Event} (hsync : t.broker.sync = s.broker.sync) (hloaded : t.loaded = s.loaded) :
      SyncChange s t e
  | begun (hphase : s.broker.sync.phase = .notSynced)
      (hsync : t.broker.sync = { s.broker.sync with
        phase := .loading s.broker.sync.begun, begun := s.broker.sync.begun + 1 })
      (hloaded : t.loaded = s.loaded) : SyncChange s t .enterSync
  | turned {number : Nat} {faults : Faults} {outcome : LoadOutcome}
      (hturn : s.awaitsTurn number = true) (hsync : t.broker.sync = s.broker.sync)
      (hloaded : t.loaded = (number, outcome) :: s.loaded) : SyncChange s t (.load number faults)
  /-- A load ends, which settles the state if a load is awaited. -/
  | finished {number : Nat} {outcome : LoadOutcome} (hturned : (number, outcome) ∈ s.loaded)
      (hended : t.broker.sync.ended = (number, outcome) :: s.broker.sync.ended)
      (hbegun : t.broker.sync.begun = s.broker.sync.begun)
      (hphase : t.broker.sync.phase = .after outcome ∨
        (t.broker.sync.phase = s.broker.sync.phase ∧
          ∀ k : Nat, s.broker.sync.phase ≠ .loading k))
      (hloaded : t.loaded = s.loaded) : SyncChange s t (.finishLoad number)
  /-- Somebody settles the state who sees how a load has ended. -/
  | settled {number : Nat} {outcome : LoadOutcome}
      (hseen : s.broker.sync.outcome? number = some outcome)
      (hsync : t.broker.sync = { s.broker.sync with phase := .after outcome })
      (hloaded : t.loaded = s.loaded) : SyncChange s t (.leaveSync number)
  /-- A new broker begins on the store. -/
  | restarted (h : t = start s.broker.store) : SyncChange s t .restart

/-- An outcome that is found under a number is among the outcomes. -/
theorem mem_of_lookup {loads : List (Nat × LoadOutcome)} {number : Nat} {outcome : LoadOutcome}
    (h : loads.lookup number = some outcome) : (number, outcome) ∈ loads := by
  obtain ⟨before, after, rfl, -⟩ := List.lookup_eq_some_iff.mp h
  simp

/-- There is nothing else that an event can change about the synchronisation. -/
theorem step_changes_sync (s : System) (e : Event) : SyncChange s (s.step e) e := by
  cases e with
  | enterSync =>
    cases hphase : s.broker.sync.phase with
    | notSynced => exact .begun hphase (by rw [step, Broker.enterSync_of_notSynced hphase]) rfl
    | synced => exact .quiet (by rw [step, Broker.enterSync_of_synced hphase]) rfl
    | loading number => exact .quiet (by rw [step, Broker.enterSync_of_loading hphase]) rfl
  | load number faults =>
    by_cases hturn : s.awaitsTurn number = true
    · rw [step_load_of_awaitsTurn hturn]
      exact .turned hturn (s.broker.sync_loadSnapshot faults) rfl
    · rw [step_load_of_not_awaitsTurn hturn]
      exact .quiet rfl rfl
  | finishLoad number =>
    simp only [step]
    split
    · exact .quiet rfl rfl
    · next outcome hlookup =>
      split
      · refine .finished (mem_of_lookup hlookup) rfl rfl ?_ rfl
        show (s.broker.sync.finish number outcome).phase = _ ∨
          ((s.broker.sync.finish number outcome).phase = _ ∧ _)
        unfold Sync.finish
        cases s.broker.sync.phase <;> simp
      · exact .quiet rfl rfl
  | leaveSync number =>
    simp only [step]
    split
    · exact .quiet rfl rfl
    · next outcome hseen =>
      by_cases hawaited : s.broker.sync.phase = .loading number
      · exact .settled hseen (if_pos hawaited) rfl
      · exact .quiet (if_neg hawaited) rfl
  | merge found => exact .quiet rfl rfl
  | allocate faults volume =>
    refine .quiet ?_ rfl
    simp only [step, Broker.allocate_snd]
    exact s.broker.sync_carryOut faults _
  | release faults nqn => exact .quiet (s.broker.sync_carryOut faults _) rfl
  | lock key =>
    refine .quiet ?_ rfl
    simp only [step, Broker.lock?]
    cases s.broker.locks.tryAcquire key <;> rfl
  | unlock key => exact .quiet rfl rfl
  | write records => exact .quiet rfl rfl
  | writeTexts texts => exact .quiet rfl rfl
  | restart => exact .restarted rfl

/-- A load that has succeeded is not forgotten while the process goes on. -/
theorem HasLoaded.step {s : System} (h : s.HasLoaded) {e : Event} (hlife : e ≠ .restart) :
    (s.step e).HasLoaded := by
  obtain ⟨number, hmem⟩ := h
  refine ⟨number, ?_⟩
  cases s.step_changes_sync e with
  | quiet _ hloaded | begun _ _ hloaded | finished _ _ _ _ hloaded | settled _ _ hloaded =>
    exact hloaded ▸ hmem
  | turned _ _ hloaded => exact hloaded ▸ List.mem_cons_of_mem _ hmem
  | restarted _ => exact absurd rfl hlife

/-- One event leaves each device under its own name. -/
theorem named_step {s : System} (h : s.broker.catalog.Named) (e : Event) :
    (s.step e).broker.catalog.Named := by
  cases s.step_changes e with
  | quiet hcatalog _ _ => exact hcatalog ▸ h
  | @restored _ _ snapshot _ _ hcatalog _ => exact hcatalog ▸ h.overlay snapshot
  | merged hcatalog _ _ => exact hcatalog ▸ h.merge _
  | bound _ _ _ hcatalog _ _ => exact hcatalog ▸ h.assign _ _
  | freed _ _ hcatalog _ _ => exact hcatalog ▸ h.assign _ _
  | written _ hcatalog _ _ => exact hcatalog ▸ h
  | restarted hstart =>
    intro nqn d hd
    simp [hstart, start, Broker.start] at hd

end System

end VolumeBroker
