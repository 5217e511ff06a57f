import VolumeBroker.Broker

/-!
# Loads and their callers

A load is a task of its own.  It waits for the catalog, calls the store, lays what it was given over
the catalog, leaves the catalog and settles the state of the initial load; no caller can stop it.  A
caller enters, waits for the load that it joined or began, and settles the state once more when it
sees the outcome; or it gives up.  Here each of these is an event of its own, and between any two of
them others may come, also those who use the catalog or write to the store for other reasons.

`Gathering.run_load` says that a load which nobody disturbs is `Broker.loadSnapshot`, and
`Gathering.step_changes` what an event can do to the state of the initial load, the loads and the
callers.

Every load here goes its way to the end, and so what a caller settles has been settled already.  A
load whose task is gone before it has settled the state is no event of these runs; `Gathering.Fate`
adds it, and there the callers are needed.
-/

set_option autoImplicit false

namespace VolumeBroker

/-- How far a load has come. -/
inductive LoadStage
  /-- It waits for the catalog. -/
  | waiting
  /-- It is in the catalog and is to call the store. -/
  | reading
  /-- The store has answered, and the load is still in the catalog. -/
  | applying (answer : Except SyncError Snapshot)
  /-- It has left the catalog and is to settle the state. -/
  | settling (outcome : LoadOutcome)
  | ended (outcome : LoadOutcome)

namespace LoadStage

/-- The load has settled the state. -/
def hasEnded : LoadStage → Bool
  | .ended _ => true
  | _ => false

/-- The load keeps everybody else out of the catalog. -/
def inCatalog : LoadStage → Bool
  | .reading => true
  | .applying _ => true
  | _ => false

/-- How a load ends, which is certain once the store has answered. -/
def outcome? : LoadStage → Option LoadOutcome
  | .applying answer => some (answer.map fun _ => ())
  | .settling outcome => some outcome
  | .ended outcome => some outcome
  | _ => none

/-- The state that loads lead to, given in the order in which they began. -/
def phase (loads : List LoadStage) : SyncPhase :=
  match loads.getLast? with
  | none => .notSynced
  | some (.ended outcome) => .after outcome
  | some _ => .loading (loads.length - 1)

/-- The last load is the one with the last number. -/
theorem getLast?_of_last {loads : List LoadStage} {n : Nat} {stage : LoadStage}
    (hlast : n + 1 = loads.length) (h : loads[n]? = some stage) : loads.getLast? = some stage := by
  rw [List.getLast?_eq_getElem?, ← hlast, Nat.add_sub_cancel]
  exact h

/-- While a new load waits, the state is that of loading, with its number. -/
theorem phase_append_waiting (loads : List LoadStage) :
    phase (loads ++ [.waiting]) = .loading loads.length := by
  simp [phase]

/-- When the last load has ended, the state is what its outcome makes of it. -/
theorem phase_of_last_ended {loads : List LoadStage} {n : Nat} {outcome : LoadOutcome}
    (hlast : n + 1 = loads.length) (h : loads[n]? = some (.ended outcome)) :
    phase loads = .after outcome := by
  unfold phase
  rw [getLast?_of_last hlast h]

/-- While the last load is under way, the state is that of loading. -/
theorem phase_of_last_under_way {loads : List LoadStage} {n : Nat} {stage : LoadStage}
    (hlast : n + 1 = loads.length) (h : loads[n]? = some stage) (hstage : stage.hasEnded = false) :
    phase loads = .loading n := by
  have hn : loads.length - 1 = n := by omega
  unfold phase
  rw [getLast?_of_last hlast h, hn]
  cases stage with
  | ended outcome => simp [hasEnded] at hstage
  | _ => rfl

/-- The load that is awaited is the last one, and it has not ended. -/
theorem under_way_of_phase_eq_loading {loads : List LoadStage} {n : Nat}
    (h : phase loads = .loading n) :
    n + 1 = loads.length ∧
      ∃ stage : LoadStage, loads[n]? = some stage ∧ stage.hasEnded = false := by
  unfold phase at h
  split at h
  · cases h
  · next outcome hlast => cases outcome <;> cases h
  · next stage hunder hlast =>
    have hlength : 0 < loads.length := by
      apply List.length_pos_iff.mpr
      rintro rfl
      cases hlast
    have hn : loads.length - 1 = n := SyncPhase.loading.inj h
    rw [List.getLast?_eq_getElem?, hn] at hlast
    refine ⟨by omega, stage, hlast, ?_⟩
    cases stage with
    | ended outcome => exact absurd rfl (hunder outcome)
    | _ => rfl

/-- If no load is under way and the snapshot is not loaded, the last load has failed. -/
theorem failed_of_phase_eq_notSynced {loads : List LoadStage} (h : phase loads = .notSynced)
    {n : Nat} (hlast : n + 1 = loads.length) :
    ∃ e : SyncError, loads[n]? = some (.ended (.error e)) := by
  have hn : loads.length - 1 = n := by omega
  unfold phase at h
  rw [List.getLast?_eq_getElem?, hn] at h
  split at h
  · next hnone =>
    have hge : loads.length ≤ n := List.getElem?_eq_none_iff.mp hnone
    omega
  · next outcome hload =>
    cases outcome with
    | ok _ => cases h
    | error e => exact ⟨e, hload⟩
  · cases h

/-- If the snapshot is loaded, some load has succeeded. -/
theorem succeeded_of_phase_eq_synced {loads : List LoadStage} (h : phase loads = .synced) :
    ∃ n : Nat, loads[n]? = some (.ended (.ok ())) := by
  unfold phase at h
  split at h
  · cases h
  · next outcome hlast =>
    rw [List.getLast?_eq_getElem?] at hlast
    cases outcome with
    | ok _ => exact ⟨_, hlast⟩
    | error e => cases h
  · cases h

/-- A new load does not change which loads have ended. -/
theorem ended_append_waiting_iff {loads : List LoadStage} {n : Nat} {outcome : LoadOutcome} :
    (loads ++ [.waiting])[n]? = some (.ended outcome) ↔ loads[n]? = some (.ended outcome) := by
  rw [List.getElem?_append]
  split
  · exact Iff.rfl
  · next hn =>
    have hnone : loads[n]? = none := List.getElem?_eq_none (by omega)
    rw [hnone]
    cases n - loads.length <;> simp

end LoadStage

/-- What has become of a caller. -/
inductive CallerStage
  | waiting
  | returned (outcome : LoadOutcome)
  /-- It has stopped waiting. -/
  | abandoned

/-- Somebody who asks for the snapshot. -/
structure Caller where
  /-- What it met when it entered. -/
  entry : SyncEntry
  stage : CallerStage

/-- A caller that has just entered: it returns at once if there is nothing to wait for. -/
def Caller.newcomer : SyncEntry → Caller
  | .ready => ⟨.ready, .returned (.ok ())⟩
  | .awaits load => ⟨.awaits load, .waiting⟩

/-- Lays the answer of the store over the catalog, if it is a snapshot. -/
def Broker.applySnapshot (b : Broker) : Except SyncError Snapshot → Broker
  | .error _ => b
  | .ok s => { b with catalog := b.catalog.overlay s }

/-- A broker with its loads and all who have asked for them. -/
structure Gathering where
  broker : Broker
  loads : List LoadStage := []
  callers : List Caller := []
  /-- Whether somebody who is not a load is in the catalog. -/
  occupied : Bool := false
  /-- How often the store has been called for its snapshot. -/
  reads : Nat := 0

namespace Gathering

/-- What can happen next. -/
inductive Event
  /-- Somebody asks for the snapshot. -/
  | enter
  /-- A caller sees the outcome of its load, settles the state and returns. -/
  | leave (i : Nat)
  /-- A caller stops waiting. -/
  | abandon (i : Nat)
  /-- A load gets the catalog. -/
  | lock (n : Nat)
  /-- A load calls the store. -/
  | read (n : Nat) (faults : Faults)
  /-- A load lays what it was given over the catalog and leaves the catalog. -/
  | apply (n : Nat)
  /-- A load settles the state and ends. -/
  | settle (n : Nat)
  /-- Somebody else gets the catalog. -/
  | occupy
  /-- Somebody else leaves the catalog like this. -/
  | vacate (catalog : Catalog)
  /-- Somebody leaves the store like this. -/
  | write (store : Store)

/-- A broker that has just begun, with no loads and no callers. -/
def start (store : Store) : Gathering := { broker := Broker.start store }

/-- The state of the initial load. -/
def phase (g : Gathering) : SyncPhase := g.broker.sync.phase

/-- Nobody is in the catalog. -/
def catalogFree (g : Gathering) : Bool := !g.occupied && g.loads.all (!·.inCatalog)

/-- What an event makes of a gathering.  An event that cannot happen changes nothing. -/
def step (g : Gathering) : Event → Gathering
  | .enter =>
    let (entry, broker) := g.broker.enterSync
    { g with
      broker
      loads := if g.phase = .notSynced then g.loads ++ [.waiting] else g.loads
      callers := g.callers ++ [.newcomer entry] }
  | .leave i =>
    match g.callers[i]? with
    | some ⟨.awaits n, .waiting⟩ =>
      match g.broker.sync.outcome? n with
      | none => g
      | some outcome =>
        { g with
          broker := g.broker.leaveSync n outcome
          callers := g.callers.set i ⟨.awaits n, .returned outcome⟩ }
    | _ => g
  | .abandon i =>
    match g.callers[i]? with
    | some ⟨entry, .waiting⟩ => { g with callers := g.callers.set i ⟨entry, .abandoned⟩ }
    | _ => g
  | .lock n =>
    match g.loads[n]? with
    | some .waiting => if g.catalogFree then { g with loads := g.loads.set n .reading } else g
    | _ => g
  | .read n faults =>
    match g.loads[n]? with
    | some .reading =>
      { g with
        loads := g.loads.set n (.applying (g.broker.readSnapshot faults))
        reads := g.reads + 1 }
    | _ => g
  | .apply n =>
    match g.loads[n]? with
    | some (.applying answer) =>
      { g with
        broker := g.broker.applySnapshot answer
        loads := g.loads.set n (.settling (answer.map fun _ => ())) }
    | _ => g
  | .settle n =>
    match g.loads[n]? with
    | some (.settling outcome) =>
      { g with broker := g.broker.finishLoad n outcome, loads := g.loads.set n (.ended outcome) }
    | _ => g
  | .occupy => if g.catalogFree then { g with occupied := true } else g
  | .vacate catalog =>
    if g.occupied then { g with broker.catalog := catalog, occupied := false } else g
  | .write store => { g with broker.store := store }

/-- The gathering after a number of events. -/
def run (g : Gathering) (events : List Event) : Gathering := events.foldl step g

/-- A load has begun and has not settled the state yet. -/
def InFlight (g : Gathering) (n : Nat) : Prop :=
  ∃ stage : LoadStage, g.loads[n]? = some stage ∧ stage.hasEnded = false

/-- The store has given a load a snapshot that makes sense. -/
def Succeeded (g : Gathering) (n : Nat) : Prop :=
  ∃ stage : LoadStage, g.loads[n]? = some stage ∧ stage.outcome? = some (.ok ())

/-- A load that nobody disturbs does what `Broker.loadSnapshot` does in one go. -/
theorem run_load {g : Gathering} {n : Nat} (hload : g.loads[n]? = some .waiting)
    (hfree : g.catalogFree = true) (faults : Faults) :
    g.run [.lock n, .read n faults, .apply n] =
      { g with
        broker := (g.broker.loadSnapshot faults).2
        loads := g.loads.set n (.settling (g.broker.loadSnapshot faults).1)
        reads := g.reads + 1 } := by
  have hn : n < g.loads.length := (List.getElem?_eq_some_iff.mp hload).1
  have hlock : g.step (.lock n) = { g with loads := g.loads.set n .reading } := by
    simp only [step, hload, hfree, if_true]
  have hread : (g.step (.lock n)).step (.read n faults) =
      { g with
        loads := g.loads.set n (.applying (g.broker.readSnapshot faults))
        reads := g.reads + 1 } := by
    rw [hlock]
    simp [step, hn]
  show ((g.step (.lock n)).step (.read n faults)).step (.apply n) = _
  rw [hread]
  unfold Broker.loadSnapshot
  cases g.broker.readSnapshot faults <;> simp [step, hn, Broker.applySnapshot, Except.map]

/-! ## What an event can do -/

/-- The ways in which an event can change the state of the initial load, the loads and the
callers. -/
inductive Change (g h : Gathering) : Prop
  | quiet (hsync : h.broker.sync = g.broker.sync) (hloads : h.loads = g.loads)
      (hcallers : h.callers = g.callers) (hreads : h.reads = g.reads)
  | joined (entry : SyncEntry) (hsync : h.broker.sync = g.broker.sync) (hloads : h.loads = g.loads)
      (hcallers : h.callers = g.callers ++ [.newcomer entry]) (hreads : h.reads = g.reads)
  | began (hphase : g.phase = .notSynced)
      (hsync : h.broker.sync = { g.broker.sync with
        phase := .loading g.broker.sync.begun, begun := g.broker.sync.begun + 1 })
      (hloads : h.loads = g.loads ++ [.waiting])
      (hcallers : h.callers = g.callers ++ [.newcomer (.awaits g.broker.sync.begun)])
      (hreads : h.reads = g.reads)
  /-- A load comes a step further and goes on. -/
  | moved (n : Nat) (before after : LoadStage) (hbefore : g.loads[n]? = some before)
      (hunder : before.hasEnded = false ∧ after.hasEnded = false)
      (houtcome : ∀ outcome : LoadOutcome, before.outcome? = some outcome →
        after.outcome? = some outcome)
      (hsync : h.broker.sync = g.broker.sync) (hloads : h.loads = g.loads.set n after)
      (hcallers : h.callers = g.callers)
      (hreads : before.outcome? ≠ none → h.reads = g.reads)
  /-- A load settles the state and ends. -/
  | settled (n : Nat) (outcome : LoadOutcome) (hbefore : g.loads[n]? = some (.settling outcome))
      (hsync : h.broker.sync = g.broker.sync.finish n outcome)
      (hloads : h.loads = g.loads.set n (.ended outcome)) (hcallers : h.callers = g.callers)
      (hreads : h.reads = g.reads)
  | left (i n : Nat) (outcome : LoadOutcome)
      (hcaller : g.callers[i]? = some ⟨.awaits n, .waiting⟩)
      (hseen : g.broker.sync.outcome? n = some outcome)
      (hsync : h.broker.sync = g.broker.sync.settle n outcome) (hloads : h.loads = g.loads)
      (hcallers : h.callers = g.callers.set i ⟨.awaits n, .returned outcome⟩)
      (hreads : h.reads = g.reads)
  /-- A caller stops waiting. -/
  | gaveUp (i : Nat) (entry : SyncEntry) (hcaller : g.callers[i]? = some ⟨entry, .waiting⟩)
      (hsync : h.broker.sync = g.broker.sync) (hloads : h.loads = g.loads)
      (hcallers : h.callers = g.callers.set i ⟨entry, .abandoned⟩) (hreads : h.reads = g.reads)

/-- There is nothing else that an event can change. -/
theorem step_changes (g : Gathering) (e : Event) : Change g (g.step e) := by
  cases e with
  | enter =>
    cases hphase : g.broker.sync.phase with
    | notSynced =>
      refine .began hphase ?_ ?_ ?_ rfl
      all_goals simp [step, phase, Broker.enterSync_of_notSynced, hphase]
    | loading n =>
      refine .joined (.awaits n) ?_ ?_ ?_ rfl
      all_goals simp [step, phase, Broker.enterSync_of_loading hphase, hphase]
    | synced =>
      refine .joined .ready ?_ ?_ ?_ rfl
      all_goals simp [step, phase, Broker.enterSync_of_synced, hphase]
  | leave i =>
    simp only [step]
    split
    · next n hcaller =>
      split
      · exact .quiet rfl rfl rfl rfl
      · next outcome hseen => exact .left i n outcome hcaller hseen rfl rfl rfl rfl
    · exact .quiet rfl rfl rfl rfl
  | abandon i =>
    simp only [step]
    split
    · next entry hcaller => exact .gaveUp i entry hcaller rfl rfl rfl rfl
    · exact .quiet rfl rfl rfl rfl
  | lock n =>
    simp only [step]
    split
    · next hload =>
      split
      · exact .moved n .waiting .reading hload ⟨rfl, rfl⟩ nofun rfl rfl rfl fun _ => rfl
      · exact .quiet rfl rfl rfl rfl
    · exact .quiet rfl rfl rfl rfl
  | read n faults =>
    simp only [step]
    split
    · next hload =>
      exact .moved n .reading _ hload ⟨rfl, rfl⟩ nofun rfl rfl rfl fun h => absurd rfl h
    · exact .quiet rfl rfl rfl rfl
  | apply n =>
    simp only [step]
    split
    · next answer hload =>
      refine .moved n (.applying answer) (.settling (answer.map fun _ => ())) hload ⟨rfl, rfl⟩
        (fun _ h => h) ?_ rfl rfl fun _ => rfl
      cases answer <;> rfl
    · exact .quiet rfl rfl rfl rfl
  | settle n =>
    simp only [step]
    split
    · next outcome hload => exact .settled n outcome hload rfl rfl rfl rfl
    · exact .quiet rfl rfl rfl rfl
  | occupy =>
    simp only [step]
    split <;> exact .quiet rfl rfl rfl rfl
  | vacate catalog =>
    simp only [step]
    split <;> exact .quiet rfl rfl rfl rfl
  | write store => exact .quiet rfl rfl rfl rfl

end Gathering

end VolumeBroker
