import VolumeBroker.Proofs.Gathering

/-!
# Callers share a load

What the state of the initial load says is fixed by the loads alone: `LoadStage.phase` reads it off
the last one, and all the ones before it have failed.  `Gathering.Coherent` is this invariant, with
what has become of the callers.  A success leaves nothing to begin, so it is the last load; a
failure leaves the state as it was before any load.  A caller that comes late to an outcome finds
the state settled by the load, and so it cannot touch a load that has begun since.
-/

set_option autoImplicit false

namespace VolumeBroker

/-- The state of the initial load says what the loads have come to. -/
structure Sync.Reflects (sync : Sync) (loads : List LoadStage) : Prop where
  begun : sync.begun = loads.length
  /-- Those who wait can see the outcomes of the loads that have ended, and no others. -/
  seen : ∀ (n : Nat) (outcome : LoadOutcome),
    sync.outcome? n = some outcome ↔ loads[n]? = some (.ended outcome)
  /-- Every load before the last one has failed. -/
  failed : ∀ n : Nat, n + 1 < loads.length →
    ∃ e : SyncError, loads[n]? = some (.ended (.error e))
  phase_eq : sync.phase = LoadStage.phase loads

namespace Sync.Reflects

variable {sync : Sync} {loads : List LoadStage}

/-- A load that has not failed is the last one. -/
theorem last_of_not_failed (h : sync.Reflects loads) {n : Nat} {stage : LoadStage}
    (hload : loads[n]? = some stage) (hstage : ∀ e : SyncError, stage ≠ .ended (.error e)) :
    n + 1 = loads.length := by
  have hn : n + 1 ≤ loads.length := (List.getElem?_eq_some_iff.mp hload).1
  rcases Nat.lt_or_eq_of_le hn with hlt | heq
  · obtain ⟨e, he⟩ := h.failed n hlt
    rw [hload] at he
    exact absurd (Option.some.inj he) (hstage e)
  · exact heq

/-- Only the last load can be under way: those before it have failed. -/
theorem last_of_under_way (h : sync.Reflects loads) {n : Nat} {stage : LoadStage}
    (hload : loads[n]? = some stage) (hstage : stage.hasEnded = false) : n + 1 = loads.length := by
  apply h.last_of_not_failed hload
  rintro e rfl
  cases hstage

/-- Who sees the outcome of a load settles nothing, because the load has done so. -/
theorem settle_eq (h : sync.Reflects loads) {n : Nat} {outcome : LoadOutcome}
    (hseen : sync.outcome? n = some outcome) : sync.settle n outcome = sync := by
  have hended : loads[n]? = some (.ended outcome) := (h.seen n outcome).mp hseen
  have hphase : sync.phase ≠ .loading n := by
    intro hloading
    have hloads : LoadStage.phase loads = .loading n := h.phase_eq ▸ hloading
    obtain ⟨-, stage, hstage, hunder⟩ := LoadStage.under_way_of_phase_eq_loading hloads
    rw [hended] at hstage
    rw [← Option.some.inj hstage] at hunder
    cases hunder
  exact if_neg hphase

/-- A load begins. -/
theorem enter (h : sync.Reflects loads) (hphase : sync.phase = .notSynced) :
    Reflects { sync with phase := .loading sync.begun, begun := sync.begun + 1 }
      (loads ++ [.waiting]) := by
  refine ⟨?_, fun n outcome => ?_, fun n hn => ?_, ?_⟩
  · rw [List.length_append, ← h.begun]
    rfl
  · rw [LoadStage.ended_append_waiting_iff]
    exact h.seen n outcome
  · rw [List.length_append, List.length_singleton] at hn
    have hfailed : ∃ e : SyncError, loads[n]? = some (.ended (.error e)) := by
      rcases Nat.lt_or_eq_of_le (Nat.le_of_lt_succ hn) with hlt | hlast
      · exact h.failed n hlt
      · exact LoadStage.failed_of_phase_eq_notSynced (h.phase_eq ▸ hphase) hlast
    obtain ⟨e, he⟩ := hfailed
    exact ⟨e, LoadStage.ended_append_waiting_iff.mpr he⟩
  · rw [LoadStage.phase_append_waiting, ← h.begun]

/-- A load comes a step further and goes on. -/
theorem move (h : sync.Reflects loads) {n : Nat} {before after : LoadStage}
    (hbefore : loads[n]? = some before) (hunder : before.hasEnded = false)
    (hafter : after.hasEnded = false) : sync.Reflects (loads.set n after) := by
  have hlast : n + 1 = loads.length := h.last_of_under_way hbefore hunder
  have hn : n < loads.length := by omega
  have hnew : (loads.set n after)[n]? = some after := List.getElem?_set_self hn
  have hlength : (loads.set n after).length = loads.length := List.length_set
  refine ⟨?_, fun k outcome => ?_, fun k hk => ?_, ?_⟩
  · rw [hlength]
    exact h.begun
  · rw [h.seen]
    by_cases hk : n = k
    · subst hk
      rw [hbefore, hnew]
      constructor
      · rintro ⟨⟩
        cases hunder
      · rintro ⟨⟩
        cases hafter
    · rw [List.getElem?_set_ne hk]
  · have hne : n ≠ k := by omega
    rw [List.getElem?_set_ne hne]
    exact h.failed k (hlength ▸ hk)
  · rw [h.phase_eq, LoadStage.phase_of_last_under_way hlast hbefore hunder,
      LoadStage.phase_of_last_under_way (hlength ▸ hlast) hnew hafter]

/-- The state awaits the load that is under way. -/
theorem phase_of_under_way (h : sync.Reflects loads) {n : Nat} {stage : LoadStage}
    (hload : loads[n]? = some stage) (hstage : stage.hasEnded = false) :
    sync.phase = .loading n := by
  have hlast : n + 1 = loads.length := h.last_of_under_way hload hstage
  rw [h.phase_eq, LoadStage.phase_of_last_under_way hlast hload hstage]

/-- A load that is under way settles the state and ends. -/
theorem finish (h : sync.Reflects loads) {n : Nat} {before : LoadStage}
    (hbefore : loads[n]? = some before) (hunder : before.hasEnded = false)
    (outcome : LoadOutcome) :
    (sync.finish n outcome).Reflects (loads.set n (.ended outcome)) := by
  have hlast : n + 1 = loads.length := h.last_of_under_way hbefore hunder
  have hn : n < loads.length := by omega
  have hnew : (loads.set n (.ended outcome))[n]? = some (.ended outcome) :=
    List.getElem?_set_self hn
  have hlength : (loads.set n (.ended outcome)).length = loads.length := List.length_set
  -- The state awaits this very load, so settling whatever is awaited settles this one.
  have hphase : sync.phase = .loading n := h.phase_of_under_way hbefore hunder
  refine ⟨?_, fun k o => ?_, fun k hk => ?_, ?_⟩
  · rw [hlength]
    exact h.begun
  · show ((n, outcome) :: sync.ended).lookup k = some o ↔ _
    rw [List.lookup_cons]
    by_cases hk : n = k
    · subst hk
      rw [hnew]
      simp
    · have hkey : (k == n) = false := by simpa using Ne.symm hk
      rw [hkey, List.getElem?_set_ne hk]
      exact h.seen k o
  · have hne : n ≠ k := by omega
    rw [List.getElem?_set_ne hne]
    exact h.failed k (hlength ▸ hk)
  · rw [LoadStage.phase_of_last_ended (hlength ▸ hlast) hnew]
    simp only [Sync.finish, hphase]

end Sync.Reflects

namespace Gathering

/-- What holds in every run of a gathering. -/
structure Coherent (g : Gathering) : Prop where
  reflects : g.broker.sync.Reflects g.loads
  /-- Who has returned found the snapshot loaded or has the outcome of its load. -/
  returned : ∀ c ∈ g.callers, ∀ outcome : LoadOutcome, c.stage = .returned outcome →
    (c.entry = .ready ∧ outcome = .ok ()) ∨
      ∃ n : Nat, c.entry = .awaits n ∧ g.loads[n]? = some (.ended outcome)

/-- At first there are no loads and no callers. -/
theorem coherent_start (store : Store) : (start store).Coherent where
  reflects := ⟨rfl, by simp [start, Broker.start, Sync.outcome?], by simp [start], rfl⟩
  returned := by simp [start]

/-- An event keeps it true what the state of the initial load says. -/
theorem reflects_step {g : Gathering} (h : g.broker.sync.Reflects g.loads) (e : Event) :
    (g.step e).broker.sync.Reflects (g.step e).loads := by
  cases g.step_changes e with
  | quiet hsync hloads _ _ | joined _ hsync hloads _ _ | gaveUp _ _ _ hsync hloads _ _ =>
    rw [hsync, hloads]
    exact h
  | left i n outcome _ hseen hsync hloads _ _ =>
    rw [hsync, hloads, h.settle_eq hseen]
    exact h
  | began hphase hsync hloads _ _ =>
    rw [hsync, hloads]
    exact h.enter hphase
  | moved n before after hbefore hunder _ hsync hloads _ _ =>
    rw [hsync, hloads]
    exact h.move hbefore hunder.1 hunder.2
  | settled n outcome hbefore hsync hloads _ _ =>
    rw [hsync, hloads]
    exact h.finish hbefore rfl outcome

/-- A load that has ended stays as it is. -/
theorem ended_step {g : Gathering} {n : Nat} {outcome : LoadOutcome}
    (h : g.loads[n]? = some (.ended outcome)) (e : Event) :
    (g.step e).loads[n]? = some (.ended outcome) := by
  -- The load that moves is still under way, so it is another one.
  have hset (k : Nat) (before after : LoadStage) (hbefore : g.loads[k]? = some before)
      (hunder : before.hasEnded = false) :
      (g.loads.set k after)[n]? = some (.ended outcome) := by
    have hne : k ≠ n := by
      rintro rfl
      rw [h] at hbefore
      rw [← Option.some.inj hbefore] at hunder
      cases hunder
    rw [List.getElem?_set_ne hne]
    exact h
  cases g.step_changes e with
  | quiet _ hloads _ _ | joined _ _ hloads _ _ | gaveUp _ _ _ _ hloads _ _
  | left _ _ _ _ _ _ hloads _ _ =>
    rw [hloads]
    exact h
  | began _ _ hloads _ _ =>
    rw [hloads]
    exact LoadStage.ended_append_waiting_iff.mpr h
  | moved k before after hbefore hunder _ _ hloads _ _ =>
    rw [hloads]
    exact hset k before after hbefore hunder.1
  | settled k _ hbefore _ hloads _ _ =>
    rw [hloads]
    exact hset k _ _ hbefore rfl

/-- Who returns on entering has found the snapshot loaded. -/
theorem returned_newcomer {entry : SyncEntry} {outcome : LoadOutcome}
    (h : (Caller.newcomer entry).stage = .returned outcome) :
    (Caller.newcomer entry).entry = .ready ∧ outcome = .ok () := by
  cases entry with
  | ready => exact ⟨rfl, (CallerStage.returned.inj h).symm⟩
  | awaits n => cases h

/-- Whoever is there after an event was there before, or has just entered, or has seen the outcome
of its load, or has stopped waiting. -/
theorem mem_callers_step {g : Gathering} {e : Event} {c : Caller} (hc : c ∈ (g.step e).callers) :
    c ∈ g.callers ∨ (∃ entry : SyncEntry, c = .newcomer entry) ∨
      (∃ (n : Nat) (outcome : LoadOutcome), g.broker.sync.outcome? n = some outcome ∧
        c = ⟨.awaits n, .returned outcome⟩) ∨ c.stage = .abandoned := by
  cases g.step_changes e with
  | quiet _ _ hcallers _ | moved _ _ _ _ _ _ _ _ hcallers _ | settled _ _ _ _ _ hcallers _ =>
    exact .inl (hcallers ▸ hc)
  | joined entry _ _ hcallers _ | began _ _ _ hcallers _ =>
    rw [hcallers] at hc
    rcases List.mem_append.mp hc with hold | hnew
    · exact .inl hold
    · exact .inr (.inl ⟨_, List.mem_singleton.mp hnew⟩)
  | left i n outcome _ hseen _ _ hcallers _ =>
    rw [hcallers] at hc
    rcases List.mem_or_eq_of_mem_set hc with hold | rfl
    · exact .inl hold
    · exact .inr (.inr (.inl ⟨n, outcome, hseen, rfl⟩))
  | gaveUp i entry _ _ _ hcallers _ =>
    rw [hcallers] at hc
    rcases List.mem_or_eq_of_mem_set hc with hold | rfl
    · exact .inl hold
    · exact .inr (.inr (.inr rfl))

/-- Whatever happens next, the state still says what the loads have come to. -/
theorem Coherent.step {g : Gathering} (h : g.Coherent) (e : Event) : (g.step e).Coherent := by
  refine ⟨reflects_step h.reflects e, fun c hc outcome hstage => ?_⟩
  rcases mem_callers_step hc with hold | ⟨entry, rfl⟩ | ⟨n, o, hseen, rfl⟩ | habandoned
  · rcases h.returned c hold outcome hstage with hready | ⟨n, hentry, hended⟩
    · exact .inl hready
    · exact .inr ⟨n, hentry, ended_step hended e⟩
  · exact .inl (returned_newcomer hstage)
  · have hended : g.loads[n]? = some (.ended outcome) := by
      rw [← CallerStage.returned.inj hstage]
      exact (h.reflects.seen n o).mp hseen
    exact .inr ⟨n, rfl, ended_step hended e⟩
  · rw [habandoned] at hstage
    cases hstage

/-- The state says what the loads have come to in every run. -/
theorem Coherent.run {g : Gathering} (h : g.Coherent) (events : List Event) :
    (g.run events).Coherent := by
  induction events generalizing g with
  | nil => exact h
  | cons e events ih => exact ih (h.step e)

/-! ## Success -/

/-- A load that goes on, this one or another, keeps the success that it has. -/
theorem Succeeded.of_set {g h : Gathering} {n k : Nat} {before after : LoadStage}
    (hsuccess : g.Succeeded n) (hbefore : g.loads[k]? = some before)
    (hloads : h.loads = g.loads.set k after)
    (hkept : ∀ outcome : LoadOutcome, before.outcome? = some outcome →
      after.outcome? = some outcome) : h.Succeeded n := by
  obtain ⟨stage, hload, houtcome⟩ := hsuccess
  have hn : n < g.loads.length := (List.getElem?_eq_some_iff.mp hload).1
  by_cases hk : k = n
  · subst hk
    obtain rfl : before = stage := Option.some.inj (hbefore ▸ hload)
    refine ⟨after, ?_, hkept _ houtcome⟩
    rw [hloads, List.getElem?_set_self hn]
  · refine ⟨stage, ?_, houtcome⟩
    rw [hloads, List.getElem?_set_ne hk]
    exact hload

/-- A load that has succeeded stays so, whatever happens next. -/
theorem Succeeded.step {g : Gathering} {n : Nat} (h : g.Succeeded n) (e : Event) :
    (g.step e).Succeeded n := by
  cases g.step_changes e with
  | quiet _ hloads _ _ | joined _ _ hloads _ _ | gaveUp _ _ _ _ hloads _ _
  | left _ _ _ _ _ _ hloads _ _ =>
    rw [Succeeded, hloads]
    exact h
  | began _ _ hloads _ _ =>
    obtain ⟨stage, hload, houtcome⟩ := h
    have hn : n < g.loads.length := (List.getElem?_eq_some_iff.mp hload).1
    refine ⟨stage, ?_, houtcome⟩
    rw [hloads, List.getElem?_append_left hn]
    exact hload
  | moved _ _ _ hbefore _ hkept _ hloads _ _ => exact h.of_set hbefore hloads hkept
  | settled _ _ hbefore _ hloads _ _ => exact h.of_set hbefore hloads fun _ hsame => hsame

/-- After a load that has succeeded no other begins. -/
theorem Coherent.last_of_succeeded {g : Gathering} (h : g.Coherent) {n : Nat}
    (hsuccess : g.Succeeded n) : n + 1 = g.loads.length := by
  obtain ⟨stage, hload, houtcome⟩ := hsuccess
  apply h.reflects.last_of_not_failed hload
  rintro e rfl
  cases houtcome

/-- When such a load has settled the state, the snapshot is loaded. -/
theorem Coherent.phase_of_ended {g : Gathering} (h : g.Coherent) {n : Nat}
    (hended : g.loads[n]? = some (.ended (.ok ()))) : g.phase = .synced := by
  have hlast : n + 1 = g.loads.length := h.reflects.last_of_not_failed hended nofun
  rw [phase, h.reflects.phase_eq, LoadStage.phase_of_last_ended hlast hended]
  rfl

/-- After a success the state is settled, or the load that succeeded is to settle it. -/
theorem Coherent.phase_of_succeeded {g : Gathering} (h : g.Coherent) {n : Nat}
    (hsuccess : g.Succeeded n) :
    (g.phase = .synced ∧ g.loads[n]? = some (.ended (.ok ()))) ∨ g.phase = .loading n := by
  have hlast : n + 1 = g.loads.length := h.last_of_succeeded hsuccess
  obtain ⟨stage, hload, houtcome⟩ := hsuccess
  cases hended : stage.hasEnded with
  | false =>
    right
    rw [phase, h.reflects.phase_eq, LoadStage.phase_of_last_under_way hlast hload hended]
  | true =>
    left
    cases stage with
    | ended outcome =>
      obtain rfl : outcome = .ok () := Option.some.inj houtcome
      exact ⟨h.phase_of_ended hload, hload⟩
    | _ => cases hended

/-- After a success no load begins and the store is not called again. -/
theorem Coherent.step_of_succeeded {g : Gathering} (h : g.Coherent) {n : Nat}
    (hsuccess : g.Succeeded n) (e : Event) :
    (g.step e).loads.length = g.loads.length ∧ (g.step e).reads = g.reads := by
  cases g.step_changes e with
  | quiet _ hloads _ hreads | joined _ _ hloads _ hreads | gaveUp _ _ _ _ hloads _ hreads
  | left _ _ _ _ _ _ hloads _ hreads =>
    exact ⟨by rw [hloads], hreads⟩
  | began hphase _ _ _ _ =>
    rcases h.phase_of_succeeded hsuccess with ⟨hsynced, -⟩ | hloading
    · rw [hphase] at hsynced
      cases hsynced
    · rw [hphase] at hloading
      cases hloading
  | moved k before after hbefore hunder _ _ hloads _ hreads =>
    refine ⟨by rw [hloads, List.length_set], hreads ?_⟩
    have hlast : k + 1 = g.loads.length := h.reflects.last_of_under_way hbefore hunder.1
    -- Only the last load moves, and that is the one that has succeeded.
    have hk : k = n := by
      have := h.last_of_succeeded hsuccess
      omega
    obtain ⟨stage, hload, houtcome⟩ := hsuccess
    obtain rfl : before = stage := by
      rw [hk, hload] at hbefore
      exact (Option.some.inj hbefore).symm
    rw [houtcome]
    simp
  | settled _ _ _ _ hloads _ hreads => exact ⟨by rw [hloads, List.length_set], hreads⟩

/-- Once a load has succeeded there are no further loads, and the store is not called again. -/
theorem Coherent.run_of_succeeded {g : Gathering} (h : g.Coherent) {n : Nat}
    (hsuccess : g.Succeeded n) (events : List Event) :
    (g.run events).Succeeded n ∧ (g.run events).loads.length = g.loads.length ∧
      (g.run events).reads = g.reads := by
  induction events generalizing g with
  | nil => exact ⟨hsuccess, rfl, rfl⟩
  | cons e events ih =>
    obtain ⟨hlength, hreads⟩ := h.step_of_succeeded hsuccess e
    obtain ⟨hlater, hlength', hreads'⟩ := ih (h.step e) (hsuccess.step e)
    exact ⟨hlater, hlength'.trans hlength, hreads'.trans hreads⟩

/-- How a load has ended does not change. -/
theorem ended_run {g : Gathering} {n : Nat} {outcome : LoadOutcome}
    (h : g.loads[n]? = some (.ended outcome)) (events : List Event) :
    (g.run events).loads[n]? = some (.ended outcome) := by
  induction events generalizing g with
  | nil => exact h
  | cons e events ih => exact ih (ended_step h e)

/-- A load that has succeeded has at most two steps to go, and then the state is settled. -/
theorem Coherent.phase_run_apply_settle {g : Gathering} (h : g.Coherent) {n : Nat}
    (hsuccess : g.Succeeded n) : (g.run [.apply n, .settle n]).phase = .synced := by
  have hlast : n + 1 = g.loads.length := h.last_of_succeeded hsuccess
  have hn : n < g.loads.length := by omega
  have hended : (g.run [.apply n, .settle n]).loads[n]? = some (.ended (.ok ())) := by
    obtain ⟨stage, hload, houtcome⟩ := hsuccess
    show ((g.step (.apply n)).step (.settle n)).loads[n]? = _
    cases stage with
    | waiting => cases houtcome
    | reading => cases houtcome
    | applying answer =>
      have hanswer : (answer.map fun _ => ()) = .ok () := Option.some.inj houtcome
      simp only [Gathering.step, hload, hanswer, List.getElem?_set_self, hn, List.length_set]
    | settling outcome =>
      obtain rfl : outcome = .ok () := Option.some.inj houtcome
      simp only [Gathering.step, hload, List.getElem?_set_self, hn]
    | ended outcome =>
      obtain rfl : outcome = .ok () := Option.some.inj houtcome
      exact ended_step (ended_step hload _) _
  exact (h.run _).phase_of_ended hended

/-! ## Callers -/

/-- A caller stays where it is and does not forget what it met when it entered. -/
theorem entry_step {g : Gathering} {i : Nat} {c : Caller} (h : g.callers[i]? = some c) (e : Event) :
    ∃ d : Caller, (g.step e).callers[i]? = some d ∧ d.entry = c.entry := by
  have hi : i < g.callers.length := (List.getElem?_eq_some_iff.mp h).1
  have hset (k : Nat) (old new : Caller) (hold : g.callers[k]? = some old)
      (hsame : new.entry = old.entry) :
      ∃ d : Caller, (g.callers.set k new)[i]? = some d ∧ d.entry = c.entry := by
    by_cases hk : k = i
    · subst hk
      obtain rfl : old = c := Option.some.inj (hold ▸ h)
      exact ⟨new, List.getElem?_set_self hi, hsame⟩
    · exact ⟨c, by rw [List.getElem?_set_ne hk, h], rfl⟩
  cases g.step_changes e with
  | quiet _ _ hcallers _ | moved _ _ _ _ _ _ _ _ hcallers _ | settled _ _ _ _ _ hcallers _ =>
    exact ⟨c, hcallers ▸ h, rfl⟩
  | joined _ _ _ hcallers _ | began _ _ _ hcallers _ =>
    exact ⟨c, by rw [hcallers, List.getElem?_append_left hi, h], rfl⟩
  | left k _ _ hcaller _ _ _ hcallers _ =>
    rw [hcallers]
    exact hset k _ _ hcaller rfl
  | gaveUp k _ hcaller _ _ hcallers _ =>
    rw [hcallers]
    exact hset k _ _ hcaller rfl

/-- Callers are not forgotten, nor what they met when they entered. -/
theorem entry_run {g : Gathering} {i : Nat} {c : Caller} (h : g.callers[i]? = some c)
    (events : List Event) :
    ∃ d : Caller, (g.run events).callers[i]? = some d ∧ d.entry = c.entry := by
  induction events generalizing g c with
  | nil => exact ⟨c, h, rfl⟩
  | cons e events ih =>
    obtain ⟨d, hd, hentry⟩ := entry_step h e
    obtain ⟨d', hd', hentry'⟩ := ih hd
    exact ⟨d', hd', hentry'.trans hentry⟩

/-- Who enters becomes the last of the callers. -/
theorem caller_step_enter (g : Gathering) :
    (g.step .enter).callers[g.callers.length]? = some (.newcomer g.broker.sync.enter.1) := by
  simp [step, Broker.enterSync]

/-- A newcomer is known by what it has met. -/
theorem entry_newcomer (entry : SyncEntry) : (Caller.newcomer entry).entry = entry := by
  cases entry <;> rfl

/-- Who has returned found the snapshot loaded when it entered, or has the outcome of the load that
was awaited then or that it began itself. -/
theorem Coherent.returned_of_entered {g : Gathering} (h : g.Coherent) (events : List Event)
    {c : Caller} {outcome : LoadOutcome}
    (hc : ((g.step .enter).run events).callers[g.callers.length]? = some c)
    (hstage : c.stage = .returned outcome) :
    (g.phase = .synced ∧ outcome = .ok ()) ∨
      ∃ n : Nat, (g.phase = .loading n ∨ g.phase = .notSynced ∧ n = g.loads.length) ∧
        ((g.step .enter).run events).loads[n]? = some (.ended outcome) := by
  obtain ⟨d, hd, hentered⟩ := entry_run g.caller_step_enter events
  obtain rfl : c = d := Option.some.inj (hc ▸ hd)
  rw [entry_newcomer] at hentered
  have hafter : ((g.step .enter).run events).Coherent := (h.step .enter).run events
  rcases hafter.returned c (List.mem_of_getElem? hc) outcome hstage with
    ⟨hready, hok⟩ | ⟨n, hawaits, hended⟩
  · left
    rw [hready] at hentered
    unfold Sync.enter at hentered
    split at hentered
    · next hphase => exact ⟨hphase, hok⟩
    · cases hentered
    · cases hentered
  · right
    rw [hawaits] at hentered
    unfold Sync.enter at hentered
    split at hentered
    · cases hentered
    · next k hphase =>
      obtain rfl : n = k := SyncEntry.awaits.inj hentered
      exact ⟨n, .inl hphase, hended⟩
    · next hphase =>
      have hn : n = g.broker.sync.begun := SyncEntry.awaits.inj hentered
      exact ⟨n, .inr ⟨hphase, hn.trans h.reflects.begun⟩, hended⟩

/-- A caller that sees the outcome of its load changes nothing but itself. -/
theorem Coherent.step_leave {g : Gathering} (h : g.Coherent) (i : Nat) :
    (g.step (.leave i)).broker = g.broker ∧ (g.step (.leave i)).loads = g.loads := by
  simp only [Gathering.step]
  split
  · next n _ =>
    split
    · exact ⟨rfl, rfl⟩
    · next outcome hseen =>
      refine ⟨?_, rfl⟩
      rw [Broker.leaveSync, h.reflects.settle_eq hseen]
  · exact ⟨rfl, rfl⟩

/-! ## Failure -/

/-- If the last load has failed, no load is in flight, and the next caller begins a new one. -/
theorem Coherent.fresh_load_of_failed {g : Gathering} (h : g.Coherent) {e : SyncError}
    (hfailed : g.loads.getLast? = some (.ended (.error e))) :
    (∀ n : Nat, ¬ g.InFlight n) ∧ g.phase = .notSynced ∧
      (g.step .enter).loads = g.loads ++ [.waiting] ∧
      (g.step .enter).phase = .loading g.loads.length := by
  have hphase : g.phase = .notSynced := by
    rw [phase, h.reflects.phase_eq, LoadStage.phase, hfailed]
    rfl
  refine ⟨?_, hphase, ?_, ?_⟩
  · rintro n ⟨stage, hload, hunder⟩
    have hlast : n + 1 = g.loads.length := h.reflects.last_of_under_way hload hunder
    rw [LoadStage.getLast?_of_last hlast hload] at hfailed
    rw [Option.some.inj hfailed] at hunder
    cases hunder
  · simp [Gathering.step, hphase]
  · have hsync : g.broker.sync.phase = .notSynced := hphase
    simp [Gathering.step, phase, Broker.enterSync_of_notSynced, hsync, h.reflects.begun]

/-- However callers and loads are interleaved, whoever gives up and whatever comes of the loads: at
most one load is in flight.  Once a load has been given a snapshot that makes sense, no load begins
and the store is not called again, and the state becomes synced by that load and stays so.  Who
returns found the state synced when it entered, or has the outcome of the load that it joined or
began.  Who sees the outcome of a load changes nothing in the broker or in another load.  And once
the last load has failed, nothing is in flight, the state is as it was at first, and the next caller
begins a new load. -/
theorem callers_share_loads (store : Store) (events : List Event) :
    let g := (start store).run events
    (∀ m n : Nat, g.InFlight m → g.InFlight n → m = n) ∧
    (∀ n : Nat, g.Succeeded n → ∀ more : List Event,
      (g.run more).loads.length = g.loads.length ∧ (g.run more).reads = g.reads ∧
      ((g.run more).run [.apply n, .settle n]).phase = .synced ∧
      (g.phase = .synced → (g.run more).phase = .synced)) ∧
    (∀ (more : List Event) (c : Caller) (outcome : LoadOutcome),
      ((g.step .enter).run more).callers[g.callers.length]? = some c →
      c.stage = .returned outcome →
      (g.phase = .synced ∧ outcome = .ok ()) ∨
        ∃ n : Nat, (g.phase = .loading n ∨ g.phase = .notSynced ∧ n = g.loads.length) ∧
          ((g.step .enter).run more).loads[n]? = some (.ended outcome)) ∧
    (∀ i : Nat, (g.step (.leave i)).broker = g.broker ∧ (g.step (.leave i)).loads = g.loads) ∧
    (∀ e : SyncError, g.loads.getLast? = some (.ended (.error e)) →
      (∀ n : Nat, ¬ g.InFlight n) ∧ g.phase = .notSynced ∧
        (g.step .enter).loads = g.loads ++ [.waiting] ∧
        (g.step .enter).phase = .loading g.loads.length) := by
  intro g
  have h : g.Coherent := (coherent_start store).run events
  refine ⟨?_, ?_, ?_, h.step_leave, ?_⟩
  · rintro m n ⟨_, hm, hmunder⟩ ⟨_, hn, hnunder⟩
    have hmlast : m + 1 = g.loads.length := h.reflects.last_of_under_way hm hmunder
    have hnlast : n + 1 = g.loads.length := h.reflects.last_of_under_way hn hnunder
    omega
  · intro n hsuccess more
    obtain ⟨hlater, hlength, hreads⟩ := h.run_of_succeeded hsuccess more
    refine ⟨hlength, hreads, (h.run more).phase_run_apply_settle hlater, fun hsynced => ?_⟩
    -- The load has ended, or is still to settle the state, which then is not synced yet.
    rcases h.phase_of_succeeded hsuccess with ⟨-, hended⟩ | hloading
    · exact (h.run more).phase_of_ended (ended_run hended more)
    · rw [hsynced] at hloading
      cases hloading
  · intro more c outcome hc hstage
    exact h.returned_of_entered more hc hstage
  · intro e hfailed
    exact h.fresh_load_of_failed hfailed

/-- Two callers wait for a load and one of them gives up; the load fails, and the other one sees it
only after a third has begun a new load, which succeeds. -/
def failThenRetry : List Event :=
  [.enter, .enter, .abandon 0, .lock 0, .read 0 { load := some (.backend "unreachable") }, .apply 0,
    .settle 0, .enter, .leave 1, .lock 1, .read 1 {}]

/-- A store that records a device of the volume `vol1`. -/
def recordedStore : Store := .inMemory ((∅ : Snapshot).insert "nqn-a" (.owned "vol1"))

/-- The first load fails and leads back to where a load can begin.  The second one succeeds, is the
last, and calls the store for the last time. -/
theorem callers_share_failed_load :
    let failed := (start recordedStore).run (failThenRetry.take 7)
    let retried := (start recordedStore).run failThenRetry
    failed.phase = .notSynced ∧ (failed.step .enter).phase = .loading 1 ∧
      (∀ n : Nat, retried.InFlight n → n = 1) ∧
      (∀ more : List Event, (retried.run more).reads = 2 ∧
        ((retried.run more).run [.apply 1, .settle 1]).phase = .synced) ∧
      ∃ n : Nat, n = 0 ∧
        retried.loads[n]? = some (.ended (.error (.store (.backend "unreachable")))) := by
  obtain ⟨-, -, -, -, hretry⟩ := callers_share_loads recordedStore (failThenRetry.take 7)
  obtain ⟨-, -, hjoined, -, -⟩ := callers_share_loads recordedStore [.enter]
  obtain ⟨honly, hsuccess, -, -, -⟩ := callers_share_loads recordedStore failThenRetry
  obtain ⟨-, hphase, -, hfresh⟩ := hretry (.store (.backend "unreachable")) rfl
  refine ⟨hphase, hfresh, fun n hn => honly n 1 hn ⟨_, rfl, rfl⟩, fun more => ?_, ?_⟩
  · obtain ⟨-, hreads, hsettled, -⟩ := hsuccess 1 ⟨_, rfl, rfl⟩ more
    exact ⟨hreads, hsettled⟩
  · rcases hjoined (failThenRetry.drop 2) _ _ rfl rfl with ⟨hsynced, -⟩ | ⟨n, hmet, hended⟩
    · cases hsynced
    · rcases hmet with hloading | ⟨hnone, -⟩
      · exact ⟨n, (SyncPhase.loading.inj hloading).symm, hended⟩
      · cases hnone

end Gathering

end VolumeBroker
