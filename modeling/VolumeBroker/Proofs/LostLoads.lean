import VolumeBroker.Proofs.SharedLoad

/-!
# Loads that are lost

The task of a load may come to no end of its own.  Then it is gone, whatever it held is free again,
and those who wait for it see a failure that says so.  But it has not settled the state of the
initial load, which goes on awaiting it.  That is why a caller settles the state once more when it
sees an outcome: as long as every load settles the state itself this changes nothing
(`Sync.Reflects.settle_eq`), but after a lost load nobody else does.

`Gathering.Adrift` is the situation in between.  Nothing is in flight in it and nothing begins, it
lasts until a caller of the lost load leaves, and then everything is as after a load that has
failed.  A caller who comes in between joins the lost load and gets its failure, though the store
may be in order; the one after it begins a new load.
-/

set_option autoImplicit false

namespace VolumeBroker

/-- A load is lost: those who wait for it can see a failure, and the state is not settled by it. -/
def Sync.lose (s : Sync) (load : Nat) (reason : String) : Sync :=
  { s with ended := (load, .error (.lost reason)) :: s.ended }

namespace Gathering

/-- The task of a load that is under way is gone. -/
def lose (g : Gathering) (n : Nat) (reason : String) : Gathering :=
  match g.loads[n]? with
  | none => g
  | some stage =>
    if stage.hasEnded then g
    else
      { g with
        broker.sync := g.broker.sync.lose n reason
        loads := g.loads.set n (.ended (.error (.lost reason))) }

/-- What may happen if tasks of loads can be lost. -/
inductive Fate
  | usual (e : Event)
  | lost (n : Nat) (reason : String)

/-- What becomes of a gathering when this happens. -/
def meet (g : Gathering) : Fate → Gathering
  | .usual e => g.step e
  | .lost n reason => g.lose n reason

/-- The gathering after all of this has happened. -/
def meetAll (g : Gathering) (fates : List Fate) : Gathering := fates.foldl meet g

/-- The state awaits a load that is gone. -/
structure Adrift (g : Gathering) (n : Nat) : Prop where
  phase_eq : g.phase = .loading n
  last : n + 1 = g.loads.length
  /-- But for this, it says what the loads have come to. -/
  reflects : Sync.Reflects { g.broker.sync with phase := .notSynced } g.loads

variable {g h : Gathering} {n : Nat}

/-! ## What is so while a lost load is awaited -/

/-- The load that is awaited in vain has failed. -/
theorem Adrift.failed (hg : g.Adrift n) :
    ∃ e : SyncError, g.loads[n]? = some (.ended (.error e)) :=
  LoadStage.failed_of_phase_eq_notSynced hg.reflects.phase_eq.symm hg.last

/-- While a lost load is awaited, every load has ended. -/
theorem Adrift.hasEnded (hg : g.Adrift n) {k : Nat} {stage : LoadStage}
    (hload : g.loads[k]? = some stage) : stage.hasEnded = true := by
  cases hunder : stage.hasEnded with
  | true => rfl
  | false => cases hg.reflects.phase_of_under_way hload hunder

/-- Whoever waits for the load that is lost can see that it has failed. -/
theorem Adrift.outcome? (hg : g.Adrift n) :
    ∃ e : SyncError, g.broker.sync.outcome? n = some (.error e) ∧
      g.loads[n]? = some (.ended (.error e)) := by
  obtain ⟨e, hended⟩ := hg.failed
  exact ⟨e, (hg.reflects.seen n (.error e)).mpr hended, hended⟩

/-- A caller of another load does not touch the state, which is not its to settle. -/
theorem settle_eq_of_ne {sync : Sync} {k : Nat} (hphase : sync.phase ≠ .loading k)
    (outcome : LoadOutcome) : sync.settle k outcome = sync := if_neg hphase

/-- The caller who sees the failure settles the state. -/
theorem Adrift.settle_eq (hg : g.Adrift n) {outcome : LoadOutcome}
    (hseen : g.broker.sync.outcome? n = some outcome) :
    g.broker.sync.settle n outcome = { g.broker.sync with phase := .notSynced } := by
  obtain ⟨e, hfailed, -⟩ := hg.outcome?
  obtain rfl : outcome = .error e := Option.some.inj (hseen.symm.trans hfailed)
  exact if_pos hg.phase_eq

/-- To be adrift is a matter of the state and the loads alone. -/
theorem Adrift.congr (hg : g.Adrift n) (hsync : h.broker.sync = g.broker.sync)
    (hloads : h.loads = g.loads) : h.Adrift n := by
  refine ⟨?_, ?_, ?_⟩
  · rw [phase, hsync]
    exact hg.phase_eq
  · rw [hloads]
    exact hg.last
  · rw [hsync, hloads]
    exact hg.reflects

/-! ## What may happen -/

/-- A lost load goes on being awaited until one of its callers returns with the failure, and then
the state says again what the loads have come to. -/
theorem Adrift.step (hg : g.Adrift n) (e : Event) :
    (g.step e).Adrift n ∨
      (g.step e).phase = .notSynced ∧ (g.step e).broker.sync.Reflects (g.step e).loads ∧
        ∃ (i : Nat) (failure : SyncError), g.callers[i]? = some ⟨.awaits n, .waiting⟩ ∧
          (g.step e).callers = g.callers.set i ⟨.awaits n, .returned (.error failure)⟩ := by
  cases g.step_changes e with
  | quiet hsync hloads _ _ | joined _ hsync hloads _ _ | gaveUp _ _ _ hsync hloads _ _ =>
    exact .inl (hg.congr hsync hloads)
  | began hphase _ _ _ _ =>
    rw [hg.phase_eq] at hphase
    cases hphase
  | moved k before _ hbefore hunder _ _ _ _ _ =>
    rw [hg.hasEnded hbefore] at hunder
    cases hunder.1
  | settled k outcome hbefore _ _ _ _ => cases hg.hasEnded hbefore
  | left i k outcome hcaller hseen hsync hloads hcallers _ =>
    by_cases hk : k = n
    · subst hk
      obtain ⟨failure, hfailed, -⟩ := hg.outcome?
      obtain rfl : outcome = .error failure := Option.some.inj (hseen.symm.trans hfailed)
      rw [hg.settle_eq hseen] at hsync
      refine .inr ⟨?_, ?_, i, failure, hcaller, hcallers⟩
      · rw [phase, hsync]
      · rw [hsync, hloads]
        exact hg.reflects
    · left
      have hother : g.broker.sync.phase ≠ .loading k := by
        intro hphase
        have hsame : g.broker.sync.phase = .loading n := hg.phase_eq
        rw [hphase] at hsame
        exact hk (SyncPhase.loading.inj hsame)
      rw [settle_eq_of_ne hother] at hsync
      exact hg.congr hsync hloads

/-- A load that has ended, or has not begun, is not lost any more. -/
theorem lose_eq_self
    (hended : ∀ stage : LoadStage, g.loads[n]? = some stage → stage.hasEnded = true)
    (reason : String) : g.lose n reason = g := by
  cases hload : g.loads[n]? with
  | none => simp only [lose, hload]
  | some stage => simp only [lose, hload, hended stage hload, if_true]

/-- A load that is lost while it is under way leaves the state adrift. -/
theorem adrift_lose (hg : g.broker.sync.Reflects g.loads) {stage : LoadStage}
    (hload : g.loads[n]? = some stage) (hunder : stage.hasEnded = false) (reason : String) :
    (g.lose n reason).Adrift n := by
  have hphase : g.broker.sync.phase = .loading n := hg.phase_of_under_way hload hunder
  have hlast : n + 1 = g.loads.length := hg.last_of_under_way hload hunder
  have hlose : g.lose n reason =
      { g with
        broker.sync := g.broker.sync.lose n reason
        loads := g.loads.set n (.ended (.error (.lost reason))) } := by
    simp [lose, hload, hunder]
  have hfinish : g.broker.sync.finish n (.error (.lost reason)) =
      { g.broker.sync.lose n reason with phase := .notSynced } := by
    simp only [Sync.finish, hphase]
    rfl
  rw [hlose]
  refine ⟨hphase, ?_, ?_⟩
  · show n + 1 = (g.loads.set n _).length
    rw [List.length_set]
    exact hlast
  · show Sync.Reflects { g.broker.sync.lose n reason with phase := .notSynced } _
    rw [← hfinish]
    exact hg.finish hload hunder _

/-- What holds whatever may happen: the state says what the loads have come to, or a lost load is
awaited. -/
def Orderly (g : Gathering) : Prop :=
  g.broker.sync.Reflects g.loads ∨ ∃ n : Nat, g.Adrift n

/-- A gathering in order stays so when a load is lost. -/
theorem Orderly.lose (hg : g.Orderly) (k : Nat) (reason : String) : (g.lose k reason).Orderly := by
  rcases hg with hreflects | ⟨n, hadrift⟩
  · by_cases hunder : ∃ stage : LoadStage, g.loads[k]? = some stage ∧ stage.hasEnded = false
    · obtain ⟨stage, hload, hunder⟩ := hunder
      exact .inr ⟨k, adrift_lose hreflects hload hunder reason⟩
    · have hended (stage : LoadStage) (hload : g.loads[k]? = some stage) :
          stage.hasEnded = true := by
        rw [← Bool.not_eq_false]
        exact fun hfalse => hunder ⟨stage, hload, hfalse⟩
      rw [lose_eq_self hended]
      exact .inl hreflects
  · rw [lose_eq_self fun _ => hadrift.hasEnded]
    exact .inr ⟨n, hadrift⟩

/-- A gathering in order stays so whatever happens next. -/
theorem Orderly.meet (hg : g.Orderly) (fate : Fate) : (g.meet fate).Orderly := by
  cases fate with
  | lost k reason => exact hg.lose k reason
  | usual e =>
    rcases hg with hreflects | ⟨n, hadrift⟩
    · exact .inl (reflects_step hreflects e)
    · rcases hadrift.step e with hstill | ⟨-, hreflects, -⟩
      · exact .inr ⟨n, hstill⟩
      · exact .inl hreflects

/-- Every gathering is in order, whatever has happened to its loads. -/
theorem orderly_meetAll (store : Store) (fates : List Fate) :
    ((start store).meetAll fates).Orderly := by
  have hall (g : Gathering) (hg : g.Orderly) : (g.meetAll fates).Orderly := by
    induction fates generalizing g with
    | nil => exact hg
    | cons fate fates ih => exact ih (g.meet fate) (hg.meet fate)
  exact hall _ (.inl (coherent_start store).reflects)

/-- Also where loads can be lost, only the last one can be under way. -/
theorem Orderly.last_of_under_way (hg : g.Orderly) {stage : LoadStage}
    (hload : g.loads[n]? = some stage) (hunder : stage.hasEnded = false) :
    n + 1 = g.loads.length := by
  rcases hg with hreflects | ⟨k, hadrift⟩
  · exact hreflects.last_of_under_way hload hunder
  · rw [hadrift.hasEnded hload] at hunder
    cases hunder

/-- A load that is awaited is in flight, or it is lost. -/
theorem Orderly.inFlight_or_adrift (hg : g.Orderly) (hphase : g.phase = .loading n) :
    g.InFlight n ∨ g.Adrift n := by
  rcases hg with hreflects | ⟨k, hadrift⟩
  · left
    exact (LoadStage.under_way_of_phase_eq_loading (hreflects.phase_eq ▸ hphase)).2
  · right
    rw [hadrift.phase_eq] at hphase
    exact SyncPhase.loading.inj hphase ▸ hadrift

/-- A caller of a lost load that leaves takes the failure with it and settles the state. -/
theorem Adrift.step_leave (hg : g.Adrift n) {i : Nat}
    (hcaller : g.callers[i]? = some ⟨.awaits n, .waiting⟩) :
    (g.step (.leave i)).phase = .notSynced ∧
      ∃ failure : SyncError,
        (g.step (.leave i)).callers[i]? = some ⟨.awaits n, .returned (.error failure)⟩ := by
  obtain ⟨failure, hfailed, -⟩ := hg.outcome?
  have hi : i < g.callers.length := (List.getElem?_eq_some_iff.mp hcaller).1
  have hleave : g.step (.leave i) =
      { g with
        broker := g.broker.leaveSync n (.error failure)
        callers := g.callers.set i ⟨.awaits n, .returned (.error failure)⟩ } := by
    simp only [Gathering.step, hcaller, hfailed]
  rw [hleave]
  refine ⟨?_, failure, List.getElem?_set_self hi⟩
  show (g.broker.sync.settle n (.error failure)).phase = .notSynced
  rw [hg.settle_eq hfailed]

/-- Whoever enters while a lost load is awaited joins it. -/
theorem Adrift.step_enter (hg : g.Adrift n) :
    (g.step .enter).Adrift n ∧
      (g.step .enter).callers[g.callers.length]? = some ⟨.awaits n, .waiting⟩ := by
  have henter : g.broker.enterSync = (.awaits n, g.broker) :=
    Broker.enterSync_of_loading hg.phase_eq
  have hphase : ¬ g.phase = .notSynced := by
    rw [hg.phase_eq]
    nofun
  have hstep : g.step .enter = { g with callers := g.callers ++ [.newcomer (.awaits n)] } := by
    simp only [Gathering.step, henter, if_neg hphase]
  rw [hstep]
  exact ⟨hg.congr rfl rfl, by simp [Caller.newcomer]⟩

/-- However callers and loads are interleaved, whatever comes of the loads and whichever of them are
lost: at most one load is in flight, and if the state is synced, a load has succeeded.  A load that
is awaited is in flight or has been lost.  In the second case nothing is in flight, and the state
goes on awaiting the load whatever happens, until one of its callers returns with the failure; then
it is as it was at first.  Whoever waits for the load can do so, and so can whoever enters now.  And
a caller never touches a load but its own. -/
theorem lost_loads_are_got_over (store : Store) (fates : List Fate) :
    let g := (start store).meetAll fates
    (∀ m n : Nat, g.InFlight m → g.InFlight n → m = n) ∧
    (g.phase = .synced → ∃ n : Nat, g.loads[n]? = some (.ended (.ok ()))) ∧
    (∀ n : Nat, g.phase = .loading n → g.InFlight n ∨ g.Adrift n) ∧
    (∀ n : Nat, g.Adrift n →
      (∀ m : Nat, ¬ g.InFlight m) ∧
      (∀ fate : Fate, (g.meet fate).phase = .loading n ∨
        (g.meet fate).phase = .notSynced ∧
          ∃ (i : Nat) (failure : SyncError), g.callers[i]? = some ⟨.awaits n, .waiting⟩ ∧
            (g.meet fate).callers = g.callers.set i ⟨.awaits n, .returned (.error failure)⟩) ∧
      (∀ i : Nat, g.callers[i]? = some ⟨.awaits n, .waiting⟩ →
        (g.step (.leave i)).phase = .notSynced) ∧
      ((g.step .enter).step (.leave g.callers.length)).phase = .notSynced) ∧
    ∀ i m : Nat, g.callers[i]? = some ⟨.awaits m, .waiting⟩ → g.phase ≠ .loading m →
      (g.step (.leave i)).broker = g.broker := by
  intro g
  have hg : g.Orderly := orderly_meetAll store fates
  refine ⟨?_, fun hsynced => ?_, fun n => hg.inFlight_or_adrift, fun n hadrift => ⟨?_, ?_, ?_, ?_⟩,
    fun i m hcaller hphase => ?_⟩
  · rintro m n ⟨_, hm, hmunder⟩ ⟨_, hn, hnunder⟩
    have hmlast : m + 1 = g.loads.length := hg.last_of_under_way hm hmunder
    have hnlast : n + 1 = g.loads.length := hg.last_of_under_way hn hnunder
    omega
  -- A state that awaits a lost load is not synced, so it reflects its loads.
  · rcases hg with hreflects | ⟨n, hadrift⟩
    · exact LoadStage.succeeded_of_phase_eq_synced (hreflects.phase_eq ▸ hsynced)
    · rw [hadrift.phase_eq] at hsynced
      cases hsynced
  · rintro m ⟨stage, hload, hunder⟩
    rw [hadrift.hasEnded hload] at hunder
    cases hunder
  · intro fate
    cases fate with
    | usual e =>
      rcases hadrift.step e with hstill | ⟨hphase, -, hreturned⟩
      · exact .inl hstill.phase_eq
      · exact .inr ⟨hphase, hreturned⟩
    | lost k reason =>
      left
      show (g.lose k reason).phase = .loading n
      rw [lose_eq_self fun _ => hadrift.hasEnded]
      exact hadrift.phase_eq
  · intro i hcaller
    exact (hadrift.step_leave hcaller).1
  · obtain ⟨hentered, hcaller⟩ := hadrift.step_enter
    exact (hentered.step_leave hcaller).1
  · simp only [Gathering.step, hcaller]
    split
    · rfl
    · next outcome _ =>
      show { g.broker with sync := g.broker.sync.settle m outcome } = g.broker
      rw [settle_eq_of_ne hphase]

/-- The load of the first caller is lost.  The second caller joins it all the same, and only when it
has returned does the third begin a new load. -/
example :
    let g := (start (.inMemory ∅)).meetAll
      [.usual .enter, .usual (.lock 0), .lost 0 "panic", .usual .enter]
    g.phase = .loading 0 ∧ (g.step .enter).phase = .loading 0 ∧
      ((g.step (.leave 1)).step .enter).phase = .loading 1 := by
  decide

end Gathering

end VolumeBroker
