import VolumeBroker.Proofs.FailedOperations
import VolumeBroker.Proofs.NamedRuns

/-!
# Calls come to an end

Every stage of an operation leads on to a later one, but for one thing: an operation that waits for
a load stays where it is until the load has ended.  Such a load has been begun
(`begun_of_awaiting`), so it has its turn and ends, or has done so already; nothing that an
operation waits for is waiting for the operation.  So a call can always be brought to its end,
whatever its surroundings are like.
-/

set_option autoImplicit false

namespace VolumeBroker

namespace System

/-- During the life of a process the number of loads that have been begun does not go down. -/
theorem begun_le_step (s : System) {e : Event} (hlife : e ≠ .restart) :
    s.broker.sync.begun ≤ (s.step e).broker.sync.begun := by
  cases s.step_changes_sync e with
  | quiet hsync _ | turned _ hsync _ | settled _ hsync _ =>
    exact Nat.le_of_eq (congrArg Sync.begun hsync).symm
  | begun _ hsync _ =>
    rw [hsync]
    exact Nat.le_succ _
  | finished _ _ hbegun _ _ => exact Nat.le_of_eq hbegun.symm
  | restarted _ => exact absurd rfl hlife

/-- When a load under way ends, whoever waits for it sees what has come of it. -/
theorem outcome?_step_finishLoad {s : System} {number : Nat} {outcome : LoadOutcome}
    (hturned : s.loaded.lookup number = some outcome)
    (hunderway : s.broker.sync.isUnderWay number = true) :
    (s.step (.finishLoad number)).broker.sync.outcome? number = some outcome := by
  simp [step, hturned, hunderway, Broker.finishLoad, Sync.finish, Sync.outcome?]

end System

/-- How many stages an operation has before it that has reached this one. -/
def Stage.left : Stage → Nat
  | .arrived => 8
  | .syncing => 7
  | .awaiting _ => 6
  | .discovering => 5
  | .merging _ => 4
  | .locking => 3
  | .working => 2
  | .closing _ => 1
  | .ended _ => 0

/-- An operation with no stages before it has ended. -/
theorem Stage.ended_of_left_eq_zero {stage : Stage} (h : stage.left = 0) :
    ∃ outcome : Outcome, stage = .ended outcome := by
  cases stage with
  | ended outcome => exact ⟨outcome, rfl⟩
  | _ => cases h

namespace Operation

variable {around : Surroundings} {b : Broker} {op : Operation}

/-- An operation waits for a load that it has waited for before, or that it has just joined. -/
theorem awaits_of_next {number : Nat} (h : (op.next around b).stage = .awaiting number) :
    op.stage = .awaiting number ∨
      (b.enterSync.1 = .awaits number ∧ (op.step around b).2 = b.enterSync.2) := by
  cases op.step_moves around b with
  | waiting hstage hnext _ =>
    left
    rw [hstage, ← h, hnext]
  | joined hstage hnext hbroker =>
    refine .inr ⟨?_, hbroker⟩
    simp only [next, step, hstage] at h
    split at h
    · cases h
    · next load b' hentry =>
      obtain rfl := Stage.awaiting.inj h
      rw [hentry]
  | accepted _ _ hnext _ =>
    cases hrequest : op.request <;> simp [hnext, hrequest, afterArrival] at h
  | refused _ _ hnext _ | found _ _ hnext _ | locked _ _ hnext _ | ready _ hnext _ | woken _ hnext _
  | unfound _ hnext _ | merged _ hnext _ | turnedAway _ hnext _ | worked _ hnext _
  | closed _ hnext _ | rested _ hnext _ =>
    rw [hnext] at h
    cases h

/-- Every stage leads on, unless the operation has ended or waits for a load that has not. -/
theorem left_next (hwaits : ∀ number : Nat, op.stage = .awaiting number →
      (b.sync.outcome? number).isSome) (hopen : op.stage.left ≠ 0) (around : Surroundings) :
    (op.next around b).stage.left < op.stage.left := by
  cases op.step_moves around b with
  | @waiting number hstage hnext _ =>
    obtain ⟨outcome, houtcome⟩ := Option.isSome_iff_exists.mp (hwaits number hstage)
    simp [next, step, hstage, houtcome] at hnext
  | accepted hstage _ hnext _ =>
    cases hrequest : op.request <;> simp [hstage, hnext, hrequest, afterArrival, Stage.left]
  | refused hstage _ hnext _ | found hstage _ hnext _ | locked hstage _ hnext _
  | ready hstage hnext _ | joined hstage hnext _ | woken hstage hnext _ | unfound hstage hnext _
  | merged hstage hnext _ | turnedAway hstage hnext _ | worked hstage hnext _
  | closed hstage hnext _ =>
    rw [hstage, hnext]
    simp [Stage.left]
  | rested hstage _ _ =>
    rw [hstage] at hopen
    exact absurd rfl hopen

end Operation

namespace Traffic

/-- A load that an operation waits for has been begun. -/
theorem begun_of_awaiting (store : Store) (events : List Event) :
    ∀ (i : Nat) (op : Operation) (number : Nat),
      ((start store).run events).operations[i]? = some op → op.stage = .awaiting number →
      number < ((start store).run events).system.broker.sync.begun := by
  induction events using List.reverseRecOn with
  | nil => simp [run, start]
  | append_singleton events e ih =>
    intro i op number hop hstage
    have hnumbered : ((start store).run (events ++ [e])).system.Numbered := numbered_run
    rw [← run_step] at hop hnumbered ⊢
    have hmore (hlife : e ≠ .beside .restart) :
        ((start store).run events).system.broker.sync.begun ≤
          (((start store).run events).step e).system.broker.sync.begun :=
      system_step_induction (P := fun s => ((start store).run events).system.broker.sync.begun ≤
          s.broker.sync.begun) (Nat.le_refl _)
        fun _ hevent => System.begun_le_step _ (ne_restart_of_event? hevent hlife)
    rcases operation_of_step hop with ⟨hlife, hsame⟩ | harrived | ⟨around, earlier, rfl, hop', rfl⟩
    · exact Nat.lt_of_lt_of_le (ih i op number hsame hstage) (hmore hlife)
    · rw [harrived] at hstage
      cases hstage
    · rcases Operation.awaits_of_next hstage with hwaits | ⟨hentry, hbroker⟩
      · exact Nat.lt_of_lt_of_le (ih i earlier number hop' hwaits) (hmore (by simp))
      · rw [← broker_step_advance hop' around] at hbroker
        have hphase := System.phase_of_enter_awaits hentry
        have hunderway := hnumbered.under_way number (by rw [hbroker]; exact hphase)
        simp only [Sync.isUnderWay, Bool.and_eq_true, decide_eq_true_eq] at hunderway
        exact hunderway.1

/-- In the course of the events the operation comes to this end. -/
def EndsWith (t : Traffic) (i : Nat) (events : List Event) (outcome : Outcome) : Prop :=
  ∃ op : Operation, (t.run events).operations[i]? = some op ∧ op.stage = .ended outcome

/-- A part of a call finds the surroundings like this. -/
def Event.Faces (around : Surroundings) : Event → Prop
  | .advance _ met => met = around
  | .beside (.load _ faults) => faults = around.faults
  | _ => True

/-- The call comes to an end if nothing comes between its parts. -/
def Completes (t : Traffic) (i : Nat) (around : Surroundings) : Prop :=
  ∃ (events : List Event) (outcome : Outcome), t.Uninterrupted i events ∧
    (∀ e ∈ events, e.Faces around) ∧ t.EndsWith i events outcome

/-- A call comes to an end if it does so after one more of its parts. -/
theorem Completes.of_step {t : Traffic} {i : Nat} {around : Surroundings} {e : Event}
    (hpart : t.PartOfCall i e) (hfaces : e.Faces around) (h : (t.step e).Completes i around) :
    t.Completes i around := by
  obtain ⟨events, outcome, hwhole, hall, hended⟩ := h
  exact ⟨e :: events, outcome, ⟨hpart, hwhole⟩, List.forall_mem_cons.mpr ⟨hfaces, hall⟩, hended⟩

section Completion

variable {store : Store} {before : List Event} {i number : Nat} {around : Surroundings}
  {op : Operation}

/-- Whoever waits for a load that has had its turn comes to an end, if whoever has seen its outcome
does. -/
theorem completes_of_turned (hstage : op.stage = .awaiting number)
    (hseen : ∀ after : List Event, ((start store).run after).operations[i]? = some op →
      (((start store).run after).system.broker.sync.outcome? number).isSome →
      ((start store).run after).Completes i around)
    (hop : ((start store).run before).operations[i]? = some op)
    (hunderway : ((start store).run before).system.broker.sync.isUnderWay number = true)
    (hturned : (((start store).run before).system.loaded.lookup number).isSome) :
    ((start store).run before).Completes i around := by
  obtain ⟨outcome, hlookup⟩ := Option.isSome_iff_exists.mp hturned
  refine .of_step (e := .beside (.finishLoad number)) ⟨op, hop, hstage⟩ trivial ?_
  rw [run_step]
  refine hseen _ ?_ ?_
  · rw [← run_step]
    exact hop
  · rw [← run_step]
    show ((((start store).run before).system.step
      (.finishLoad number)).broker.sync.outcome? number).isSome
    rw [System.outcome?_step_finishLoad hlookup hunderway]
    rfl

/-- The load that an operation waits for has its turn and ends. -/
theorem completes_of_awaiting (hstage : op.stage = .awaiting number)
    (hseen : ∀ after : List Event, ((start store).run after).operations[i]? = some op →
      (((start store).run after).system.broker.sync.outcome? number).isSome →
      ((start store).run after).Completes i around)
    (hop : ((start store).run before).operations[i]? = some op) :
    ((start store).run before).Completes i around := by
  cases houtcome : ((start store).run before).system.broker.sync.outcome? number with
  | some outcome => exact hseen before hop (Option.isSome_of_eq_some houtcome)
  | none =>
    have hbegun := begun_of_awaiting store before i op number hop hstage
    have hunderway : ((start store).run before).system.broker.sync.isUnderWay number = true := by
      simp [Sync.isUnderWay, hbegun, houtcome]
    cases hlookup : ((start store).run before).system.loaded.lookup number with
    | some outcome =>
      exact completes_of_turned hstage hseen hop hunderway (Option.isSome_of_eq_some hlookup)
    | none =>
      have hturn : ((start store).run before).system.awaitsTurn number = true := by
        simp [System.awaitsTurn, hunderway, hlookup]
      have hsystem : (((start store).run before).step
          (.beside (.load number around.faults))).system = _ :=
        System.step_load_of_awaitsTurn hturn around.faults
      refine .of_step (e := .beside (.load number around.faults)) ⟨op, hop, hstage⟩ rfl ?_
      rw [run_step] at hsystem ⊢
      refine completes_of_turned hstage hseen ?_ ?_ ?_
      · rw [← run_step]
        exact hop
      · rw [hsystem]
        show (Broker.loadSnapshot _ _).2.sync.isUnderWay number = true
        rw [Broker.sync_loadSnapshot, hunderway]
      · rw [hsystem, List.lookup_cons_self]
        rfl

/-- Every operation of any traffic comes to an end, whatever stage it has reached. -/
theorem completes_run (hop : ((start store).run before).operations[i]? = some op)
    (around : Surroundings) : ((start store).run before).Completes i around := by
  induction hleft : op.stage.left using Nat.strongRecOn generalizing before op with
  | ind n ih =>
    by_cases hopen : op.stage.left = 0
    · obtain ⟨outcome, hended⟩ := Stage.ended_of_left_eq_zero hopen
      exact ⟨[], outcome, trivial, by simp, op, hop, hended⟩
    have hadvance : ∀ after : List Event, ((start store).run after).operations[i]? = some op →
        (∀ number : Nat, op.stage = .awaiting number →
          (((start store).run after).system.broker.sync.outcome? number).isSome) →
        ((start store).run after).Completes i around := by
      intro after hop hwaits
      refine .of_step (e := .advance i around) rfl rfl ?_
      rw [run_step]
      refine ih _ (hleft ▸ op.left_next hwaits hopen around) ?_ rfl
      rw [← run_step]
      exact operations_step_advance hop around
    by_cases hwaiting : ∃ number : Nat, op.stage = .awaiting number
    · obtain ⟨number, hstage⟩ := hwaiting
      refine completes_of_awaiting hstage (fun after hop hseen => ?_) hop
      refine hadvance after hop fun k hk => ?_
      obtain rfl : number = k := Stage.awaiting.inj (hstage.symm.trans hk)
      exact hseen
    · exact hadvance before hop fun number hstage => absurd ⟨number, hstage⟩ hwaiting

end Completion

/-- The parts of a call do not include a restart. -/
theorem life_of_uninterrupted {t : Traffic} {i : Nat} {events : List Event}
    (h : t.Uninterrupted i events) : ∀ e ∈ events, e ≠ .beside .restart := by
  induction events generalizing t with
  | nil => simp
  | cons e events ih =>
    refine List.forall_mem_cons.mpr ⟨?_, ih h.2⟩
    rintro rfl
    exact h.1

end Traffic

end VolumeBroker
