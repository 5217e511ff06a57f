import Mathlib.Data.List.Induction
import VolumeBroker.Proofs.NamedRuns

/-!
# When a failed load can be made up for

A load that fails is tried again by whoever asks next, and it succeeds as soon as the store can be
read if what it holds is accepted.  A store that was accepted at first stays accepted as long as
nobody binds a device to a volume that the store records as the owner of another one.  The broker
looks for the owner in its catalog, so this cannot happen once the snapshot has been loaded.  It
does happen to a broker that goes to work after a load has failed: a creation that is tried again
gets a second device, and from then on every load fails.
-/

set_option autoImplicit false

namespace VolumeBroker.Traffic

/-- In a run without the work of other processes in which everything has a name, let the store be
accepted at first.  It is accepted at every moment exactly if no event binds a device to a volume
that the store records as the owner of another one, which no broker does that has loaded the
snapshot.  Whenever the store is accepted, whoever asks for the snapshot and waits for a load that
has not had its turn learns that the load has succeeded. -/
theorem store_accepted_iff (store : Store) (haccepted : store.Accepted) (events : List Event)
    (hown : ∀ e ∈ events, e.isForeign = false) (hreports : ∀ e ∈ events, e.ReportsNamed)
    (hasks : ∀ e ∈ events, e.AsksNamed) :
    let t := (start store).run events
    ((∀ before after : List Event, events = before ++ after →
        ((start store).run before).system.broker.store.Accepted) ↔
      ∀ (before after : List Event) (e : Event), events = before ++ e :: after →
        ¬ ((start store).run before).Doubles e) ∧
    (∀ (before after : List Event) (e : Event), events = before ++ e :: after →
      ((start store).run before).system.HasLoaded → ¬ ((start store).run before).Doubles e) ∧
    (t.system.broker.store.Accepted → ∀ (number : Nat) (faults : Faults), faults.load = none →
      t.system.broker.enterSync.1 = .awaits number → t.system.loaded.lookup number = none →
      (t.run ((System.syncEvents number faults).map .beside)).system.broker.sync.outcome? number =
        some (.ok ())) := by
  intro t
  have hfaithful {before after : List Event} (hsplit : events = before ++ after) :
      ((start store).run before).system.Faithful :=
    faithful_run fun e he => hown e (hsplit ▸ List.mem_append_left after he)
  have htidy {before after : List Event} (hsplit : events = before ++ after) :
      ((start store).run before).Tidy :=
    tidy_run fun e he => hreports e (hsplit ▸ List.mem_append_left after he)
  have hstep {before after : List Event} {e : Event} (hsplit : events = before ++ e :: after)
      (hwell : ((start store).run before).system.broker.store.WellFormed) :
      ((start store).run (before ++ [e])).system.broker.store.WellFormed ↔
        ¬ ((start store).run before).Doubles e := by
    have he : e ∈ events := hsplit ▸ List.mem_append_right before List.mem_cons_self
    rw [run_append]
    exact (htidy hsplit).wellFormed_step_iff hwell (hfaithful hsplit).named (hown e he) (hasks e he)
  simp only [Store.accepted_iff] at haccepted ⊢
  refine ⟨⟨fun hall before after e hsplit => ?_, fun hnever => ?_⟩, ?_, ?_⟩
  · have hafter : events = (before ++ [e]) ++ after := by simp [hsplit]
    exact (hstep hsplit (hall before (e :: after) hsplit)).mp (hall (before ++ [e]) after hafter)
  -- On the part of the run that has passed: no event so far has spoiled the store.
  · intro before
    induction before using List.reverseRecOn with
    | nil => exact fun _ _ => haccepted
    | append_singleton before e ih =>
      intro after hsplit
      have hsplit' : events = before ++ e :: after := by simp [hsplit]
      exact (hstep hsplit' (ih (e :: after) hsplit')).mpr (hnever before after e hsplit')
  · intro before after e hsplit hload
    exact not_doubles (hfaithful hsplit) hload e
  · intro hwell number faults hread hentry hturn
    obtain ⟨_, -, houtcome, -⟩ := numbered_run.run_syncEvents truthful_run hread
      (Store.accepted_iff.mpr hwell) hentry hturn
    exact houtcome

/-- A store that records the device `nqn-b` as bound to `vol1`. -/
def laterBound : Store := .inMemory ((∅ : Snapshot).insert "nqn-b" (.owned "vol1"))

/-- The creation of a volume finds that the store cannot be reached, and goes on until a device has
been bound. -/
def createAfterFailure (name : String) : List Event :=
  .arrive (.create ⟨name, [some .mount], ∅⟩) :: List.replicate 2 (.advance 0 (.twoDevices none)) ++
    [.beside (.load 0 { load := some (.backend "unreachable") }), .beside (.finishLoad 0)] ++
    List.replicate 5 (.advance 0 (.twoDevices none))

/-- The discovery of this history reports named devices only. -/
theorem reportsNamed_createAfterFailure (name : String) :
    ∀ e ∈ createAfterFailure name, e.ReportsNamed := by
  simp [createAfterFailure, Event.ReportsNamed, System.Event.ReportsNamed,
    Surroundings.reportsNamed_twoDevices]

/-- The creation of this history asks for a named volume. -/
theorem asksNamed_createAfterFailure (name : String) :
    ∀ e ∈ createAfterFailure name, e.AsksNamed := by
  simp [createAfterFailure, Event.AsksNamed, System.Event.AsksNamed]

/-- The creation of a volume that the store does not record leaves the store accepted. -/
theorem load_succeeds_after_failure :
    ((start laterBound).run (createAfterFailure "vol2")).system.broker.store.record? "nqn-a" =
        some (.owned "vol2") ∧
      (((start laterBound).run (createAfterFailure "vol2")).run
        ((System.syncEvents 1 {}).map .beside)).system.broker.sync.outcome? 1 = some (.ok ()) := by
  have haccepted : laterBound.Accepted := ⟨_, rfl, by decide⟩
  have hown : ∀ e ∈ createAfterFailure "vol2", e.isForeign = false := by decide
  obtain ⟨-, -, hrecovers⟩ := store_accepted_iff laterBound haccepted (createAfterFailure "vol2")
    hown (reportsNamed_createAfterFailure "vol2") (asksNamed_createAfterFailure "vol2")
  have hafter : ((start laterBound).run (createAfterFailure "vol2")).system.broker.store.Accepted :=
    ⟨_, rfl, by decide⟩
  exact ⟨by decide, hrecovers hafter 1 {} rfl rfl rfl⟩

/-- The creation of the volume that the store records binds a second device to it, and the next load
fails. -/
theorem recorded_volume_doubled :
    laterBound.Accepted ∧
      (∀ e ∈ createAfterFailure "vol1", e.isForeign = false ∧ e.ReportsNamed ∧ e.AsksNamed) ∧
      ¬ ((start laterBound).run (createAfterFailure "vol1")).system.broker.store.Accepted ∧
      (((start laterBound).run (createAfterFailure "vol1")).run
        ((System.syncEvents 1 {}).map .beside)).system.broker.sync.outcome? 1 =
          some (.error (.snapshot (.sharedOwner "vol1"))) := by
  have hown : ∀ e ∈ createAfterFailure "vol1", e.isForeign = false := by decide
  refine ⟨⟨_, rfl, by decide⟩, fun e he => ⟨hown e he, ?_, ?_⟩, fun hafter => ?_, by decide⟩
  · exact reportsNamed_createAfterFailure "vol1" e he
  · exact asksNamed_createAfterFailure "vol1" e he
  · have hfirst : ((start laterBound).run (createAfterFailure "vol1")).system.broker.store.record?
        "nqn-a" = some (.owned "vol1") := by decide
    have hsecond : ((start laterBound).run (createAfterFailure "vol1")).system.broker.store.record?
        "nqn-b" = some (.owned "vol1") := by decide
    have hsame : "nqn-a" = "nqn-b" :=
      (Store.accepted_iff.mp hafter).exclusive "nqn-a" "nqn-b" "vol1" hfirst hsecond
    exact absurd hsame (by decide)

end VolumeBroker.Traffic
