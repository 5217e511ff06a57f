import VolumeBroker.Proofs.NamedRuns

/-!
# A restart keeps the allocations

A broker that is synced agrees with its store, and what it writes is accepted.  So when its process
ends, a new broker on the store can load the snapshot, and finds every device in the state in which
the old one left it.  Devices that were never bound are the only ones it may not know: they were
free, and the store does not name them.
-/

set_option autoImplicit false

namespace VolumeBroker

/-- Once the snapshot has been loaded, what the store does not record is unknown or free. -/
theorem System.Faithful.unbound_of_record?_eq_none {s : System} (h : s.Faithful)
    (hload : s.HasLoaded) {nqn : String} (hrecord : s.broker.store.record? nqn = none) :
    s.broker.catalog.allocation? nqn = none ∨ s.broker.catalog.allocation? nqn = some .free := by
  have hsame := h.mirrored hload nqn
  cases hb : s.broker.catalog.allocation? nqn with
  | none => exact .inl rfl
  | some b =>
    rw [hrecord, hb] at hsame
    exact .inr (congrArg some hsame.symm)

namespace Traffic

/-- What holds of a broker that has loaded the snapshot, as long as it is the only one to write to
its store and everything has a name. -/
structure Settled (t : Traffic) : Prop where
  tidy : t.Tidy
  faithful : t.system.Faithful
  loaded : t.system.HasLoaded
  wellFormed : t.system.broker.store.WellFormed

/-- Nothing that goes on within the process unsettles it. -/
theorem Settled.step {t : Traffic} (h : t.Settled) {e : Event} (hown : e.isForeign = false)
    (hreports : e.ReportsNamed) (hasks : e.AsksNamed) (hlife : e ≠ .beside .restart) :
    (t.step e).Settled where
  tidy := h.tidy.step hreports
  faithful := faithful_step h.faithful hown
  loaded := system_step_induction h.loaded fun _ hevent =>
    h.loaded.step (ne_restart_of_event? hevent hlife)
  wellFormed :=
    (h.tidy.wellFormed_step_iff h.wellFormed h.faithful.named hown hasks).mpr
      (not_doubles h.faithful h.loaded e)

/-- The process ends, and a new one begins on the store and loads the snapshot. -/
def restartEvents (faults : Faults) : List Event :=
  .beside .restart :: (System.syncEvents 0 faults).map .beside

/-- Let a broker be synced that is the only one to write to its store, and let the store be
accepted.  Then, whatever is discovered, created and deleted and whatever saves fail, if the process
ends and the store can be read, the first one to ask the new broker for the snapshot learns that the
load has succeeded.  The new broker holds every device that it knows as the old one did, and every
other device was unknown to the old one or free. -/
theorem restart_keeps_allocations (store : Store) (before after : List Event)
    (hown : ∀ e ∈ before ++ after, e.isForeign = false)
    (hreports : ∀ e ∈ before ++ after, e.ReportsNamed) (hasks : ∀ e ∈ after, e.AsksNamed)
    (hlife : ∀ e ∈ after, e ≠ .beside .restart)
    (hsynced : ((start store).run before).system.broker.sync.isSynced = true)
    (haccepted : ((start store).run before).system.broker.store.Accepted)
    (faults : Faults) (hread : faults.load = none) :
    let old := ((start store).run (before ++ after)).system.broker
    let new := (((start store).run (before ++ after)).run (restartEvents faults)).system.broker
    old.restart.enterSync.1 = .awaits 0 ∧ new.sync.outcome? 0 = some (.ok ()) ∧
      new.sync.isSynced = true ∧
      ∀ nqn : String,
        (∀ a : Allocation, new.catalog.allocation? nqn = some a →
          old.catalog.allocation? nqn = some a) ∧
        (new.catalog.allocation? nqn = none →
          old.catalog.allocation? nqn = none ∨ old.catalog.allocation? nqn = some .free) := by
  intro old new
  obtain ⟨hownBefore, hownAfter⟩ := List.forall_mem_append.mp hown
  obtain ⟨hreportsBefore, hreportsAfter⟩ := List.forall_mem_append.mp hreports
  have hsettledBefore : ((start store).run before).Settled :=
    { tidy := tidy_run hreportsBefore
      faithful := faithful_run hownBefore
      loaded := truthful_run.hasLoaded_of_synced (beq_iff_eq.mp hsynced)
      wellFormed := Store.accepted_iff.mp haccepted }
  have hsettled : ((start store).run (before ++ after)).Settled := by
    rw [run_append]
    exact run_induction
      (fun e => e.isForeign = false ∧ e.ReportsNamed ∧ e.AsksNamed ∧ e ≠ .beside .restart)
      (fun _ _ ⟨ho, hr, ha, hl⟩ h => h.step ho hr ha hl)
      (fun e he => ⟨hownAfter e he, hreportsAfter e he, hasks e he, hlife e he⟩) hsettledBefore
  obtain ⟨houtcome, hphase, hlookup⟩ := System.run_syncEvents_start
    (Store.accepted_iff.mpr hsettled.wellFormed) hread
  -- The new catalog is what the store has, and the store stands behind the old one.
  have hnew (nqn : String) : new.catalog.allocation? nqn = old.store.record? nqn := hlookup nqn
  refine ⟨rfl, houtcome, beq_iff_eq.mpr hphase, fun nqn => ?_⟩
  rw [hnew]
  exact ⟨fun _ => hsettled.faithful.allocation?_of_record? hsettled.loaded,
    hsettled.faithful.unbound_of_record?_eq_none hsettled.loaded⟩

/-- The snapshot is loaded. -/
def firstLoad : List Event := (System.syncEvents 0 {}).map .beside

/-- A volume `vol1` is created, and its deletion fails because the record cannot be written. -/
def createThenFailToDelete : List Event :=
  .arrive (.create ⟨"vol1", [some .mount], ∅⟩) ::
    List.replicate 7 (.advance 0 (.twoDevices none)) ++
    .arrive (.delete "nqn-a") ::
      List.replicate 4 (.advance 1 (.twoDevices (some (.backend "full"))))

/-- A database that was empty at first gives the volume back to the next broker. -/
theorem restart_keeps_created_volume :
    let old := ((start (.database ∅)).run (firstLoad ++ createThenFailToDelete)).system.broker
    let new := (((start (.database ∅)).run (firstLoad ++ createThenFailToDelete)).run
      (restartEvents {})).system.broker
    old.catalog.allocation? "nqn-a" = some (.owned "vol1") ∧
      new.catalog.allocation? "nqn-a" = some (.owned "vol1") := by
  intro old new
  have hown : ∀ e ∈ firstLoad ++ createThenFailToDelete, e.isForeign = false := by decide
  have hreports : ∀ e ∈ firstLoad ++ createThenFailToDelete, e.ReportsNamed := by
    simp [firstLoad, createThenFailToDelete, System.syncEvents, Event.ReportsNamed,
      System.Event.ReportsNamed, Surroundings.reportsNamed_twoDevices]
  have hasks : ∀ e ∈ createThenFailToDelete, e.AsksNamed := by
    simp [createThenFailToDelete, Event.AsksNamed]
  have hlife : ∀ e ∈ createThenFailToDelete, e ≠ .beside .restart := by
    simp [createThenFailToDelete]
  have hold : old.catalog.allocation? "nqn-a" = some (.owned "vol1") := by decide
  obtain ⟨-, -, -, hkept⟩ := restart_keeps_allocations (.database ∅) firstLoad
    createThenFailToDelete hown hreports hasks hlife (by decide) ⟨∅, rfl, rfl⟩ {} rfl
  obtain ⟨hknown, hunknown⟩ := hkept "nqn-a"
  refine ⟨hold, ?_⟩
  cases hnew : new.catalog.allocation? "nqn-a" with
  | some a =>
    have hsame : old.catalog.allocation? "nqn-a" = some a := hknown a hnew
    rw [← hsame, hold]
  | none =>
    rcases hunknown hnew with hgone | hfree
    · rw [hold] at hgone
      cases hgone
    · rw [hold] at hfree
      cases hfree

end Traffic

end VolumeBroker
