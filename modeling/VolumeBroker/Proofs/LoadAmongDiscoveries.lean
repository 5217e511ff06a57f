import VolumeBroker.Proofs.VolumeContexts

/-!
# The load among the discoveries

A discovery fills in how a device is reached, and a snapshot says to which volume it is bound.  The
two write to different parts of a device, and each makes a device that the other has not named in
the way the other would have completed it, so it does not matter which of them comes first
(`Catalog.merge_overlay`).  What does depend on the order is how many devices a discovery takes for
new.

In a survey the broker is told of devices and loads the snapshot, and binds and frees none.
`System.Surveyed` follows the catalog through it: it is as if all discoveries had come first and the
load had come last.
-/

set_option autoImplicit false

namespace VolumeBroker

/-- Resolving a device has nothing to do with its allocation. -/
theorem Device.resolve_with_allocation (d : Device) (a : Allocation) (found : Descriptor) :
    { d with allocation := a }.resolve found = { d.resolve found with allocation := a } := by
  unfold Device.resolve Device.isAddressable
  split <;> rfl

namespace Catalog

variable {catalog : Catalog}

/-- A report is taken into a catalog before or after a snapshot has been laid over it. -/
theorem report_overlay (catalog : Catalog) (s : Snapshot) (found : Descriptor) :
    (catalog.overlay s).report found = (catalog.report found).overlay s := by
  refine Std.ExtTreeMap.ext_getElem? fun nqn => ?_
  rw [getElem?_report, getElem?_overlay, getElem?_overlay, getElem?_report]
  by_cases hn : found.nqn = nqn
  · subst hn
    rw [if_pos rfl, if_pos rfl]
    cases hrecord : s[found.nqn]? with
    | none => rfl
    | some a =>
      cases hknown : catalog[found.nqn]? with
      | none => rfl
      | some d => exact congrArg some (d.resolve_with_allocation a found)
  · rw [if_neg hn, if_neg hn]

/-- A snapshot can be laid over the catalog before a discovery or after it. -/
theorem merge_overlay (catalog : Catalog) (s : Snapshot) (found : List Descriptor) :
    (catalog.overlay s).merge found = (catalog.merge found).overlay s := by
  unfold merge
  induction found generalizing catalog with
  | nil => rfl
  | cons x found ih => rw [List.foldl_cons, List.foldl_cons, report_overlay, ih]

/-- Descriptors can be merged in two parts. -/
theorem merge_append (catalog : Catalog) (first second : List Descriptor) :
    catalog.merge (first ++ second) = (catalog.merge first).merge second :=
  List.foldl_append ..

/-- A snapshot that has been laid over a catalog says nothing new. -/
theorem overlay_overlay (catalog : Catalog) (s : Snapshot) :
    (catalog.overlay s).overlay s = catalog.overlay s := by
  refine Std.ExtTreeMap.ext_getElem? fun nqn => ?_
  rw [getElem?_overlay, getElem?_overlay]
  cases s[nqn]? with
  | none => rfl
  | some a => cases catalog[nqn]? <;> rfl

end Catalog

/-- A load reads the store and not the catalog, so it comes to the same before a discovery is merged
as after it, and makes the same of the broker. -/
theorem Broker.loadSnapshot_mergeFound (b : Broker) (faults : Faults) (found : List Descriptor) :
    (b.mergeFound found).2.loadSnapshot faults =
      ((b.loadSnapshot faults).1, ((b.loadSnapshot faults).2.mergeFound found).2) := by
  have hread : (b.mergeFound found).2.readSnapshot faults = b.readSnapshot faults := rfl
  unfold loadSnapshot
  rw [hread]
  cases b.readSnapshot faults with
  | error e => rfl
  | ok s => simp only [mergeFound, Catalog.merge_overlay]

namespace System

/-- Whether an event belongs to a survey: devices are reported, the snapshot is loaded, locks are
taken and given back. -/
def Event.isSurvey : Event → Bool
  | .merge _ | .enterSync | .load _ _ | .finishLoad _ | .leaveSync _ | .lock _ | .unlock _ => true
  | _ => false

/-- What has become of the system `s` in a survey in which these devices were reported. -/
structure Surveyed (s t : System) (told : List Descriptor) : Prop where
  store : t.broker.store = s.broker.store
  /-- Before a load has succeeded, and after. -/
  catalog : (t.broker.catalog = s.broker.catalog.merge told ∧ (t.HasLoaded ↔ s.HasLoaded)) ∨
    ∃ snapshot : Snapshot, s.broker.store.load = .ok snapshot ∧ snapshot.Valid ∧
      t.broker.catalog = (s.broker.catalog.merge told).overlay snapshot

/-- Before anything has been reported the system is as it was. -/
theorem surveyed_start (s : System) : s.Surveyed s [] := ⟨rfl, .inl ⟨rfl, Iff.rfl⟩⟩

/-- One discovery, or the load, keeps what is known of the system. -/
theorem Surveyed.step {s t : System} {told : List Descriptor} (h : s.Surveyed t told) {e : Event}
    (hsurvey : e.isSurvey = true) : s.Surveyed (t.step e) (e.report told) := by
  cases hevent : e with
  | merge found =>
    have hmerged (catalog : Catalog) (hcatalog : t.broker.catalog = catalog) :
        (t.step (.merge found)).broker.catalog = catalog.merge found :=
      congrArg (·.merge found) hcatalog
    refine ⟨h.store, ?_⟩
    rcases h.catalog with ⟨hcatalog, hloaded⟩ | ⟨snapshot, hread, hvalid, hcatalog⟩
    · left
      rw [hmerged _ hcatalog, Event.report, Catalog.merge_append]
      exact ⟨rfl, hloaded⟩
    · right
      refine ⟨snapshot, hread, hvalid, ?_⟩
      rw [hmerged _ hcatalog, Event.report, Catalog.merge_append, Catalog.merge_overlay]
  | allocate _ _ | release _ _ | write _ | writeTexts _ | restart =>
    rw [hevent] at hsurvey
    cases hsurvey
  -- No other event of a survey reports anything.
  | _ =>
    show s.Surveyed (t.step _) told
    rw [← hevent]
    cases t.step_changes e with
    | quiet hcatalog hstore hloaded =>
      refine ⟨hstore.trans h.store, ?_⟩
      rw [hcatalog, hloaded]
      exact h.catalog
    | @restored _ _ snapshot hread hvalid hcatalog hstore =>
      refine ⟨hstore.trans h.store, .inr ?_⟩
      rw [h.store] at hread
      rcases h.catalog with ⟨hbefore, -⟩ | ⟨earlier, hearlier, -, hbefore⟩
      · exact ⟨snapshot, hread, hvalid, by rw [hcatalog, hbefore]⟩
      -- Another load reads the same snapshot, which says nothing new.
      · obtain rfl : earlier = snapshot := Except.ok.inj (hearlier.symm.trans hread)
        exact ⟨earlier, hread, hvalid, by rw [hcatalog, hbefore, Catalog.overlay_overlay]⟩
    | merged _ _ _ | bound _ _ _ _ _ _ | freed _ _ _ _ _ | restarted _ => cases hevent
    | written hforeign _ _ _ =>
      rw [hevent] at hforeign
      cases hforeign

/-- After any discoveries, with the load somewhere among them, the system is as if the reports had
come together. -/
theorem surveyed_run (s : System) {events : List Event}
    (hsurvey : ∀ e ∈ events, e.isSurvey = true) : s.Surveyed (s.run events) (reports events) := by
  induction events using List.reverseRecOn with
  | nil => exact s.surveyed_start
  | append_singleton events e ih =>
    rw [run_append, reports_append_singleton]
    have hbefore := ih fun e' he' => hsurvey e' (List.mem_append_left [e] he')
    exact hbefore.step (hsurvey e (by simp))

/-- A snapshot is loaded before a discovery is merged or after it, with the same catalog in the end
and the same outcome of the load.  So where devices are discovered and the snapshot is loaded, in
whatever order and however often a load fails, the catalog in the end is the one that all the
discoveries make, under the snapshot; and two such courses with the same discoveries in the same
order make the same catalog, whenever the load has succeeded among them. -/
theorem load_commutes_with_discoveries :
    (∀ (catalog : Catalog) (snapshot : Snapshot) (found : List Descriptor),
      (catalog.overlay snapshot).merge found = (catalog.merge found).overlay snapshot) ∧
    (∀ (b : Broker) (faults : Faults) (found : List Descriptor),
      (b.mergeFound found).2.loadSnapshot faults =
        ((b.loadSnapshot faults).1, ((b.loadSnapshot faults).2.mergeFound found).2)) ∧
    ∀ (s : System) (events : List Event), ¬ s.HasLoaded → (∀ e ∈ events, e.isSurvey = true) →
      (s.run events).HasLoaded →
        (∃ snapshot : Snapshot, s.broker.store.load = .ok snapshot ∧ snapshot.Valid ∧
          (s.run events).broker.catalog =
            (s.broker.catalog.merge (reports events)).overlay snapshot) ∧
        ∀ others : List Event, (∀ e ∈ others, e.isSurvey = true) → (s.run others).HasLoaded →
          reports others = reports events →
            (s.run others).broker.catalog = (s.run events).broker.catalog := by
  refine ⟨Catalog.merge_overlay, Broker.loadSnapshot_mergeFound,
    fun s events hfresh hsurvey hloaded => ?_⟩
  have hcatalog {events : List Event} (hsurvey : ∀ e ∈ events, e.isSurvey = true)
      (hloaded : (s.run events).HasLoaded) :
      ∃ snapshot : Snapshot, s.broker.store.load = .ok snapshot ∧ snapshot.Valid ∧
        (s.run events).broker.catalog =
          (s.broker.catalog.merge (reports events)).overlay snapshot := by
    refine (s.surveyed_run hsurvey).catalog.resolve_left ?_
    rintro ⟨-, hiff⟩
    exact hfresh (hiff.mp hloaded)
  obtain ⟨snapshot, hread, hvalid, hevents⟩ := hcatalog hsurvey hloaded
  refine ⟨⟨snapshot, hread, hvalid, hevents⟩, fun others hothers hloaded' hreports => ?_⟩
  obtain ⟨snapshot', hread', -, hcatalog'⟩ := hcatalog hothers hloaded'
  obtain rfl : snapshot' = snapshot := Except.ok.inj (hread'.symm.trans hread)
  rw [hcatalog', hevents, hreports]

/-- The store has a record of `nqn-a`, and one of the two devices that are found is that one.  A
discovery before the load takes both for new, one after it only the other; the catalog is the same,
and so it is if another load has failed between two discoveries. -/
theorem load_anywhere_among_discoveries :
    let s := start (.inMemory (.ofList [("nqn-a", .owned "vol1")] compare))
    let found : List Descriptor := [⟨"nqn-b", .tcp, []⟩, ⟨"nqn-a", .rdma, ["10.0.0.1:4420"]⟩]
    let other : List Descriptor := [⟨"nqn-a", .tcp, []⟩]
    (s.run (loading ++ [.merge found, .merge other])).broker.catalog =
        (s.run ([.merge found] ++ loading ++ [.merge other])).broker.catalog ∧
      (s.run ([.merge found, .enterSync, .load 0 { load := some (.backend "down") }, .finishLoad 0,
          .merge other, .enterSync, .load 1 {}, .finishLoad 1])).broker.catalog =
        (s.run ([.merge found] ++ loading ++ [.merge other])).broker.catalog ∧
      s.broker.catalog.countNew found = 2 ∧ (s.run loading).broker.catalog.countNew found = 1 := by
  intro s found other
  have hfresh : ¬ s.HasLoaded := by rintro ⟨_, h⟩; cases h
  have hequal := (load_commutes_with_discoveries.2.2 s
    ([.merge found] ++ loading ++ [.merge other]) hfresh (by decide) ⟨0, by decide⟩).2
  exact ⟨hequal _ (by decide) ⟨0, by decide⟩ rfl, hequal _ (by decide) ⟨1, by decide⟩ rfl,
    by decide, by decide⟩

end System

end VolumeBroker
