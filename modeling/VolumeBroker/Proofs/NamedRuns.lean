import VolumeBroker.Discovery.Command
import VolumeBroker.Proofs.LogGrouping
import VolumeBroker.Proofs.OperationCourse
import VolumeBroker.Proofs.StoreAcceptance

/-!
# Runs in which everything has a name

A volume without a name is refused when its creation arrives, and a discovery log says nothing of a
subsystem without a name.  So operations never ask for a device without naming a volume, and what
the command of a discovery reports has a name.  Beside the operations, and where the fabric is asked
in another way, this is a condition on the events, and `Traffic.Tidy` is what it keeps.
-/

set_option autoImplicit false

namespace VolumeBroker

/-! ## Discoveries -/

namespace Descriptor

/-- Every subsystem that a discovery log names has a name. -/
theorem nqn_ne_of_parseLog {text : String} {found : List Descriptor}
    (h : parseLog text = .ok found) : ∀ d ∈ found, d.nqn ≠ "" := by
  unfold parseLog at h
  split at h
  · obtain rfl := Except.ok.inj h
    intro d hd
    obtain ⟨r, -, haccepted, hname, -, -⟩ := exists_first_path hd
    rw [← hname]
    exact (LogRecord.accepted?_eq_some_iff.mp haccepted).2.1
  · cases h

end Descriptor

/-- What the fabric reports has a name, whatever it is asked. -/
def Surroundings.ReportsNamed (around : Surroundings) : Prop :=
  ∀ (params : Parameters) (found : List Descriptor), around.fabric params = .ok found →
    ∀ d ∈ found, d.nqn ≠ ""

/-- A fabric that is asked by command reports names. -/
theorem DiscoverySettings.reportsNamed (settings : DiscoverySettings) (program : Program)
    (faults : Faults) :
    Surroundings.ReportsNamed
      ⟨faults, fun params => (settings.discover params program).outcome⟩ := by
  intro params found h
  have h : (settings.discover params program).outcome = .ok found := h
  unfold DiscoverySettings.discover at h
  split at h
  · cases h
  · split at h
    · cases h
    · next output _ =>
      have hdevices : output.devices = .ok found := h
      unfold CommandOutput.devices at hdevices
      split at hdevices
      · exact Descriptor.nqn_ne_of_parseLog hdevices
      · cases hdevices

/-- Surroundings in which the fabric has two devices and saves meet this failure, if any. -/
def Surroundings.twoDevices (save : Option StoreError) : Surroundings where
  faults := { save }
  fabric _ := .ok [⟨"nqn-a", .tcp, ["10.0.0.1:4420"]⟩, ⟨"nqn-b", .tcp, ["10.0.0.2:4420"]⟩]

/-- The surroundings of the fixed runs report named devices only. -/
theorem Surroundings.reportsNamed_twoDevices (save : Option StoreError) :
    (twoDevices save).ReportsNamed := by
  intro params found hfound
  obtain rfl := Except.ok.inj hfound
  decide

/-! ## Operations -/

namespace Operation

/-- The request of an operation that goes on is in order, and what it is about to merge has names.
-/
def Checked (op : Operation) : Prop :=
  match op.stage with
  | .arrived => True
  | .ended _ => True
  | .merging found => op.request.fault? = none ∧ ∀ d ∈ found, d.nqn ≠ ""
  | _ => op.request.fault? = none

/-- A step that an operation takes by itself leaves what it has been checked for. -/
theorem Checked.next {op : Operation} (h : op.Checked) {around : Surroundings}
    (hreports : around.ReportsNamed) (b : Broker) : (op.next around b).Checked := by
  have hrequest : (op.next around b).request = op.request := rfl
  unfold Checked at h ⊢
  rw [hrequest]
  cases op.step_moves around b with
  | refused _ _ hnext _ | unfound _ hnext _ | turnedAway _ hnext _ | closed _ hnext _
  | rested _ hnext _ =>
    rw [hnext]
    trivial
  | accepted _ hfault hnext _ =>
    rw [hnext]
    cases hkind : op.request <;> rw [hkind] at hfault <;> exact hfault
  | ready hstage hnext _ | joined hstage hnext _ | waiting hstage hnext _ | woken hstage hnext _
  | locked hstage _ hnext _ | worked hstage hnext _ =>
    rw [hstage] at h
    rw [hnext]
    exact h
  | found hstage hfabric hnext _ =>
    rw [hstage] at h
    rw [hnext]
    exact ⟨h, hreports _ _ hfabric⟩
  | merged hstage hnext _ =>
    rw [hstage] at h
    rw [hnext]
    exact h.1

/-- An operation reports and asks for nothing without a name. -/
theorem Checked.named_of_event? {op : Operation} (h : op.Checked) {around : Surroundings}
    {e : System.Event} (hevent : op.event? around = some e) : e.ReportsNamed ∧ e.AsksNamed := by
  unfold Checked at h
  cases causes_of_event? hevent with
  | entered _ | left _ | locked _ | deleted _ _ | unlocked _ => exact ⟨trivial, trivial⟩
  | merged hstage =>
    rw [hstage] at h
    exact ⟨h.2, trivial⟩
  | created hstage hrequest =>
    simp only [hstage, hrequest] at h
    refine ⟨trivial, ?_⟩
    intro hempty
    simp [Request.fault?, hempty] at h

end Operation

namespace Traffic

/-- What a discovery reports has a name. -/
def Event.ReportsNamed : Event → Prop
  | .arrive _ => True
  | .advance _ around => around.ReportsNamed
  | .beside e => e.ReportsNamed

/-- Beside the operations, a device is asked for only for a volume with a name. -/
def Event.AsksNamed : Event → Prop
  | .beside e => e.AsksNamed
  | _ => True

/-- The operations are checked, and every device of the catalog has a name. -/
structure Tidy (t : Traffic) : Prop where
  checked : ∀ op ∈ t.operations, op.Checked
  named : t.system.broker.catalog.allocation? "" = none

/-- At first there are no operations, and nothing that could have gone unchecked. -/
theorem tidy_start (store : Store) : (start store).Tidy where
  checked := by simp [start]
  named := Catalog.allocation?_empty ""

/-- What a step of the traffic does to the broker names devices and volumes, if the traffic's own
event does. -/
theorem Tidy.named_of_event? {t : Traffic} (h : t.Tidy) {e : Event} {e' : System.Event}
    (hevent : t.event? e = some e') :
    (e.ReportsNamed → e'.ReportsNamed) ∧ (e.AsksNamed → e'.AsksNamed) := by
  cases e with
  | arrive request => cases hevent
  | advance i around =>
    obtain ⟨op, hop, hopevent⟩ := Option.bind_eq_some_iff.mp hevent
    have hchecked : op.Checked := h.checked op (List.mem_of_getElem? hop)
    obtain ⟨hreports, hasks⟩ := hchecked.named_of_event? hopevent
    exact ⟨fun _ => hreports, fun _ => hasks⟩
  | beside e => exact eq_of_event?_beside hevent ▸ ⟨id, id⟩

/-- One step of the traffic keeps what the operations under way have been checked for. -/
theorem Tidy.step {t : Traffic} (h : t.Tidy) {e : Event} (hreports : e.ReportsNamed) :
    (t.step e).Tidy := by
  refine ⟨?_, ?_⟩
  · refine forall_operations_step (fun _ => trivial) (fun i around op he hop => ?_) h.checked
    subst he
    exact hop.next hreports t.system.broker
  · exact system_step_induction (P := fun s => s.broker.catalog.allocation? "" = none) h.named
      fun _ hevent => System.nameless_step h.named ((h.named_of_event? hevent).1 hreports)

/-- Any number of steps keeps what the operations under way have been checked for. -/
theorem tidy_run {store : Store} {events : List Event}
    (hreports : ∀ e ∈ events, e.ReportsNamed) : ((start store).run events).Tidy :=
  run_induction Event.ReportsNamed (fun _ _ he h => h.step he) hreports (tidy_start store)

/-- The loads of the broker behind any traffic are numbered in their order. -/
theorem numbered_run {store : Store} {events : List Event} :
    ((start store).run events).system.Numbered := by
  rw [system_run]
  exact System.numbered_run store _

/-- The event binds a device to a volume that the store records as the owner of another one. -/
def Doubles (t : Traffic) (e : Event) : Prop :=
  ∃ e' ∈ t.event? e, t.system.Doubles e'

/-- Where everything has a name, an event without the work of other processes spoils a store that is
accepted exactly if it binds a second device to a volume. -/
theorem Tidy.wellFormed_step_iff {t : Traffic} (h : t.Tidy)
    (hwell : t.system.broker.store.WellFormed) (hnamed : t.system.broker.catalog.Named) {e : Event}
    (hown : e.isForeign = false) (hasks : e.AsksNamed) :
    (t.step e).system.broker.store.WellFormed ↔ ¬ t.Doubles e := by
  rcases t.system_step_cases e with ⟨hnone, hsame⟩ | ⟨e', hevent, hsystem⟩
  · have hnot : ¬ t.Doubles e := by
      rintro ⟨e', he', -⟩
      rw [hnone] at he'
      cases he'
    rw [hsame]
    exact iff_of_true hwell hnot
  · have hiff : t.Doubles e ↔ t.system.Doubles e' := by
      simp only [Doubles, hevent, Option.mem_some, exists_eq_left']
    rw [hsystem, hiff]
    exact System.wellFormed_step_iff hwell hnamed h.named (isForeign_of_event? hevent hown)
      ((h.named_of_event? hevent).2 hasks)

/-- Once the snapshot has been loaded, no creation gives a volume a second device: the catalog has
every owner that the store has. -/
theorem not_doubles {t : Traffic} (h : t.system.Faithful) (hload : t.system.HasLoaded) (e : Event) :
    ¬ t.Doubles e := by
  rintro ⟨e', -, hdoubles⟩
  exact h.not_doubles hload e' hdoubles

end Traffic

end VolumeBroker
