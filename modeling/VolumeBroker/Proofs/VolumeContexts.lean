import VolumeBroker.Proofs.DeviceLifecycle
import VolumeBroker.Proofs.OperationCourse
import VolumeBroker.Proofs.VolumeHistory

/-!
# The context of a created volume

A creation that succeeds tells how the device of the volume is reached, as far as the broker knows.
What it knows is what the discoveries of the present process have reported: the first report of a
device settles its addressing (`System.reflects_run`), and the store records none.  A device that is
newly bound has been reported, because only such a device is bound.  A creation that is asked for
once more gets the device that the volume owns, reported or not, so its context says nothing of the
transport exactly when the device was restored from the snapshot and no discovery of this process
has reported it.
-/

set_option autoImplicit false

namespace VolumeBroker

/-! ## Reports -/

/-- The addressing of a device is the one that it has been reported with, if it has been. -/
structure Device.AddressedBy (d : Device) (report? : Option Descriptor) : Prop where
  transport_eq : d.transport = report?.map (·.transport)
  endpoints_eq : d.endpoints = (report?.map (·.endpoints)).getD []

/-- A device that has been reported is not changed by another report. -/
theorem Device.AddressedBy.resolve {d : Device} {report? : Option Descriptor}
    (h : d.AddressedBy report?) (found : Descriptor) :
    (d.resolve found).AddressedBy (report?.or (some found)) := by
  unfold Device.resolve Device.isAddressable
  rw [h.transport_eq]
  cases report? with
  | some x => exact h
  | none => exact ⟨rfl, rfl⟩

namespace Catalog

/-- The catalog knows what has been reported, and of each device the first report. -/
structure Reflects (catalog : Catalog) (reports : List Descriptor) : Prop where
  addressed : ∀ (nqn : String) (d : Device), catalog[nqn]? = some d →
    d.AddressedBy (reports.find? (·.nqn == nqn))
  unreported : ∀ nqn : String, catalog[nqn]? = none → reports.find? (·.nqn == nqn) = none

/-- An empty catalog knows what has been reported before anything has. -/
theorem reflects_empty : Reflects ∅ [] := ⟨by simp, by simp⟩

variable {catalog : Catalog} {reports : List Descriptor}

/-- A snapshot changes no addressing, and the devices it adds have not been reported. -/
theorem Reflects.overlay (h : catalog.Reflects reports) (s : Snapshot) :
    (catalog.overlay s).Reflects reports := by
  refine ⟨fun nqn d hd => ?_, fun nqn hnone => ?_⟩
  · rw [getElem?_overlay] at hd
    cases hs : s[nqn]? with
    | none =>
      rw [hs, Option.map_none, Option.none_or] at hd
      exact h.addressed nqn d hd
    | some a =>
      rw [hs, Option.map_some, Option.some_or, Option.some.injEq] at hd
      subst hd
      cases hknown : catalog[nqn]? with
      | none =>
        rw [h.unreported nqn hknown]
        exact ⟨rfl, rfl⟩
      | some old => exact ⟨(h.addressed nqn old hknown).1, (h.addressed nqn old hknown).2⟩
  · rw [getElem?_overlay, Option.or_eq_none_iff] at hnone
    exact h.unreported nqn hnone.2

/-- An allocation changes no addressing. -/
theorem Reflects.assign (h : catalog.Reflects reports) (k : String) (a : Allocation) :
    (catalog.assign k a).Reflects reports := by
  refine ⟨fun nqn d hd => ?_, fun nqn hnone => ?_⟩
  · rw [getElem?_assign] at hd
    split at hd
    · obtain ⟨old, hold, rfl⟩ := Option.map_eq_some_iff.mp hd
      exact ⟨(h.addressed nqn old hold).1, (h.addressed nqn old hold).2⟩
    · exact h.addressed nqn d hd
  · rw [getElem?_assign] at hnone
    split at hnone
    · exact h.unreported nqn (Option.map_eq_none_iff.mp hnone)
    · exact h.unreported nqn hnone

/-- One more report is known to the catalog. -/
theorem Reflects.report (h : catalog.Reflects reports) (found : Descriptor) :
    (catalog.report found).Reflects (reports ++ [found]) := by
  have hfind : ∀ nqn : String, (reports ++ [found]).find? (·.nqn == nqn) =
      (reports.find? (·.nqn == nqn)).or (if found.nqn = nqn then some found else none) := by
    intro nqn
    by_cases hn : found.nqn = nqn <;> simp [List.find?_append, hn]
  refine ⟨fun nqn d hd => ?_, fun nqn hnone => ?_⟩
  · rw [getElem?_report] at hd
    rw [hfind]
    by_cases hn : found.nqn = nqn
    · rw [if_pos hn, Option.some.injEq] at hd
      rw [if_pos hn, ← hd]
      cases hknown : catalog[nqn]? with
      | none =>
        rw [h.unreported nqn hknown]
        exact ⟨rfl, rfl⟩
      | some old => exact (h.addressed nqn old hknown).resolve found
    · rw [if_neg hn] at hd ⊢
      rw [Option.or_none]
      exact h.addressed nqn d hd
  · rw [getElem?_report] at hnone
    rw [hfind]
    by_cases hn : found.nqn = nqn
    · rw [if_pos hn] at hnone
      cases hnone
    · rw [if_neg hn] at hnone ⊢
      rw [h.unreported nqn hnone, Option.none_or]

/-- A discovery is known to the catalog. -/
theorem Reflects.merge (h : catalog.Reflects reports) (found : List Descriptor) :
    (catalog.merge found).Reflects (reports ++ found) := by
  unfold Catalog.merge
  induction found generalizing catalog reports with
  | nil => simpa using h
  | cons x found ih => simpa using ih (h.report x)

end Catalog

namespace System

/-- What the present process has been told, after it has been told `reports` and then has seen the
event. -/
def Event.report (reports : List Descriptor) : Event → List Descriptor
  | .merge found => reports ++ found
  | .restart => []
  | _ => reports

/-- What the discoveries have reported in the course of the events since the process began. -/
def reports (events : List Event) : List Descriptor := events.foldl Event.report []

/-- One more event reports what it reports after the others. -/
theorem reports_append_singleton (events : List Event) (e : Event) :
    reports (events ++ [e]) = e.report (reports events) := by
  simp [reports]

/-- After one more event the catalog knows what has been reported in the process. -/
theorem reflects_step {s : System} {reports : List Descriptor}
    (h : s.broker.catalog.Reflects reports) (e : Event) :
    (s.step e).broker.catalog.Reflects (e.report reports) := by
  cases hchange : e with
  | merge found => exact h.merge found
  | restart => exact Catalog.reflects_empty
  | _ =>
    show (s.step _).broker.catalog.Reflects reports
    rw [← hchange]
    cases s.step_changes e with
    | quiet hcatalog _ _ | written _ hcatalog _ _ => exact hcatalog ▸ h
    | restored _ _ hcatalog _ => exact hcatalog ▸ h.overlay _
    | bound _ _ _ hcatalog _ _ | freed _ _ hcatalog _ _ => exact hcatalog ▸ h.assign _ _
    | merged _ _ _ | restarted _ => cases hchange

/-- In any history the catalog knows what has been reported in the process. -/
theorem reflects_run (store : Store) (events : List Event) :
    ((start store).run events).broker.catalog.Reflects (reports events) := by
  have hall : ∀ (s : System) (told : List Descriptor), s.broker.catalog.Reflects told →
      (s.run events).broker.catalog.Reflects (events.foldl Event.report told) := by
    induction events with
    | nil => exact fun _ _ h => h
    | cons e events ih => exact fun s told h => ih (s.step e) (e.report told) (reflects_step h e)
  exact hall _ _ Catalog.reflects_empty

/-! ## Known devices -/

/-- In the course of the events the process has applied a snapshot that names the device, and it has
not ended since. -/
def Restored (s : System) (events : List Event) (nqn : String) : Prop :=
  ∃ (before after : List Event) (e : Event) (snapshot : Snapshot), events = before ++ e :: after ∧
    (∀ d ∈ after, d ≠ .restart) ∧ (s.run before).applied? e = some snapshot ∧
    (snapshot[nqn]?).isSome

/-- A device that has been restored stays so as long as the process lives. -/
theorem Restored.append_singleton {s : System} {events : List Event} {nqn : String}
    (h : s.Restored events nqn) {e : Event} (hlife : e ≠ .restart) :
    s.Restored (events ++ [e]) nqn := by
  obtain ⟨before, after, d, snapshot, rfl, hafter, happlied, hnamed⟩ := h
  refine ⟨before, after ++ [e], d, snapshot, by simp, fun x hx => ?_, happlied, hnamed⟩
  rcases List.mem_append.mp hx with hold | hlast
  · exact hafter x hold
  · rw [List.mem_singleton.mp hlast]
    exact hlife

/-- A device that is known after an event was known before it, unless the event reports it or
applies a snapshot that names it. -/
theorem known_step_cases {s : System} {e : Event} {nqn : String}
    (h : ((s.step e).broker.catalog.allocation? nqn).isSome) :
    (e ≠ .restart ∧ (s.broker.catalog.allocation? nqn).isSome) ∨
      (∃ found : List Descriptor, e = .merge found ∧ nqn ∈ found.map (·.nqn)) ∨
      ∃ snapshot : Snapshot, s.applied? e = some snapshot ∧ (snapshot[nqn]?).isSome := by
  by_cases hlife : e = .restart
  · subst hlife
    simp [step, start, Broker.start] at h
  by_cases hbefore : (s.broker.catalog.allocation? nqn).isSome
  · exact .inl ⟨hlife, hbefore⟩
  right
  rw [Option.not_isSome_iff_eq_none] at hbefore
  -- The device is new to the catalog, so the event makes another catalog.
  have hchanged : (s.step e).broker.catalog ≠ s.broker.catalog := by
    intro hsame
    simp [hsame, hbefore] at h
  cases s.step_changes e with
  | quiet hcatalog _ _ | written _ hcatalog _ _ => exact absurd hcatalog hchanged
  | @restored number faults _ _ _ _ _ =>
    right
    rw [allocation?_step_load, hbefore, Option.or_none] at h
    obtain ⟨a, ha⟩ := Option.isSome_iff_exists.mp h
    obtain ⟨snapshot, happlied, hrecord⟩ := Option.bind_eq_some_iff.mp ha
    exact ⟨snapshot, happlied, Option.isSome_of_eq_some hrecord⟩
  | @merged found hcatalog _ _ =>
    left
    rw [hcatalog, Catalog.allocation?_merge, hbefore, Option.none_or] at h
    refine ⟨found, rfl, ?_⟩
    by_contra hnot
    rw [if_neg hnot] at h
    cases h
  | bound _ _ _ hcatalog _ _ | freed _ _ hcatalog _ _ =>
    rw [hcatalog, Catalog.allocation?_assign, hbefore] at h
    simp at h
  | restarted _ => exact absurd rfl hlife

/-- A device of the catalog has been reported in the process or restored from a snapshot. -/
theorem reported_or_restored_run {store : Store} {events : List Event} {nqn : String}
    (h : (((start store).run events).broker.catalog.allocation? nqn).isSome) :
    nqn ∈ (reports events).map (·.nqn) ∨ (start store).Restored events nqn := by
  induction events using List.reverseRecOn with
  | nil => simp [run, start, Broker.start] at h
  | append_singleton events e ih =>
    rw [run_append] at h
    rw [reports_append_singleton]
    rcases known_step_cases h with
      ⟨hlife, hbefore⟩ | ⟨found, rfl, hmem⟩ | ⟨snapshot, happlied, hnamed⟩
    · rcases ih hbefore with hreported | hrestored
      · left
        cases e with
        | merge found =>
          rw [Event.report, List.map_append]
          exact List.mem_append_left _ hreported
        | restart => exact absurd rfl hlife
        | _ => exact hreported
      · exact .inr (hrestored.append_singleton hlife)
    · left
      rw [Event.report, List.map_append]
      exact List.mem_append_right _ hmem
    · exact .inr ⟨events, [], e, snapshot, rfl, by simp, happlied, hnamed⟩

end System

/-! ## Operations that have succeeded -/

namespace Operation

/-- An operation succeeds by its work. -/
theorem outcome?_of_next {around : Surroundings} {b : Broker} {op : Operation} {answer : Answer}
    (h : (op.next around b).outcome? = some (.ok answer)) :
    op.outcome? = some (.ok answer) ∨
      (op.stage = .working ∧ (op.step around b).1 = .closing (.ok answer)) := by
  cases op.step_moves around b with
  | worked hstage hnext _ =>
    right
    refine ⟨hstage, ?_⟩
    simp only [outcome?, hnext, Option.some.injEq] at h
    rw [← h]
    exact hnext
  | closed hstage hnext _ | rested hstage hnext _ =>
    left
    simp only [outcome?, hnext] at h
    simpa only [outcome?, hstage] using h
  | refused _ _ hnext _ | unfound _ hnext _ | turnedAway _ hnext _ =>
    simp [outcome?, hnext] at h
  | accepted _ _ hnext _ =>
    cases hrequest : op.request <;> simp [outcome?, hnext, hrequest, afterArrival] at h
  | ready _ hnext _ | joined _ hnext _ | waiting _ hnext _ | woken _ hnext _ | found _ _ hnext _
  | merged _ hnext _ | locked _ _ hnext _ =>
    simp [outcome?, hnext] at h

end Operation

namespace Traffic

/-- An operation that has succeeded has done its work in the course of the present process. -/
theorem performed_run {store : Store} {events : List Event} {i : Nat} {op : Operation}
    {answer : Answer} (hop : ((start store).run events).operations[i]? = some op)
    (hok : op.outcome? = some (.ok answer)) :
    ∃ (before after : List Event) (around : Surroundings),
      events = before ++ .advance i around :: after ∧ (∀ e ∈ after, e ≠ .beside .restart) ∧
      ((start store).run before).Performs (.advance i around) op.request (.ok answer) := by
  induction events using List.reverseRecOn generalizing op with
  | nil => simp [run, start] at hop
  | append_singleton events e ih =>
    -- What was there before the last event is found by the induction hypothesis.
    have hearlier : ∀ earlier : Operation, e ≠ .beside .restart →
        ((start store).run events).operations[i]? = some earlier →
        earlier.request = op.request → earlier.outcome? = some (.ok answer) →
        ∃ (before after : List Event) (around : Surroundings),
          events ++ [e] = before ++ .advance i around :: after ∧
          (∀ e ∈ after, e ≠ .beside .restart) ∧
          ((start store).run before).Performs (.advance i around) op.request (.ok answer) := by
      intro earlier hlife hop' hrequest hok'
      obtain ⟨before, after, around, rfl, hafter, hperforms⟩ := ih hop' hok'
      refine ⟨before, after ++ [e], around, by simp, fun d hd => ?_, hrequest ▸ hperforms⟩
      rcases List.mem_append.mp hd with hold | hlast
      · exact hafter d hold
      · rw [List.mem_singleton.mp hlast]
        exact hlife
    rw [run_append] at hop
    rcases operation_of_step hop with ⟨hlife, hsame⟩ | harrived | ⟨around, earlier, rfl, hop', rfl⟩
    · exact hearlier op hlife hsame rfl hok
    · simp [Operation.outcome?, harrived] at hok
    · rcases Operation.outcome?_of_next hok with hok' | ⟨hstage, hdone⟩
      · exact hearlier earlier (by simp) hop' rfl hok'
      · exact ⟨events, [], around, rfl, by simp, i, around, earlier, rfl, hop', rfl, hstage, hdone⟩

/-- The device that a creation has given out is bound to the volume, the context is the one that it
has in the catalog, and unless the volume owned it before, it can be reached. -/
theorem Performs.created_device {t : Traffic} {e : Event} {request : CreateRequest}
    {volume : CreatedVolume} (hnamed : t.system.broker.catalog.Named)
    (h : t.Performs e (.create request) (.ok (.created volume))) :
    ∃ d : Device, (t.step e).system.broker.catalog[volume.id]? = some d ∧
      d.allocation = .owned request.name ∧ volume.context = d.volumeContext ∧
      (t.allocation? volume.id = some (.owned request.name) ∨ d.isAddressable = true) := by
  obtain ⟨i, around, op, rfl, hop, hrequest, hstage, hdone⟩ := h
  obtain ⟨d, hresult, rfl⟩ := (Operation.created_iff hrequest hstage).mp hdone
  obtain ⟨hd, hallocation⟩ := Broker.getElem?_allocate hnamed hresult
  refine ⟨d, ?_, hallocation, rfl, ?_⟩
  · rw [broker_step_advance hop, Operation.step_create hrequest hstage]
    exact hd
  · rcases Broker.allocate_eq_ok_iff.mp hresult with howned | ⟨-, -, first, hfirst, rfl⟩
    · exact .inl (Catalog.allocation?_of_ownedBy? hnamed howned)
    · obtain ⟨-, -, haddressable⟩ := Catalog.getElem?_of_firstAllocatable? hnamed hfirst
      exact .inr haddressable

/-- The work of a creation reports nothing. -/
theorem Performs.reflects_step {t : Traffic} {e : Event} {request : CreateRequest}
    {outcome : Outcome} (h : t.Performs e (.create request) outcome) {reports : List Descriptor}
    (hreflects : t.system.broker.catalog.Reflects reports) :
    (t.step e).system.broker.catalog.Reflects reports := by
  obtain ⟨i, around, op, rfl, hop, hrequest, hstage, -⟩ := h
  have hevent : t.event? (.advance i around) = some (.allocate around.faults request.name) := by
    simp only [event?, hop, Option.bind_some, Operation.event?, hstage, hrequest,
      Request.workEvent?]
  rw [system_step, hevent]
  exact System.reflects_step hreflects (.allocate around.faults request.name)

/-- Take a creation that has returned a volume, in any run, whoever else is at work and whatever
fails.  When it did its work, in the same process, the device was bound to its volume, and the
context names the transport that the catalog has for the device.  That is the transport of the first
report of the device in this process, and the endpoints are those of the same report.  Only if there
was no report is no transport named, and then the volume owned the device before, and this process
has restored it from a snapshot. -/
theorem created_context_of_first_report (store : Store) (events : List Event) (i : Nat)
    (op : Operation) (request : CreateRequest) (volume : CreatedVolume)
    (hop : ((start store).run events).operations[i]? = some op)
    (hrequest : op.request = .create request)
    (hok : op.outcome? = some (.ok (.created volume))) :
    ∃ (before after : List Event) (around : Surroundings),
      events = before ++ .advance i around :: after ∧ (∀ e ∈ after, e ≠ .beside .restart) ∧
      ((start store).run before).Performs (.advance i around) (.create request)
        (.ok (.created volume)) ∧
      (∃ d : Device, (((start store).run before).step
          (.advance i around)).system.broker.catalog[volume.id]? = some d ∧
        d.allocation = .owned request.name ∧
        volume.context[transportParameter]? = d.transport.map (·.name)) ∧
      let trace := (start store).trace before
      let report? := (System.reports trace).find? (·.nqn == volume.id)
      volume.context[transportParameter]? = report?.map (·.transport.name) ∧
      volume.context[endpointsKey]? =
        (report?.filter (1 < ·.endpoints.length)).map (joinEndpoints ·.endpoints) ∧
      (report? = none →
        ((start store).run before).allocation? volume.id = some (.owned request.name) ∧
          (System.start store).Restored trace volume.id) := by
  obtain ⟨before, after, around, hsplit, hafter, hperforms⟩ := performed_run hop hok
  rw [hrequest] at hperforms
  refine ⟨before, after, around, hsplit, hafter, hperforms, ?_⟩
  have hsystem : ((start store).run before).system =
      (System.start store).run ((start store).trace before) := system_run _ _
  have hnamed : ((start store).run before).system.broker.catalog.Named := by
    rw [hsystem]
    exact (System.sound_run store _).named
  have hreflects := hperforms.reflects_step (hsystem ▸ System.reflects_run store _)
  obtain ⟨d, hd, hallocation, hcontext, hbefore⟩ := hperforms.created_device hnamed
  obtain ⟨htransport, hendpoints⟩ := hreflects.addressed volume.id d hd
  refine ⟨⟨d, hd, hallocation, ?_⟩, ?_, ?_, fun hnone => ?_⟩
  · rw [hcontext, Device.getElem?_transport_volumeContext]
  · rw [hcontext, Device.getElem?_transport_volumeContext, htransport, Option.map_map]
    rfl
  · rw [hcontext, Device.getElem?_endpoints_volumeContext, hendpoints]
    cases (System.reports ((start store).trace before)).find? (·.nqn == volume.id) with
    | none => rfl
    | some x => by_cases hseveral : 1 < x.endpoints.length <;> simp [Option.filter, hseveral]
  · rw [hnone, Option.map_none] at htransport
    have howned : ((start store).run before).allocation? volume.id = some (.owned request.name) :=
      hbefore.resolve_right (by simp [Device.isAddressable, htransport])
    refine ⟨howned, ?_⟩
    have hknown : (((System.start store).run
        ((start store).trace before)).broker.catalog.allocation? volume.id).isSome := by
      rw [← hsystem]
      exact Option.isSome_of_eq_some howned
    refine (System.reported_or_restored_run hknown).resolve_left fun hreported => ?_
    obtain ⟨x, hx, hnqn⟩ := List.mem_map.mp hreported
    exact absurd hnqn (by simpa using List.find?_eq_none.mp hnone x hx)

/-- A volume `vol1` is created, the process ends, the new one loads the snapshot, and `vol1` is
asked for once more while the fabric has these devices. -/
def retriedCreation (nqns : List String) : List Event :=
  firstCreation ++
    [workOf 0, .beside .restart, .beside .enterSync, .beside (.load 0 {}), .beside (.finishLoad 0),
      .arrive (.create ⟨"vol1", [some .mount], ∅⟩)] ++
    List.replicate 7 (.advance 0 (fabricOf nqns))

/-- The fabric still has the device: the transport that the context names is that of a report in the
new process. -/
theorem retried_context_names_transport : ∃ (op : Operation) (volume : CreatedVolume),
    ((start (.inMemory ∅)).run (retriedCreation ["nqn-b"])).operations[0]? = some op ∧
      op.outcome? = some (.ok (.created volume)) ∧ volume.id = "nqn-b" ∧
      volume.context[transportParameter]? = some "tcp" ∧
      ∃ (before after : List Event) (around : Surroundings) (x : Descriptor),
        retriedCreation ["nqn-b"] = before ++ .advance 0 around :: after ∧
        x ∈ System.reports ((start (.inMemory ∅)).trace before) ∧
        x.nqn = "nqn-b" ∧ x.transport.name = "tcp" := by
  obtain ⟨op, volume, hop, hrequest, hok, hid, htcp⟩ : ∃ (op : Operation) (volume : CreatedVolume),
      ((start (.inMemory ∅)).run (retriedCreation ["nqn-b"])).operations[0]? = some op ∧
        op.request = .create ⟨"vol1", [some .mount], ∅⟩ ∧
        op.outcome? = some (.ok (.created volume)) ∧ volume.id = "nqn-b" ∧
        volume.context[transportParameter]? = some "tcp" := by
    refine ⟨_, ⟨"nqn-b", _⟩, rfl, rfl, rfl, rfl, ?_⟩
    decide
  obtain ⟨before, after, around, hsplit, -, -, -, htransport, -, -⟩ :=
    created_context_of_first_report (.inMemory ∅) _ 0 op _ volume hop hrequest hok
  rw [htcp] at htransport
  obtain ⟨x, hx, hname⟩ := Option.map_eq_some_iff.mp htransport.symm
  obtain ⟨hnqn, -⟩ := List.find?_eq_some_iff_append.mp hx
  refine ⟨op, volume, hop, hok, hid, htcp, before, after, around, x, hsplit,
    List.mem_of_find?_eq_some hx, ?_, hname⟩
  rw [← hid]
  exact beq_iff_eq.mp hnqn

/-- The fabric has no device any more: the creation succeeds, and the context names no transport. -/
theorem restored_context_lacks_transport : ∃ (op : Operation) (volume : CreatedVolume),
    ((start (.inMemory ∅)).run (retriedCreation [])).operations[0]? = some op ∧
      op.request = .create ⟨"vol1", [some .mount], ∅⟩ ∧
      op.stage = .ended (.ok (.created volume)) ∧ volume.id = "nqn-b" ∧
      transportParameter ∉ volume.context := by
  refine ⟨_, ⟨"nqn-b", _⟩, rfl, rfl, rfl, rfl, ?_⟩
  decide

end Traffic

end VolumeBroker
