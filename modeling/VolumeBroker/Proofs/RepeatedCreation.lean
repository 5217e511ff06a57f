import VolumeBroker.Proofs.VolumeContexts

/-!
# Creations that are asked for once more

Whoever asks for a volume that exists is given the same volume.  The request comes to a catalog in
which the device is still bound, because it has not been given back; so the device is found by its
owner, and no record is written.  That the context is the same, too, is due to the addressing of a
device, which no discovery and no snapshot changes once it is known.  What the second creation needs
of the first is that the device has stayed `Held`: bound to the volume, and what has become of it.
-/

set_option autoImplicit false

namespace VolumeBroker

/-- The context of a device that can be reached does not change while the device is kept. -/
theorem Device.Continues.volumeContext_eq {d e : Device} (h : d.Continues e)
    (haddressable : d.isAddressable = true) : e.volumeContext = d.volumeContext := by
  obtain ⟨htransport, hendpoints⟩ := h.2 haddressable
  simp only [volumeContext, htransport, hendpoints]

/-- A device whose context names a transport is addressable. -/
theorem Device.isAddressable_of_mem_volumeContext {d : Device}
    (h : transportParameter ∈ d.volumeContext) : d.isAddressable = true := by
  rw [Std.ExtTreeMap.mem_iff_isSome_getElem?, getElem?_transport_volumeContext,
    Option.isSome_map] at h
  exact h

namespace Operation

variable {b : Broker} {op : Operation} {request : CreateRequest} {d : Device}

/-- Only the work of a creation has a record written, and not if the volume owns a device. -/
theorem calls?_ne_save_of_owned (hrequest : op.request = .create request)
    (howned : b.catalog.ownedBy? request.name = some d) : op.calls? b ≠ some .save := by
  have hsettled : (b.catalog.allocate request.name).isCommit = false := by
    simp only [Catalog.allocate, howned, Decision.isCommit]
  obtain ⟨_, stage⟩ := op
  obtain rfl := hrequest
  cases stage <;> simp [calls?, hsettled]

/-- The work of a creation for a volume that owns a device gives out that device and changes
nothing. -/
theorem step_create_of_owned (around : Surroundings) (hrequest : op.request = .create request)
    (hstage : op.stage = .working) (howned : b.catalog.ownedBy? request.name = some d) :
    op.step around b = (.closing (.ok (.created ⟨d.nqn, d.volumeContext⟩)), b) := by
  rw [step_create hrequest hstage, Broker.allocate_of_owned howned]

end Operation

namespace Traffic

/-- No device is forgotten while the process goes on. -/
theorem keptIn_run (t : Traffic) {events : List Event}
    (hlife : ∀ e ∈ events, e ≠ .beside .restart) :
    t.system.broker.catalog.KeptIn (t.run events).system.broker.catalog :=
  run_induction (P := fun u => t.system.broker.catalog.KeptIn u.system.broker.catalog)
    (fun e => e ≠ .beside .restart)
    (fun _ _ he h => system_step_induction
      (P := fun s => t.system.broker.catalog.KeptIn s.broker.catalog) h
      fun _ hevent => h.trans (System.keptIn_step _ (ne_restart_of_event? hevent he)))
    hlife (.refl _)

/-- The volume `name` owns what has become of the device `d`. -/
def Held (t : Traffic) (name : String) (d : Device) : Prop :=
  ∃ e : Device, t.system.broker.catalog.ownedBy? name = some e ∧ d.Continues e

/-- A device that is not given back stays with its volume. -/
theorem held_run {t : Traffic} (h : t.system.Faithful) {events : List Event}
    (hown : ∀ e ∈ events, e.isForeign = false) (hlife : ∀ e ∈ events, e ≠ .beside .restart)
    (hexclusive : (t.run events).system.broker.catalog.Exclusive) {id name : String} {d : Device}
    (hd : t.system.broker.catalog[id]? = some d) (hallocation : d.allocation = .owned name)
    (hkept : ∀ (mid rest : List Event) (e : Event), events = mid ++ e :: rest →
      ¬ (t.run mid).Releases e id) : (t.run events).Held name d := by
  have hbound : t.allocation? id = some (.owned name) := by
    rw [allocation?, Catalog.allocation?, hd, Option.map_some, hallocation]
  have hfaithful : (t.run events).system.Faithful := faithful_continues h hown
  have hstill : (t.run events).allocation? id = some (.owned name) := by
    refine (bound_run h hown hlife hbound).resolve_right ?_
    rintro ⟨mid, rest, e, hsplit, hreleases⟩
    exact hkept mid rest e hsplit hreleases
  obtain ⟨e, he, hcontinues⟩ := t.keptIn_run hlife id d hd
  obtain ⟨own, howned, hid⟩ := Catalog.ownedBy?_of_allocation? hfaithful.named hexclusive hstill
  obtain ⟨hown', -⟩ := Catalog.getElem?_of_ownedBy? hfaithful.named howned
  obtain rfl : e = own := by
    rw [hid, he] at hown'
    exact Option.some.inj hown'
  exact ⟨e, howned, hcontinues⟩

/-- In the life of one broker that is the only one to write to its store, let a creation have given
a volume, and let nobody have given its device back since, whatever else has been going on:
operations on any volumes, discoveries that report anything, loads that fail and loads that succeed,
records that cannot be written.  Then no creation of the same name has a record written.  If it is
to do its work, it succeeds, whatever fails, leaves the broker as it is and gives the same id; and
the context is the same if that of the first named a transport. -/
theorem repeated_creation_agrees (store : Store) (before between : List Event) (e₁ : Event)
    (first : CreateRequest) (volume : CreatedVolume)
    (hown : ∀ e ∈ before ++ e₁ :: between, e.isForeign = false)
    (hlife : ∀ e ∈ between, e ≠ .beside .restart)
    (hfirst : ((start store).run before).Performs e₁ (.create first) (.ok (.created volume)))
    (hkept : ∀ (mid rest : List Event) (e : Event), between = mid ++ e :: rest →
      ¬ ((start store).run (before ++ e₁ :: mid)).Releases e volume.id) :
    let b := ((start store).run (before ++ e₁ :: between)).system.broker
    ∀ (op : Operation) (second : CreateRequest), op.request = .create second →
      second.name = first.name →
      op.calls? b ≠ some .save ∧
      (op.stage = .working → ∀ around : Surroundings, ∃ again : CreatedVolume,
        op.step around b = (.closing (.ok (.created again)), b) ∧ again.id = volume.id ∧
        (transportParameter ∈ volume.context → again.context = volume.context)) := by
  obtain ⟨hownBefore, hownAfter⟩ := List.forall_mem_append.mp hown
  obtain ⟨hownFirst, hownBetween⟩ := List.forall_mem_cons.mp hownAfter
  have hfaithful : ((start store).run before).system.Faithful := faithful_run hownBefore
  have hexclusive := exclusive_run store (before ++ e₁ :: between)
  simp only [run_append] at hkept hexclusive ⊢
  obtain ⟨d, hd, hallocation, hcontext, -⟩ := hfirst.created_device hfaithful.named
  have hafter : (((start store).run before).step e₁).system.Faithful :=
    faithful_step hfaithful hownFirst
  have hid : d.nqn = volume.id := hafter.named volume.id d hd
  obtain ⟨e, howned, hcontinues⟩ :=
    held_run hafter hownBetween hlife hexclusive hd hallocation hkept
  intro op second hrequest hname
  rw [← hname] at howned
  refine ⟨op.calls?_ne_save_of_owned hrequest howned, fun hstage around => ?_⟩
  refine ⟨_, op.step_create_of_owned around hrequest hstage howned, hcontinues.1.trans hid,
    fun hnamed => ?_⟩
  rw [hcontext] at hnamed ⊢
  exact hcontinues.volumeContext_eq (Device.isAddressable_of_mem_volumeContext hnamed)

/-- The creation of `vol1` by a broker that could not load the snapshot, up to its work. -/
def creationWithoutLoad : List Event :=
  [.arrive (.create ⟨"vol1", [some .mount], ∅⟩), workOf 0, workOf 0,
    .beside (.load 0 { load := some (.backend "down") }), .beside (.finishLoad 0), workOf 0] ++
    List.replicate 3 (.advance 0 (fabricOf ["nqn-b"]))

/-- Meanwhile another device is found, the snapshot is loaded, and the fabric has the device under
another transport; then `vol1` is asked for once more, up to the work. -/
def changesAround : List Event :=
  [workOf 0, .beside .enterSync, .beside (.load 1 {}), .beside (.finishLoad 1),
    .beside (.merge [⟨"nqn-a", .tcp, []⟩, ⟨"nqn-b", .rdma, ["10.0.0.2:4420", "10.0.0.3:4420"]⟩]),
    .arrive (.create ⟨"vol1", [some .block], ∅⟩)] ++
    List.replicate 5 (.advance 1 (fabricOf ["nqn-a"]))

/-- The second creation gets the device of the first with the same context, though there is a device
before it in the order of the names and no record can be written. -/
theorem creation_agrees_after_changes : ∃ first again : CreatedVolume,
    ((start (.inMemory ∅)).run creationWithoutLoad).Performs (workOf 0)
      (.create ⟨"vol1", [some .mount], ∅⟩) (.ok (.created first)) ∧
    ((start (.inMemory ∅)).run (creationWithoutLoad ++ workOf 0 :: changesAround)).Performs
      (.advance 1 { fabricOf [] with faults.save := some (.backend "full") })
      (.create ⟨"vol1", [some .block], ∅⟩) (.ok (.created again)) ∧
    again.id = "nqn-b" ∧ again.context = first.context := by
  have hown : ∀ e ∈ creationWithoutLoad ++ workOf 0 :: changesAround, e.isForeign = false := by
    decide
  have hlife : ∀ e ∈ changesAround, e ≠ .beside .restart := by simp [changesAround, workOf]
  have hfirst : ((start (.inMemory ∅)).run creationWithoutLoad).Performs (workOf 0)
      (.create ⟨"vol1", [some .mount], ∅⟩) (.ok (.created ⟨"nqn-b", _⟩)) :=
    ⟨0, fabricOf [], _, rfl, rfl, rfl, rfl, rfl⟩
  -- After none of the events the device is free.
  have hbound : ∀ n < 12, ((start (.inMemory ∅)).run
      (creationWithoutLoad ++ workOf 0 :: changesAround.take n)).allocation? "nqn-b" ≠
        some .free := by decide
  have hkept : ∀ (mid rest : List Event) (e : Event), changesAround = mid ++ e :: rest →
      ¬ ((start (.inMemory ∅)).run (creationWithoutLoad ++ workOf 0 :: mid)).Releases e
        "nqn-b" := by
    rintro mid rest e hsplit ⟨-, -, hfreed⟩
    have hlength : mid.length + 1 < 12 := by
      have h := congrArg List.length hsplit
      simp [changesAround] at h
      omega
    have htaken : changesAround.take (mid.length + 1) = mid ++ [e] := by
      rw [hsplit, List.append_cons, List.take_left' (by simp)]
    refine hbound (mid.length + 1) hlength ?_
    rw [htaken, ← List.cons_append, ← List.append_assoc, run_append]
    exact hfreed
  obtain ⟨-, hworking⟩ := repeated_creation_agrees (.inMemory ∅) creationWithoutLoad changesAround
    (workOf 0) _ _ hown hlife hfirst hkept ⟨.create ⟨"vol1", [some .block], ∅⟩, .working⟩ _ rfl rfl
  obtain ⟨again, hstep, hid, hcontext⟩ :=
    hworking rfl { fabricOf [] with faults.save := some (.backend "full") }
  exact ⟨_, again, hfirst, ⟨1, _, _, rfl, rfl, rfl, rfl, congrArg Prod.fst hstep⟩, hid,
    hcontext (by decide)⟩

end Traffic

end VolumeBroker
