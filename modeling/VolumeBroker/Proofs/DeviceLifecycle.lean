import VolumeBroker.Proofs.Ownership
import VolumeBroker.Proofs.StoreAcceptance

/-!
# The life of a device

A broker forgets no device while its process goes on.  How a device is reached is written once: by
the discovery that first reports it, or, if the store named it first, by the first discovery after
that.  Its allocation has three causes of change.  It is bound by a request for a device and freed
by a return, and a snapshot that is laid over the catalog sets it to what the store has recorded.

The third cause comes once in the life of a process.  A load has its turn only while it is under
way, at most one load is under way, and after one that has succeeded no other begins.
-/

set_option autoImplicit false

namespace VolumeBroker

/-! ## Devices that are kept -/

/-- The device `e` is what has become of the device `d`: it has its name, and its addressing, if it
had any. -/
def Device.Continues (d e : Device) : Prop :=
  e.nqn = d.nqn ∧ (d.isAddressable = true → e.transport = d.transport ∧ e.endpoints = d.endpoints)

/-- A device continues itself. -/
theorem Device.Continues.refl (d : Device) : d.Continues d := ⟨rfl, fun _ => ⟨rfl, rfl⟩⟩

/-- What continues a continuation continues the device. -/
theorem Device.Continues.trans {d e f : Device} (hde : d.Continues e) (hef : e.Continues f) :
    d.Continues f := by
  refine ⟨hef.1.trans hde.1, fun haddressable => ?_⟩
  obtain ⟨htransport, hendpoints⟩ := hde.2 haddressable
  have hstill : e.isAddressable = true := by rwa [isAddressable, htransport]
  obtain ⟨htransport', hendpoints'⟩ := hef.2 hstill
  exact ⟨htransport'.trans htransport, hendpoints'.trans hendpoints⟩

/-- A device that a discovery has resolved continues what it was. -/
theorem Device.continues_resolve (d : Device) (found : Descriptor) :
    d.Continues (d.resolve found) := by
  refine ⟨d.nqn_resolve found, fun haddressable => ?_⟩
  rw [resolve, if_pos haddressable]
  exact ⟨rfl, rfl⟩

namespace Catalog

/-- Every device of the earlier catalog is continued by one of the same name in the later. -/
def KeptIn (earlier later : Catalog) : Prop :=
  ∀ (nqn : String) (d : Device), earlier[nqn]? = some d →
    ∃ e : Device, later[nqn]? = some e ∧ d.Continues e

/-- A catalog keeps its own devices. -/
theorem KeptIn.refl (catalog : Catalog) : catalog.KeptIn catalog :=
  fun _ d hd => ⟨d, hd, .refl d⟩

/-- What is kept twice in a row is kept. -/
theorem KeptIn.trans {first second third : Catalog} (h : first.KeptIn second)
    (h' : second.KeptIn third) : first.KeptIn third := by
  intro nqn d hd
  obtain ⟨e, he, hde⟩ := h nqn d hd
  obtain ⟨f, hf, hef⟩ := h' nqn e he
  exact ⟨f, hf, hde.trans hef⟩

/-- Devices outlast a snapshot that is laid over the catalog. -/
theorem keptIn_overlay (catalog : Catalog) (s : Snapshot) : catalog.KeptIn (catalog.overlay s) := by
  intro nqn d hd
  rw [getElem?_overlay, hd]
  cases s[nqn]? with
  | none => exact ⟨d, rfl, .refl d⟩
  | some a => exact ⟨{ d with allocation := a }, rfl, rfl, fun _ => ⟨rfl, rfl⟩⟩

/-- Devices outlast a discovery. -/
theorem keptIn_merge (catalog : Catalog) (found : List Descriptor) :
    catalog.KeptIn (catalog.merge found) := by
  intro nqn d hd
  rw [getElem?_merge, hd]
  cases found.find? (·.nqn == nqn) with
  | none => exact ⟨d, rfl, .refl d⟩
  | some x => exact ⟨d.resolve x, rfl, d.continues_resolve x⟩

/-- Devices outlast allocations and releases. -/
theorem keptIn_assign (catalog : Catalog) (nqn : String) (a : Allocation) :
    catalog.KeptIn (catalog.assign nqn a) := by
  intro k d hd
  rw [getElem?_assign, hd]
  split
  · exact ⟨{ d with allocation := a }, rfl, rfl, fun _ => ⟨rfl, rfl⟩⟩
  · exact ⟨d, rfl, .refl d⟩

end Catalog

namespace System

/-- No event but a restart takes a device out of the catalog. -/
theorem keptIn_step (s : System) {e : Event} (hlife : e ≠ .restart) :
    s.broker.catalog.KeptIn (s.step e).broker.catalog := by
  cases s.step_changes e with
  | quiet hcatalog _ _ | written _ hcatalog _ _ => exact hcatalog ▸ .refl _
  | restored _ _ hcatalog _ => exact hcatalog ▸ Catalog.keptIn_overlay _ _
  | merged hcatalog _ _ => exact hcatalog ▸ Catalog.keptIn_merge _ _
  | bound _ _ _ hcatalog _ _ | freed _ _ hcatalog _ _ =>
    exact hcatalog ▸ Catalog.keptIn_assign _ _ _
  | restarted _ => exact absurd rfl hlife

/-- During the life of a process no device leaves the catalog. -/
theorem keptIn_run (s : System) {events : List Event} (hlife : ∀ e ∈ events, e ≠ .restart) :
    s.broker.catalog.KeptIn (s.run events).broker.catalog :=
  run_induction (P := fun t => s.broker.catalog.KeptIn t.broker.catalog) (fun e => e ≠ .restart)
    (fun t _ he h => h.trans (t.keptIn_step he)) hlife (.refl _)

/-! ## The snapshot that is laid over the catalog -/

/-- The snapshot that an event lays over the catalog. -/
def applied? (s : System) : Event → Option Snapshot
  | .load number faults =>
    if s.awaitsTurn number then (s.broker.readSnapshot faults).toOption else none
  | _ => none

/-- An event applies a snapshot exactly if it is a load whose turn it is and that reads this
snapshot. -/
theorem applied?_eq_some_iff {s : System} {e : Event} {snapshot : Snapshot} :
    s.applied? e = some snapshot ↔ ∃ (number : Nat) (faults : Faults), e = .load number faults ∧
      s.awaitsTurn number = true ∧ s.broker.readSnapshot faults = .ok snapshot := by
  constructor
  · intro h
    cases e with
    | load number faults =>
      simp only [applied?] at h
      split at h
      · next hturn =>
        refine ⟨number, faults, rfl, hturn, ?_⟩
        cases hread : s.broker.readSnapshot faults with
        | error e => simp [hread, Except.toOption] at h
        | ok snapshot' => simpa [hread, Except.toOption] using h
      · cases h
    | _ => cases h
  · rintro ⟨number, faults, rfl, hturn, hread⟩
    simp [applied?, hturn, hread, Except.toOption]

/-- Where a snapshot is applied, the store had it, it is valid, and the catalog takes it. -/
theorem step_of_applied? {s : System} {e : Event} {snapshot : Snapshot}
    (h : s.applied? e = some snapshot) : ∃ (number : Nat) (faults : Faults),
      e = .load number faults ∧ s.broker.store.load = .ok snapshot ∧ snapshot.Valid ∧
      s.step e = ⟨{ s.broker with catalog := s.broker.catalog.overlay snapshot },
        (number, .ok ()) :: s.loaded⟩ := by
  obtain ⟨number, faults, rfl, hturn, hread⟩ := applied?_eq_some_iff.mp h
  obtain ⟨-, hload, hvalid⟩ := Broker.readSnapshot_eq_ok_iff.mp hread
  refine ⟨number, faults, rfl, hload, hvalid, ?_⟩
  simp only [step, if_pos hturn, Broker.loadSnapshot, hread]

/-- A load that applies no snapshot changes nothing in the broker. -/
theorem broker_step_load_of_applied?_eq_none {s : System} {number : Nat} {faults : Faults}
    (h : s.applied? (.load number faults) = none) :
    (s.step (.load number faults)).broker = s.broker := by
  simp only [applied?] at h
  simp only [step]
  split
  · next hturn =>
    rw [if_pos hturn] at h
    unfold Broker.loadSnapshot
    cases hread : s.broker.readSnapshot faults with
    | error e => rfl
    | ok snapshot => simp [hread, Except.toOption] at h
  · rfl

/-- After a load the records of the snapshot hold that it has applied, and besides them what held
before. -/
theorem allocation?_step_load (s : System) (number : Nat) (faults : Faults) (nqn : String) :
    (s.step (.load number faults)).broker.catalog.allocation? nqn =
      ((s.applied? (.load number faults)).bind (·[nqn]?)).or
        (s.broker.catalog.allocation? nqn) := by
  cases happlied : s.applied? (.load number faults) with
  | none =>
    rw [broker_step_load_of_applied?_eq_none happlied]
    rfl
  | some snapshot =>
    obtain ⟨_, _, -, -, -, hstep⟩ := step_of_applied? happlied
    rw [hstep]
    exact Catalog.allocation?_overlay s.broker.catalog snapshot nqn

/-- A load has its turn only while it is awaited, and once one has succeeded no other is awaited. -/
structure LoadsOnce (s : System) : Prop where
  phase_of_underWay : ∀ number : Nat, s.broker.sync.isUnderWay number = true →
    s.broker.sync.phase = .loading number
  phase_of_loaded : ∀ number : Nat, s.loaded.lookup number = some (.ok ()) →
    s.broker.sync.phase = .synced ∨ s.broker.sync.phase = .loading number

/-- At the start no load has been begun, and none has its turn. -/
theorem loadsOnce_start (store : Store) : (start store).LoadsOnce where
  phase_of_underWay := by simp [start, Broker.start, Sync.isUnderWay]
  phase_of_loaded := by simp [start]

/-- Somebody who gives up changes nothing: loads that are under way have not ended. -/
theorem Numbered.step_leaveSync {s : System} (h : s.Numbered) (number : Nat) :
    s.step (.leaveSync number) = s := by
  simp only [System.step]
  split
  · rfl
  · next outcome hseen =>
    -- Nobody who sees how a load has ended finds it still awaited.
    have hsettled : s.broker.sync.phase ≠ .loading number := by
      intro hawaited
      have hopen := h.under_way number hawaited
      simp [Sync.isUnderWay, hseen] at hopen
    simp [Broker.leaveSync, Sync.settle, hsettled]

/-- The end of a load takes its turn from it, so that it applies no snapshot once more. -/
theorem LoadsOnce.finishLoad {s : System} (h : s.LoadsOnce) (number : Nat) :
    (s.step (.finishLoad number)).LoadsOnce := by
  simp only [System.step]
  split
  · exact h
  · next outcome hturned =>
    split
    · next hopen =>
      -- The load that ends is the one that is awaited, so no other is under way.
      have hawaited := h.phase_of_underWay number hopen
      have hphase : (s.broker.sync.finish number outcome).phase = .after outcome := by
        simp only [Sync.finish, hawaited]
      refine ⟨fun k hstill => ?_, fun k hsucceeded => ?_⟩
      · have hstill : (s.broker.sync.finish number outcome).isUnderWay k = true := hstill
        simp only [Sync.isUnderWay, Sync.outcome?, Sync.finish, Bool.and_eq_true] at hstill
        by_cases hk : k = number
        · simp [hk] at hstill
        · rw [List.lookup_cons, beq_false_of_ne hk] at hstill
          have hother := h.phase_of_underWay k (Bool.and_eq_true _ _ ▸ hstill)
          exact absurd (SyncPhase.loading.inj (hother.symm.trans hawaited)) hk
      · rcases h.phase_of_loaded k hsucceeded with hsynced | hloading
        · rw [hawaited] at hsynced
          cases hsynced
        · obtain rfl : number = k := SyncPhase.loading.inj (hawaited.symm.trans hloading)
          obtain rfl : outcome = .ok () := Option.some.inj (hturned.symm.trans hsucceeded)
          exact .inl hphase
    · exact h

/-- After one more event a load still has its turn only while it is awaited. -/
theorem LoadsOnce.step {s : System} (h : s.LoadsOnce) (hnumbered : s.Numbered) (e : Event) :
    (s.step e).LoadsOnce := by
  cases s.step_changes_sync e with
  | quiet hsync hloaded =>
    refine ⟨?_, ?_⟩
    · rw [hsync]
      exact h.phase_of_underWay
    · rw [hsync, hloaded]
      exact h.phase_of_loaded
  | begun hphase hsync hloaded =>
    have hnone : ∀ number : Nat, s.broker.sync.phase ≠ .loading number := by simp [hphase]
    refine ⟨fun number hopen => ?_, fun number hsucceeded => ?_⟩
    · rw [hsync] at hopen ⊢
      simp only [Sync.isUnderWay, Sync.outcome?, Bool.and_eq_true, decide_eq_true_eq] at hopen
      -- A load that began earlier would be awaited, but none is.
      rcases Nat.lt_succ_iff_lt_or_eq.mp hopen.1 with hold | hnew
      · refine absurd (h.phase_of_underWay number ?_) (hnone number)
        simp only [Sync.isUnderWay, Sync.outcome?, hold, hopen.2, decide_true, Bool.and_self]
      · rw [hnew]
    · rw [hloaded] at hsucceeded
      rcases h.phase_of_loaded number hsucceeded with hsynced | hloading
      · rw [hphase] at hsynced
        cases hsynced
      · exact absurd hloading (hnone number)
  | @turned number faults outcome hturn hsync hloaded =>
    rw [awaitsTurn, Bool.and_eq_true] at hturn
    refine ⟨?_, fun k hsucceeded => ?_⟩
    · rw [hsync]
      exact h.phase_of_underWay
    · rw [hsync]
      rw [hloaded] at hsucceeded
      by_cases hk : k = number
      · exact .inr (hk ▸ h.phase_of_underWay number hturn.1)
      · refine h.phase_of_loaded k ?_
        rwa [List.lookup_cons, beq_false_of_ne hk] at hsucceeded
  | @finished number => exact h.finishLoad number
  | @settled number =>
    rw [hnumbered.step_leaveSync number]
    exact h
  | restarted hstart =>
    rw [hstart]
    exact loadsOnce_start s.broker.store

/-- In any history a load has its turn only while it is awaited. -/
theorem loadsOnce_run (store : Store) (events : List Event) :
    ((start store).run events).LoadsOnce := by
  have hall : (((start store).run events).Truthful ∧ ((start store).run events).Numbered) ∧
      ((start store).run events).LoadsOnce :=
    run_induction (P := fun s => (s.Truthful ∧ s.Numbered) ∧ s.LoadsOnce) (fun _ => True)
      (fun _ e _ h => ⟨⟨h.1.1.step e, h.1.2.step h.1.1 e⟩, h.2.step h.1.2 e⟩) (fun _ _ => trivial)
      ⟨⟨truthful_start store, numbered_start store⟩, loadsOnce_start store⟩
  exact hall.2

/-- Once a load has succeeded, no snapshot is applied. -/
theorem LoadsOnce.applied?_eq_none {s : System} (h : s.LoadsOnce) {number : Nat}
    (hsucceeded : s.loaded.lookup number = some (.ok ())) (e : Event) : s.applied? e = none := by
  cases happlied : s.applied? e with
  | none => rfl
  | some snapshot =>
    obtain ⟨k, faults, rfl, hturn, -⟩ := applied?_eq_some_iff.mp happlied
    rw [awaitsTurn, Bool.and_eq_true] at hturn
    have hloading := h.phase_of_underWay k hturn.1
    rcases h.phase_of_loaded number hsucceeded with hsynced | hawaited
    · rw [hsynced] at hloading
      cases hloading
    · obtain rfl : number = k := SyncPhase.loading.inj (hawaited.symm.trans hloading)
      simp [hsucceeded] at hturn

/-- What has come of a load stays known as long as the process lives. -/
theorem lookup_loaded_step {s : System} {number : Nat} {outcome : LoadOutcome}
    (h : s.loaded.lookup number = some outcome) {e : Event} (hlife : e ≠ .restart) :
    (s.step e).loaded.lookup number = some outcome := by
  cases s.step_changes_sync e with
  | quiet _ hloaded | begun _ _ hloaded | finished _ _ _ _ hloaded | settled _ _ hloaded =>
    exact hloaded ▸ h
  | @turned k _ _ hturn _ hloaded =>
    have hk : number ≠ k := by
      rintro rfl
      simp [awaitsTurn, h] at hturn
    rw [hloaded, List.lookup_cons, beq_false_of_ne hk]
    exact h
  | restarted _ => exact absurd rfl hlife

/-! ## Allocations -/

/-- An event changes the allocation of a known device by binding it, by freeing it, or by a snapshot
that names it. -/
theorem allocation?_step_cases {s : System} (hnamed : s.broker.catalog.Named) {e : Event}
    (hlife : e ≠ .restart) {nqn : String} {a a' : Allocation}
    (hbefore : s.broker.catalog.allocation? nqn = some a)
    (hafter : (s.step e).broker.catalog.allocation? nqn = some a') (hchange : a ≠ a') :
    (∃ (faults : Faults) (volume : String) (d : Device), e = .allocate faults volume ∧
      s.broker.catalog[nqn]? = some d ∧ d.isAddressable = true ∧ a = .free ∧ a' = .owned volume) ∨
    (∃ (faults : Faults) (volume : String), e = .release faults nqn ∧
      a = .owned volume ∧ a' = .free) ∨
    ∃ snapshot : Snapshot, s.applied? e = some snapshot ∧ snapshot[nqn]? = some a' := by
  -- The allocation changes, so the event makes another catalog.
  have hkept : ∀ {catalog : Catalog}, (s.step e).broker.catalog = catalog →
      catalog.allocation? nqn ≠ some a := by
    rintro _ rfl hsame
    exact hchange (Option.some.inj (hsame.symm.trans hafter))
  cases s.step_changes e with
  | quiet hcatalog _ _ | written _ hcatalog _ _ => exact absurd hbefore (hkept hcatalog)
  | @restored number faults _ _ _ _ _ =>
    right; right
    rw [allocation?_step_load, hbefore] at hafter
    rcases Option.or_eq_some_iff.mp hafter with hrecord | ⟨-, hsame⟩
    · exact Option.bind_eq_some_iff.mp hrecord
    · exact absurd (Option.some.inj hsame) hchange
  | @merged found hcatalog _ _ =>
    refine absurd ?_ (hkept hcatalog)
    rw [Catalog.allocation?_merge, hbefore, Option.some_or]
  | @bound faults volume d _ _ hfirst hcatalog _ _ =>
    left
    obtain ⟨hd, hfree, haddressable⟩ := Catalog.getElem?_of_firstAllocatable? hnamed hfirst
    have hassign := Catalog.allocation?_assign s.broker.catalog d.nqn (.owned volume) nqn
    by_cases hk : d.nqn = nqn
    · rw [if_pos hk, hbefore, Option.map_some, ← hcatalog, hafter] at hassign
      rw [hk] at hd
      rw [Catalog.allocation?, hd, Option.map_some, hfree] at hbefore
      exact ⟨faults, volume, d, rfl, hd, haddressable, (Option.some.inj hbefore).symm,
        Option.some.inj hassign⟩
    · rw [if_neg hk] at hassign
      exact absurd (hassign.trans hbefore) (hkept hcatalog)
  | @freed faults k volume _ howned hcatalog _ _ =>
    right; left
    have hassign := Catalog.allocation?_assign s.broker.catalog k .free nqn
    by_cases hk : k = nqn
    · rw [if_pos hk, hbefore, Option.map_some, ← hcatalog, hafter] at hassign
      rw [hk, hbefore] at howned
      exact ⟨faults, volume, hk ▸ rfl, Option.some.inj howned, Option.some.inj hassign⟩
    · rw [if_neg hk] at hassign
      exact absurd (hassign.trans hbefore) (hkept hcatalog)
  | restarted _ => exact absurd rfl hlife

/-- Take any two states of one process, and what lies between them, whoever is at work and whatever
fails.  Every device of the earlier catalog is kept in the later one, with its addressing if it had
any.  Every event between them that changes the allocation of a device binds a free device that can
be reached, or frees this device, or applies a snapshot that names it, and at most one event applies
a snapshot.  A discovery leaves every allocation as it is. -/
theorem devices_keep_and_change (store : Store) (before after : List Event)
    (hlife : ∀ e ∈ after, e ≠ .restart) :
    let s := (start store).run before
    s.broker.catalog.KeptIn (s.run after).broker.catalog ∧
    (∀ (mid rest : List Event) (e : Event) (nqn : String) (a a' : Allocation),
      after = mid ++ e :: rest → (s.run mid).broker.catalog.allocation? nqn = some a →
      ((s.run mid).step e).broker.catalog.allocation? nqn = some a' → a ≠ a' →
      (∃ (faults : Faults) (volume : String) (d : Device), e = .allocate faults volume ∧
        (s.run mid).broker.catalog[nqn]? = some d ∧ d.isAddressable = true ∧
        a = .free ∧ a' = .owned volume) ∨
      (∃ (faults : Faults) (volume : String), e = .release faults nqn ∧
        a = .owned volume ∧ a' = .free) ∨
      ∃ snapshot : Snapshot, (s.run mid).applied? e = some snapshot ∧ snapshot[nqn]? = some a') ∧
    (∀ (mid between rest : List Event) (e e' : Event), after = mid ++ e :: (between ++ e' :: rest) →
      ((s.run mid).applied? e).isSome → (s.run (mid ++ e :: between)).applied? e' = none) ∧
    ∀ (found : List Descriptor) (nqn : String) (a : Allocation),
      (s.run after).broker.catalog.allocation? nqn = some a →
      ((s.run after).step (.merge found)).broker.catalog.allocation? nqn = some a := by
  intro s
  refine ⟨s.keptIn_run hlife, ?_, ?_, ?_⟩
  · rintro mid rest e nqn a a' rfl hbefore hafter hchange
    have hnamed : (s.run mid).broker.catalog.Named := by
      have h := (sound_run store (before ++ mid)).named
      rwa [run_append] at h
    exact allocation?_step_cases hnamed (hlife e (by simp)) hbefore hafter hchange
  · rintro mid between rest e e' rfl happlied
    obtain ⟨snapshot, happlied⟩ := Option.isSome_iff_exists.mp happlied
    obtain ⟨number, faults, rfl, -, -, hstep⟩ := step_of_applied? happlied
    have hfirst : ((s.run mid).step (.load number faults)).loaded.lookup number =
        some (.ok ()) := by
      rw [hstep, List.lookup_cons_self]
    have hlater : (s.run (mid ++ .load number faults :: between)).loaded.lookup number =
        some (.ok ()) := by
      rw [run_append]
      show (((s.run mid).step (.load number faults)).run between).loaded.lookup number =
        some (.ok ())
      refine run_induction (P := fun t => t.loaded.lookup number = some (.ok ()))
        (fun e => e ≠ .restart) (fun _ _ he h => lookup_loaded_step h he) (fun e he => ?_) hfirst
      exact hlife e (by simp [he])
    have honce : (s.run (mid ++ .load number faults :: between)).LoadsOnce := by
      have h := loadsOnce_run store (before ++ (mid ++ .load number faults :: between))
      rwa [run_append] at h
    exact honce.applied?_eq_none hlater e'
  · intro found nqn a hknown
    show ((s.run after).broker.catalog.merge found).allocation? nqn = some a
    rw [Catalog.allocation?_merge, hknown, Option.some_or]

/-- Somebody asks for the snapshot, and the load succeeds. -/
def loading : List Event := [.enterSync, .load 0 {}, .finishLoad 0]

/-- A discovery reports the device with another endpoint, it is freed, and it is bound to `vol2`. -/
def working : List Event :=
  [.merge [⟨"nqn-a", .rdma, ["10.0.0.2:4420"]⟩], .release {} "nqn-a", .allocate {} "vol2"]

/-- A device is discovered, restored, discovered once more, freed, and bound to another volume. -/
theorem device_continues_through_changes :
    let s := (start Traffic.boundStore).run [.merge [⟨"nqn-a", .tcp, ["10.0.0.1:4420"]⟩]]
    (∃ d : Device, (s.run (loading ++ working)).broker.catalog["nqn-a"]? = some d ∧
      d.endpoints = ["10.0.0.1:4420"] ∧ d.allocation = .owned "vol2") ∧
    (∃ snapshot : Snapshot, (s.run [.enterSync]).applied? (.load 0 {}) = some snapshot ∧
      snapshot["nqn-a"]? = some (.owned "vol1")) := by
  have hlife : ∀ e ∈ loading ++ working, e ≠ .restart := by simp [loading, working]
  obtain ⟨hkept, hchange, -, -⟩ := devices_keep_and_change Traffic.boundStore
    [.merge [⟨"nqn-a", .tcp, ["10.0.0.1:4420"]⟩]] (loading ++ working) hlife
  refine ⟨?_, ?_⟩
  · obtain ⟨d, hd, hcontinues⟩ := hkept "nqn-a" ⟨"nqn-a", some .tcp, ["10.0.0.1:4420"], .free⟩ rfl
    obtain ⟨-, hendpoints⟩ := hcontinues.2 rfl
    refine ⟨d, hd, hendpoints, ?_⟩
    have hbound : (((start Traffic.boundStore).run
        [.merge [⟨"nqn-a", .tcp, ["10.0.0.1:4420"]⟩]]).run
        (loading ++ working)).broker.catalog.allocation? "nqn-a" = some (.owned "vol2") := by decide
    rw [Catalog.allocation?, hd] at hbound
    exact Option.some.inj hbound
  · have hcases := hchange [.enterSync] (.finishLoad 0 :: working) (.load 0 {}) "nqn-a" .free
      (.owned "vol1") rfl (by decide) (by decide) (by decide)
    rcases hcases with ⟨_, _, _, he, -⟩ | ⟨_, _, he, -⟩ | happlied
    · cases he
    · cases he
    · exact happlied

end System

end VolumeBroker
