import VolumeBroker.Proofs.UnseenRecords

/-!
# Stores that are accepted

A load succeeds if the store can be read and what it holds makes sense.  `Store.WellFormed` says the
same of the names and the records of a store, and `Store.WellFormed.put_iff` which records can be
put into such a store: those of a device with a name that is free, or bound to a volume with a name
that the store records for no other device.

A broker looks for the owner in its catalog and not in the store.  So one thing alone can spoil a
store that was accepted: a device is bound to a volume that the store records as the owner of
another one (`System.Doubles`).  A broker that has loaded the snapshot never does this.
-/

set_option autoImplicit false

namespace VolumeBroker

namespace Store

/-- A load takes what the store holds. -/
def Accepted (s : Store) : Prop :=
  ∃ snapshot : Snapshot, s.load = .ok snapshot ∧ snapshot.check = .ok ()

/-- What the names and the records of a store are like that is accepted. -/
structure WellFormed (s : Store) : Prop where
  readable : ∀ nqn : String, s.Names nqn → (s.record? nqn).isSome
  device_named : ¬ s.Names ""
  owner_named : ∀ nqn : String, s.record? nqn ≠ some (.owned "")
  /-- No volume owns two devices. -/
  exclusive : ∀ m n volume : String, s.record? m = some (.owned volume) →
    s.record? n = some (.owned volume) → m = n

/-- A store in which there is a record under every name can be read. -/
theorem exists_load_eq_ok {s : Store} (h : ∀ nqn : String, s.Names nqn → (s.record? nqn).isSome) :
    ∃ snapshot : Snapshot, s.load = .ok snapshot := by
  cases s with
  | memory records => exact ⟨records, rfl⟩
  | database texts =>
    have hall : (texts.toList.all fun p => (Allocation.decode? p.2).isSome) = true := by
      rw [List.all_eq_true]
      intro p hmem
      have htext : texts[p.1]? = some p.2 :=
        Std.ExtTreeMap.mem_toList_iff_getElem?_eq_some.mp hmem
      have hnames : (database texts).Names p.1 :=
        Std.ExtTreeMap.mem_iff_isSome_getElem?.mpr (by simp [htext])
      simpa [record?, htext] using h p.1 hnames
    exact ⟨_, if_pos hall⟩

/-- A store that cannot be read has a text that is no record. -/
theorem eq_undecodable_of_load {s : Store} {e : StoreError} (h : s.load = .error e) :
    e = .undecodable := by
  cases s with
  | memory records => cases h
  | database texts =>
    simp only [load] at h
    split at h
    · cases h
    · exact (Except.error.inj h).symm

/-- A store cannot be read exactly if there is a text in it that is no record. -/
theorem load_eq_undecodable_iff {s : Store} :
    s.load = .error .undecodable ↔ ∃ nqn : String, s.Names nqn ∧ s.record? nqn = none := by
  constructor
  · intro h
    have hunread : ¬ ∀ nqn : String, s.Names nqn → (s.record? nqn).isSome := by
      intro hall
      obtain ⟨snapshot, hload⟩ := exists_load_eq_ok hall
      rw [h] at hload
      cases hload
    simpa only [Classical.not_forall, Option.not_isSome_iff_eq_none, exists_prop] using hunread
  · rintro ⟨nqn, hnqn, hrecord⟩
    cases hload : s.load with
    | ok snapshot =>
      have hsome := record?_isSome_of_load_eq_ok hload hnqn
      rw [hrecord] at hsome
      cases hsome
    | error e => rw [eq_undecodable_of_load hload]

/-- A store is accepted exactly if its records are in order. -/
theorem accepted_iff {s : Store} : s.Accepted ↔ s.WellFormed := by
  constructor
  · rintro ⟨snapshot, hload, hcheck⟩
    have hvalid : snapshot.Valid := Snapshot.check_eq_ok_iff.mp hcheck
    have hrecord := getElem?_of_load_eq_ok hload
    refine ⟨fun nqn => record?_isSome_of_load_eq_ok hload, fun hnames => ?_,
      fun nqn howned => ?_, ?_⟩
    · obtain ⟨a, ha⟩ := Option.isSome_iff_exists.mp (record?_isSome_of_load_eq_ok hload hnames)
      exact hvalid.device_named "" a ((hrecord "").trans ha) rfl
    · exact hvalid.owner_named nqn "" ((hrecord nqn).trans howned) rfl
    · intro m n volume hm hn
      exact hvalid.exclusive m n volume ((hrecord m).trans hm) ((hrecord n).trans hn)
  · intro h
    obtain ⟨snapshot, hload⟩ := exists_load_eq_ok h.readable
    have hrecord := getElem?_of_load_eq_ok hload
    refine ⟨snapshot, hload, Snapshot.check_eq_ok_iff.mpr ⟨?_, ?_, ?_⟩⟩
    · rintro nqn a ha rfl
      exact h.device_named (names_of_record? ((hrecord "").symm.trans ha))
    · rintro nqn volume howned rfl
      exact h.owner_named nqn ((hrecord nqn).symm.trans howned)
    · intro m n volume hm hn
      exact h.exclusive m n volume ((hrecord m).symm.trans hm) ((hrecord n).symm.trans hn)

/-- A record of a device with a name can be put into a store that is accepted exactly if its owner,
if there is one, has a name and owns no other device there. -/
theorem WellFormed.put_iff {s : Store} (h : s.WellFormed) {nqn : String} (hnqn : nqn ≠ "")
    (a : Allocation) :
    (s.put nqn a).WellFormed ↔ ∀ volume : String, a = .owned volume →
      volume ≠ "" ∧ ∀ other : String, s.record? other = some (.owned volume) → other = nqn := by
  constructor
  · rintro hput volume rfl
    have hself : (s.put nqn (.owned volume)).record? nqn = some (.owned volume) := by
      rw [record?_put, if_pos rfl]
    refine ⟨?_, fun other hother => ?_⟩
    · rintro rfl
      exact hput.owner_named nqn hself
    · by_cases hsame : nqn = other
      · exact hsame.symm
      · have hkept : (s.put nqn (.owned volume)).record? other = some (.owned volume) := by
          rw [record?_put, if_neg hsame, hother]
        exact hput.exclusive other nqn volume hkept hself
  · intro howner
    refine ⟨fun k hnames => ?_, fun hnames => ?_, fun k howned => ?_, fun m n volume hm hn => ?_⟩
    · rw [names_put] at hnames
      rw [record?_put]
      by_cases hk : nqn = k
      · rw [if_pos hk, Option.isSome_some]
      · rw [if_neg hk]
        exact h.readable k (hnames.resolve_left hk)
    · rw [names_put] at hnames
      exact hnames.elim hnqn h.device_named
    · rw [record?_put] at howned
      by_cases hk : nqn = k
      · rw [if_pos hk] at howned
        exact (howner "" (Option.some.inj howned)).1 rfl
      · rw [if_neg hk] at howned
        exact h.owner_named k howned
    -- A clash of owners that was not there before involves the device that is written.
    · rw [record?_put] at hm hn
      by_cases hmk : nqn = m <;> by_cases hnk : nqn = n
      · rw [← hmk, ← hnk]
      · rw [if_pos hmk] at hm
        rw [if_neg hnk] at hn
        exact absurd ((howner volume (Option.some.inj hm)).2 n hn).symm hnk
      · rw [if_neg hmk] at hm
        rw [if_pos hnk] at hn
        exact absurd ((howner volume (Option.some.inj hn)).2 m hm).symm hmk
      · rw [if_neg hmk] at hm
        rw [if_neg hnk] at hn
        exact h.exclusive m n volume hm hn

end Store

/-! ## Loads -/

namespace System

/-- The numbers of the loads are those of the state. -/
structure Numbered (s : System) : Prop where
  /-- What has been loaded has been begun. -/
  begun_of_loaded : ∀ p ∈ s.loaded, p.1 < s.broker.sync.begun
  /-- A load that is awaited is under way. -/
  under_way : ∀ number : Nat, s.broker.sync.phase = .loading number →
    s.broker.sync.isUnderWay number = true

/-- At first no load has been begun. -/
theorem numbered_start (store : Store) : (start store).Numbered where
  begun_of_loaded := by simp [start, Broker.start]
  under_way := by simp [start, Broker.start]

/-- No outcome of a load leads to another load. -/
theorem phase_after_ne_loading (outcome : LoadOutcome) (number : Nat) :
    SyncPhase.after outcome ≠ .loading number := by
  cases outcome <;> simp [SyncPhase.after]

/-- No load with the next number has ended, because none has had its turn. -/
theorem Numbered.outcome?_begun {s : System} (h : s.Numbered) (htruthful : s.Truthful) :
    s.broker.sync.outcome? s.broker.sync.begun = none := by
  cases hended : s.broker.sync.outcome? s.broker.sync.begun with
  | none => rfl
  | some outcome =>
    have hmem := htruthful.ended_loaded _ (mem_of_lookup hended)
    exact absurd (h.begun_of_loaded _ hmem) (Nat.lt_irrefl _)

/-- One event keeps the numbers of the loads. -/
theorem Numbered.step {s : System} (h : s.Numbered) (htruthful : s.Truthful) (e : Event) :
    (s.step e).Numbered := by
  cases s.step_changes_sync e with
  | quiet hsync hloaded =>
    refine ⟨?_, ?_⟩
    · rw [hsync, hloaded]
      exact h.begun_of_loaded
    · rw [hsync]
      exact h.under_way
  | begun _ hsync hloaded =>
    refine ⟨?_, ?_⟩
    · rw [hsync, hloaded]
      exact fun p hp => Nat.lt_succ_of_lt (h.begun_of_loaded p hp)
    · rw [hsync]
      intro number hloading
      obtain rfl : s.broker.sync.begun = number := SyncPhase.loading.inj hloading
      -- A load with the next number cannot have ended, since it had not begun.
      have hopen : s.broker.sync.ended.lookup s.broker.sync.begun = none :=
        h.outcome?_begun htruthful
      simp [Sync.isUnderWay, Sync.outcome?, hopen]
  | @turned number _ outcome hturn hsync hloaded =>
    have hbegun : number < s.broker.sync.begun := by
      simp only [awaitsTurn, Sync.isUnderWay, Bool.and_eq_true, decide_eq_true_eq] at hturn
      exact hturn.1.1
    refine ⟨?_, ?_⟩
    · rw [hsync, hloaded]
      exact List.forall_mem_cons.mpr ⟨hbegun, h.begun_of_loaded⟩
    · rw [hsync]
      exact h.under_way
  | @finished _ outcome _ _ hbegun hphase hloaded =>
    refine ⟨?_, fun number hloading => ?_⟩
    · rw [hbegun, hloaded]
      exact h.begun_of_loaded
    · rcases hphase with hafter | ⟨hsame, hnone⟩
      · exact absurd (hafter ▸ hloading) (phase_after_ne_loading outcome number)
      · exact absurd (hsame ▸ hloading) (hnone number)
  | @settled _ outcome _ hsync hloaded =>
    refine ⟨?_, ?_⟩
    · rw [hsync, hloaded]
      exact h.begun_of_loaded
    · rw [hsync]
      exact fun number hloading => absurd hloading (phase_after_ne_loading outcome number)
  | restarted hstart =>
    rw [hstart]
    exact numbered_start s.broker.store

/-- In any history the numbers of the loads are those of the state. -/
theorem numbered_run (store : Store) (events : List Event) :
    ((start store).run events).Numbered := by
  have hboth : ((start store).run events).Truthful ∧ ((start store).run events).Numbered :=
    run_induction (P := fun s => s.Truthful ∧ s.Numbered) (fun _ => True)
      (fun _ e _ h => ⟨h.1.step e, h.2.step h.1 e⟩) (fun _ _ => trivial)
      ⟨truthful_start store, numbered_start store⟩
  exact hboth.2

/-- What a load needs that is begun or joined now, and goes on without anything between its steps.
-/
def syncEvents (number : Nat) (faults : Faults) : List Event :=
  [.enterSync, .load number faults, .finishLoad number]

/-- Whoever has to wait when it enters finds the load that it waits for awaited. -/
theorem phase_of_enter_awaits {sync : Sync} {number : Nat} (h : sync.enter.1 = .awaits number) :
    sync.enter.2.phase = .loading number := by
  unfold Sync.enter at h ⊢
  cases hphase : sync.phase with
  | synced => simp [hphase] at h
  | loading k => simpa [hphase] using h
  | notSynced => simpa [hphase] using h

/-- Whoever asks for the snapshot while the store is accepted, and waits for a load that has not had
its turn, learns that the load has succeeded. -/
theorem Numbered.run_syncEvents {s : System} (h : s.Numbered) (htruthful : s.Truthful)
    {faults : Faults} (hread : faults.load = none) (haccepted : s.broker.store.Accepted)
    {number : Nat} (hentry : s.broker.enterSync.1 = .awaits number)
    (hturn : s.loaded.lookup number = none) :
    ∃ snapshot : Snapshot, s.broker.store.load = .ok snapshot ∧
      (s.run (syncEvents number faults)).broker.sync.outcome? number = some (.ok ()) ∧
      (s.run (syncEvents number faults)).broker.sync.phase = .synced ∧
      (s.run (syncEvents number faults)).broker.catalog = s.broker.catalog.overlay snapshot := by
  obtain ⟨snapshot, hload, hcheck⟩ := haccepted
  let entered : System := { s with broker := s.broker.enterSync.2 }
  let turned : System :=
    ⟨{ entered.broker with catalog := s.broker.catalog.overlay snapshot },
      (number, .ok ()) :: s.loaded⟩
  -- The three events one after the other: the load is entered, has its turn, and ends.
  have hphase : entered.broker.sync.phase = .loading number := phase_of_enter_awaits hentry
  have hopen : entered.broker.sync.isUnderWay number = true :=
    (h.step htruthful .enterSync).under_way number hphase
  have hawaits : entered.awaitsTurn number = true := by
    simp [awaitsTurn, hopen, entered, hturn]
  have hsnapshot : entered.broker.readSnapshot faults = .ok snapshot :=
    Broker.readSnapshot_eq_ok_iff.mpr ⟨hread, hload, Snapshot.check_eq_ok_iff.mp hcheck⟩
  have hturned : entered.step (.load number faults) = turned := by
    simp only [System.step, if_pos hawaits, Broker.loadSnapshot, hsnapshot]
    rfl
  have hfinished : turned.step (.finishLoad number) =
      { turned with broker := turned.broker.finishLoad number (.ok ()) } := by
    have hlookup : turned.loaded.lookup number = some (.ok ()) := by simp [turned]
    simp only [System.step, hlookup]
    exact if_pos hopen
  have hrun : s.run (syncEvents number faults) =
      { turned with broker := turned.broker.finishLoad number (.ok ()) } := by
    show (entered.step (.load number faults)).step (.finishLoad number) = _
    rw [hturned, hfinished]
  refine ⟨snapshot, hload, ?_, ?_, ?_⟩
  · rw [hrun]
    simp [Broker.finishLoad, Sync.finish, Sync.outcome?]
  · rw [hrun]
    show (entered.broker.sync.finish number (.ok ())).phase = .synced
    simp [Sync.finish, hphase, SyncPhase.after]
  · rw [hrun]
    rfl

/-- A new broker on a store that is accepted can load the snapshot, and holds what the store
records. -/
theorem run_syncEvents_start {store : Store} (haccepted : store.Accepted) {faults : Faults}
    (hread : faults.load = none) :
    ((start store).run (syncEvents 0 faults)).broker.sync.outcome? 0 = some (.ok ()) ∧
      ((start store).run (syncEvents 0 faults)).broker.sync.phase = .synced ∧
      ∀ nqn : String,
        ((start store).run (syncEvents 0 faults)).broker.catalog.allocation? nqn =
          store.record? nqn := by
  have hentry : (start store).broker.enterSync.1 = .awaits 0 := rfl
  obtain ⟨snapshot, hload, houtcome, hphase, hcatalog⟩ :=
    (numbered_start store).run_syncEvents (truthful_start store) hread haccepted hentry rfl
  refine ⟨houtcome, hphase, fun nqn => ?_⟩
  have hrecord : snapshot[nqn]? = store.record? nqn := Store.getElem?_of_load_eq_ok hload nqn
  have hfresh : (start store).broker.catalog.allocation? nqn = none :=
    Catalog.allocation?_empty nqn
  rw [hcatalog, Catalog.allocation?_overlay, hrecord, hfresh, Option.or_none]

/-! ## Writing -/

/-- The event binds a device to a volume that the store records as the owner of another one. -/
def Doubles (s : System) (e : Event) : Prop :=
  ∃ nqn volume other : String, s.Binds e nqn volume ∧ other ≠ nqn ∧
    s.broker.store.record? other = some (.owned volume)

/-- A broker that has loaded the snapshot binds no device to a volume that the store records as an
owner. -/
theorem Faithful.not_doubles {s : System} (h : s.Faithful) (hload : s.HasLoaded) (e : Event) :
    ¬ s.Doubles e := by
  rintro ⟨nqn, volume, other, ⟨faults, d, -, -, howned, -, -⟩, -, hrecord⟩
  have hbound : s.broker.catalog.allocation? other = some (.owned volume) :=
    h.allocation?_of_record? hload hrecord
  exact Catalog.ownedBy?_eq_none_iff.mp howned other hbound

/-- What a discovery reports has a name. -/
def Event.ReportsNamed : Event → Prop
  | .merge found => ∀ d ∈ found, d.nqn ≠ ""
  | _ => True

/-- A device is asked for only for a volume with a name. -/
def Event.AsksNamed : Event → Prop
  | .allocate _ volume => volume ≠ ""
  | _ => True

/-- A catalog in which every device has a name stays such a catalog. -/
theorem nameless_step {s : System} (h : s.broker.catalog.allocation? "" = none) {e : Event}
    (hreports : e.ReportsNamed) : (s.step e).broker.catalog.allocation? "" = none := by
  cases s.step_changes e with
  | quiet hcatalog _ _ => exact hcatalog ▸ h
  | @restored _ _ snapshot _ hvalid hcatalog _ =>
    have hrecord : snapshot[""]? = none := by
      cases hsome : snapshot[""]? with
      | none => rfl
      | some a => exact absurd rfl (hvalid.device_named "" a hsome)
    rw [hcatalog, Catalog.allocation?_overlay, hrecord, h]
    rfl
  | @merged found hcatalog _ _ =>
    have hreported : "" ∉ found.map (·.nqn) := by
      intro hmem
      obtain ⟨d, hd, hname⟩ := List.mem_map.mp hmem
      exact hreports d hd hname
    rw [hcatalog, Catalog.allocation?_merge, h, if_neg hreported]
    rfl
  | bound _ _ _ hcatalog _ _ | freed _ _ hcatalog _ _ =>
    rw [hcatalog, Catalog.allocation?_assign, h]
    split <;> rfl
  | written _ hcatalog _ _ => exact hcatalog ▸ h
  | restarted hstart =>
    rw [hstart]
    exact Catalog.allocation?_empty ""

/-- An event binds one device to one volume. -/
theorem Binds.unique {s : System} {e : Event} {nqn volume k v : String} (h : s.Binds e nqn volume)
    (h' : s.Binds e k v) : k = nqn ∧ v = volume := by
  obtain ⟨_, d, rfl, -, -, hfirst, rfl⟩ := h
  obtain ⟨_, d', he, -, -, hfirst', rfl⟩ := h'
  obtain rfl : d = d' := Option.some.inj (hfirst.symm.trans hfirst')
  exact ⟨rfl, (Event.allocate.inj he).2.symm⟩

/-- A binding of a device with a name to a volume with a name spoils a store that is accepted
exactly if the store records the volume as the owner of another device. -/
theorem Binds.wellFormed_step_iff {s : System} {e : Event} {nqn volume : String}
    (hbinds : s.Binds e nqn volume) (h : s.broker.store.WellFormed) (hnqn : nqn ≠ "")
    (hvolume : volume ≠ "") : (s.step e).broker.store.WellFormed ↔ ¬ s.Doubles e := by
  rw [hbinds.store_step, h.put_iff hnqn]
  constructor
  · rintro hput ⟨k, v, other, hkv, hother, hrecord⟩
    obtain ⟨rfl, rfl⟩ := hbinds.unique hkv
    exact hother ((hput v rfl).2 other hrecord)
  · rintro hnot v hv
    obtain rfl : volume = v := Allocation.owned.inj hv
    refine ⟨hvolume, fun other hrecord => ?_⟩
    by_cases hother : other = nqn
    · exact hother
    · exact absurd ⟨nqn, volume, other, hbinds, hother, hrecord⟩ hnot

/-- An event of the broker itself that binds nothing leaves a store accepted. -/
theorem wellFormed_step_of_not_binds {s : System} (h : s.broker.store.WellFormed) {e : Event}
    (hown : e.isForeign = false) (hdevices : s.broker.catalog.allocation? "" = none)
    (hbinds : ∀ nqn volume : String, ¬ s.Binds e nqn volume) :
    (s.step e).broker.store.WellFormed := by
  cases s.step_changes e with
  | quiet _ hstore _ => exact hstore ▸ h
  | restored _ _ _ hstore => exact hstore ▸ h
  | merged _ hstore _ => exact hstore ▸ h
  | @bound faults volume d hsave howned hfirst _ _ _ =>
    exact absurd ⟨faults, d, rfl, hsave, howned, hfirst, rfl⟩ (hbinds d.nqn volume)
  | @freed _ nqn _ _ howned _ hstore _ =>
    have hnqn : nqn ≠ "" := by
      rintro rfl
      rw [hdevices] at howned
      cases howned
    rw [hstore, h.put_iff hnqn]
    intro volume hfree
    cases hfree
  | written hforeign _ _ _ => simp [hown] at hforeign
  | restarted hstart =>
    rw [hstart]
    exact h

/-- Where everything has a name, an event of the broker itself spoils a store that is accepted
exactly if it binds a second device to a volume. -/
theorem wellFormed_step_iff {s : System} (h : s.broker.store.WellFormed)
    (hnamed : s.broker.catalog.Named) (hdevices : s.broker.catalog.allocation? "" = none)
    {e : Event} (hown : e.isForeign = false) (hasks : e.AsksNamed) :
    (s.step e).broker.store.WellFormed ↔ ¬ s.Doubles e := by
  by_cases hbinds : ∃ nqn volume : String, s.Binds e nqn volume
  · obtain ⟨nqn, volume, hbinds⟩ := hbinds
    obtain ⟨_, d, rfl, -, -, hfirst, rfl⟩ := id hbinds
    have hfree := Catalog.allocation?_of_firstAllocatable? hnamed hfirst
    have hnqn : d.nqn ≠ "" := by
      intro hempty
      rw [hempty, hdevices] at hfree
      cases hfree
    exact hbinds.wellFormed_step_iff h hnqn hasks
  · have hnone : ∀ nqn volume : String, ¬ s.Binds e nqn volume := fun nqn volume hb =>
      hbinds ⟨nqn, volume, hb⟩
    refine iff_of_true (wellFormed_step_of_not_binds h hown hdevices hnone) ?_
    rintro ⟨nqn, volume, _, hb, -⟩
    exact hnone nqn volume hb

end System

end VolumeBroker
