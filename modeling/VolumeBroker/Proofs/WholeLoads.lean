import VolumeBroker.Proofs.NameOrder
import VolumeBroker.Proofs.StoreAcceptance

/-!
# A load takes the whole snapshot or nothing

`Snapshot.check` stops at the first record that it cannot accept after those before it.  What a
record can be charged with does not depend on how the check got there: it has no name, or its owner
has none, or its owner has a device with a lesser name (`Snapshot.Offends`).  So the fault that is
reported is that of the first record that has one, in the order of the names.

A load that is told of a fault, or cannot read the store, leaves the catalog as it is; any other
lays the whole snapshot over the catalog (`Broker.runLoad_cases`).
-/

set_option autoImplicit false

namespace VolumeBroker

namespace Snapshot

/-! ## The records that have been checked -/

/-- The owners that the check has met when it has gone through the records. -/
def ownersMet (owners : List String) (records : List (String × Allocation)) : List String :=
  records.foldl (fun owners r => r.2.owner?.toList ++ owners) owners

/-- The owners that have been met are those of before and those of the records. -/
theorem mem_ownersMet {owners : List String} {records : List (String × Allocation)}
    {volume : String} : volume ∈ ownersMet owners records ↔
      volume ∈ owners ∨ ∃ nqn : String, (nqn, Allocation.owned volume) ∈ records := by
  unfold ownersMet
  induction records generalizing owners with
  | nil => simp
  | cons r records ih =>
    obtain ⟨nqn, a⟩ := r
    rw [List.foldl_cons, ih]
    cases a with
    | free => simp [Allocation.owner?]
    | owned v =>
      have hfirst : (∃ k : String, (k, Allocation.owned volume) = (nqn, .owned v)) ↔
          volume = v := by simp
      simp only [Allocation.owner?, Option.toList_some, List.singleton_append, List.mem_cons,
        exists_or, hfirst, or_assoc, or_left_comm]

/-- Records are checked one after the other. -/
theorem checkFrom_append (owners : List String) (before after : List (String × Allocation)) :
    checkFrom owners (before ++ after) =
      checkFrom owners before >>= fun _ => checkFrom (ownersMet owners before) after := by
  induction before generalizing owners with
  | nil => rfl
  | cons r before ih =>
    obtain ⟨nqn, a⟩ := r
    rw [List.cons_append, checkFrom, checkFrom]
    cases fault? owners nqn a with
    | some fault => rfl
    | none => exact ih _

/-- The check ends with the fault of the first record that has one. -/
theorem checkFrom_eq_error_iff {owners : List String} {records : List (String × Allocation)}
    {fault : SnapshotFault} : checkFrom owners records = .error fault ↔
      ∃ (before after : List (String × Allocation)) (nqn : String) (a : Allocation),
        records = before ++ (nqn, a) :: after ∧ checkFrom owners before = .ok () ∧
          fault? (ownersMet owners before) nqn a = some fault := by
  constructor
  · intro h
    induction records generalizing owners with
    | nil => cases h
    | cons r records ih =>
      obtain ⟨nqn, a⟩ := r
      rw [checkFrom] at h
      cases hfault : fault? owners nqn a with
      | some fault' =>
        rw [hfault] at h
        obtain rfl : fault' = fault := Except.error.inj h
        exact ⟨[], records, nqn, a, rfl, rfl, hfault⟩
      | none =>
        rw [hfault] at h
        obtain ⟨before, after, k, a', rfl, hbefore, hk⟩ := ih h
        refine ⟨(nqn, a) :: before, after, k, a', rfl, ?_, hk⟩
        rw [checkFrom, hfault]
        exact hbefore
  · rintro ⟨before, after, nqn, a, rfl, hbefore, hfault⟩
    rw [checkFrom_append, hbefore, checkFrom.eq_def]
    simp only [hfault]
    rfl

/-! ## The first fault -/

/-- What the record of a device can be charged with. -/
inductive Offends (s : Snapshot) : String → SnapshotFault → Prop
  | namelessDevice {a : Allocation} (hrecord : s[""]? = some a) : Offends s "" .namelessDevice
  | namelessOwner {nqn : String} (hnqn : nqn ≠ "") (hrecord : s[nqn]? = some (.owned "")) :
      Offends s nqn (.namelessOwner nqn)
  /-- Its owner has a device with a lesser name. -/
  | sharedOwner {nqn volume m : String} (hnqn : nqn ≠ "") (hvolume : volume ≠ "")
      (hrecord : s[nqn]? = some (.owned volume)) (hm : s[m]? = some (.owned volume))
      (hlt : m < nqn) : Offends s nqn (.sharedOwner volume)

/-- A record has one of three faults: it names no device, it names no owner, or it names an owner
that has been met. -/
theorem fault?_eq_some_iff {owners : List String} {nqn : String} {a : Allocation}
    {fault : SnapshotFault} : fault? owners nqn a = some fault ↔
      (nqn = "" ∧ .namelessDevice = fault) ∨
      (nqn ≠ "" ∧ a = .owned "" ∧ .namelessOwner nqn = fault) ∨
      ∃ volume : String, nqn ≠ "" ∧ a = .owned volume ∧ volume ≠ "" ∧ volume ∈ owners ∧
        .sharedOwner volume = fault := by
  by_cases hn : nqn = ""
  · simp [hn, fault?_nameless]
  · cases a with
    | free => simp [hn, fault?_free hn]
    | owned volume =>
      rw [fault?_owned hn]
      by_cases hv : volume = "" <;> by_cases ho : volume ∈ owners <;> simp [hn, hv, ho]

/-- A fault is charged to a device that has a record. -/
theorem Offends.exists_record {s : Snapshot} {nqn : String} {fault : SnapshotFault}
    (h : s.Offends nqn fault) : ∃ a : Allocation, (nqn, a) ∈ s.toList := by
  cases h with
  | namelessDevice h | namelessOwner _ h | sharedOwner _ _ h _ _ =>
    exact ⟨_, Std.ExtTreeMap.mem_toList_iff_getElem?_eq_some.mpr h⟩

section Split

variable {s : Snapshot} {before after : List (String × Allocation)} {nqn : String} {a : Allocation}

/-- The records before another are those of the devices with lesser names. -/
theorem mem_before_iff (hsplit : s.toList = before ++ (nqn, a) :: after) {m : String}
    {c : Allocation} : (m, c) ∈ before ↔ m < nqn ∧ (m, c) ∈ s.toList := by
  have hsorted := pairwise_toList s
  rw [hsplit, List.pairwise_append, List.pairwise_cons] at hsorted
  obtain ⟨-, ⟨hafter, -⟩, hlt⟩ := hsorted
  rw [hsplit]
  constructor
  · intro hm
    exact ⟨hlt (m, c) hm (nqn, a) List.mem_cons_self, List.mem_append_left _ hm⟩
  · rintro ⟨hlt', hm⟩
    rcases List.mem_append.mp hm with hm | hm
    · exact hm
    · rcases List.mem_cons.mp hm with heq | hm
      · obtain rfl : m = nqn := congrArg Prod.fst heq
        exact absurd hlt' (String.lt_irrefl m)
      · exact absurd (String.lt_trans hlt' (hafter (m, c) hm)) (String.lt_irrefl m)

/-- A record is charged with what the check finds when it has gone through those before it. -/
theorem offends_iff (hsplit : s.toList = before ++ (nqn, a) :: after) {fault : SnapshotFault} :
    s.Offends nqn fault ↔ fault? (ownersMet [] before) nqn a = some fault := by
  have hget {k : String} {c : Allocation} : (k, c) ∈ s.toList ↔ s[k]? = some c :=
    Std.ExtTreeMap.mem_toList_iff_getElem?_eq_some
  have hrecord : s[nqn]? = some a := hget.mp (by simp [hsplit])
  rw [fault?_eq_some_iff]
  constructor
  · rintro (hdevice | ⟨hnqn, howner⟩ | ⟨hnqn, hvolume, howner, hm, hlt⟩)
    · exact .inl ⟨rfl, rfl⟩
    · exact .inr (.inl ⟨hnqn, Option.some.inj (hrecord.symm.trans howner), rfl⟩)
    · refine .inr (.inr ⟨_, hnqn, Option.some.inj (hrecord.symm.trans howner), hvolume, ?_, rfl⟩)
      exact mem_ownersMet.mpr (.inr ⟨_, (mem_before_iff hsplit).mpr ⟨hlt, hget.mpr hm⟩⟩)
  · rintro (⟨rfl, rfl⟩ | ⟨hnqn, rfl, rfl⟩ | ⟨volume, hnqn, rfl, hvolume, howner, rfl⟩)
    · exact .namelessDevice hrecord
    · exact .namelessOwner hnqn hrecord
    · obtain ⟨m, hm⟩ := (mem_ownersMet.mp howner).resolve_left List.not_mem_nil
      obtain ⟨hlt, hother⟩ := (mem_before_iff hsplit).mp hm
      exact .sharedOwner hnqn hvolume hrecord (hget.mp hother) hlt

/-- The check gets through the records before another exactly if none of them has a fault. -/
theorem checkFrom_before_eq_ok_iff (hsplit : s.toList = before ++ (nqn, a) :: after) :
    checkFrom [] before = .ok () ↔
      ∀ m : String, m < nqn → ∀ fault : SnapshotFault, ¬ s.Offends m fault := by
  constructor
  · intro hok m hlt fault hoffends
    obtain ⟨c, hmem⟩ := hoffends.exists_record
    obtain ⟨first, second, rfl⟩ :=
      List.append_of_mem ((mem_before_iff hsplit).mpr ⟨hlt, hmem⟩)
    rw [List.append_assoc, List.cons_append] at hsplit
    have hfault := (offends_iff hsplit).mp hoffends
    rw [checkFrom_append] at hok
    cases hfirst : checkFrom [] first with
    | error other =>
      rw [hfirst] at hok
      cases hok
    | ok _ =>
      rw [hfirst, checkFrom.eq_def] at hok
      simp only [hfault] at hok
      cases hok
  · intro hnone
    cases hcheck : checkFrom [] before with
    | ok _ => rfl
    | error fault =>
      obtain ⟨first, second, m, c, rfl, -, hfault⟩ := checkFrom_eq_error_iff.mp hcheck
      have hlt : m < nqn := ((mem_before_iff (m := m) (c := c) hsplit).mp (by simp)).1
      rw [List.append_assoc, List.cons_append] at hsplit
      exact absurd ((offends_iff hsplit).mpr hfault) (hnone m hlt fault)

end Split

/-- The fault is that of the first record that has one, in the order of the names. -/
def FirstFault (s : Snapshot) (fault : SnapshotFault) : Prop :=
  ∃ nqn : String, s.Offends nqn fault ∧
    ∀ m : String, m < nqn → ∀ other : SnapshotFault, ¬ s.Offends m other

/-- The check reports a fault exactly if it is that of the first record that has one. -/
theorem check_eq_error_iff {s : Snapshot} {fault : SnapshotFault} :
    s.check = .error fault ↔ s.FirstFault fault := by
  rw [check, checkFrom_eq_error_iff]
  constructor
  · rintro ⟨before, after, nqn, a, hsplit, hbefore, hfault⟩
    exact ⟨nqn, (offends_iff hsplit).mpr hfault, (checkFrom_before_eq_ok_iff hsplit).mp hbefore⟩
  · rintro ⟨nqn, hoffends, hfirst⟩
    obtain ⟨a, hmem⟩ := hoffends.exists_record
    obtain ⟨before, after, hsplit⟩ := List.append_of_mem hmem
    exact ⟨before, after, nqn, a, hsplit, (checkFrom_before_eq_ok_iff hsplit).mpr hfirst,
      (offends_iff hsplit).mp hoffends⟩

end Snapshot

namespace Broker

/-- What the store answers when a load asks it for the snapshot. -/
def storeAnswer (b : Broker) (faults : Faults) : Except StoreError Snapshot :=
  match faults.load with
  | some e => .error e
  | none => b.store.load

/-- A load goes by the answer of the store, and then by the check of the snapshot. -/
theorem loadSnapshot_eq (b : Broker) (faults : Faults) :
    b.loadSnapshot faults =
      match b.storeAnswer faults with
      | .error failure => (.error (.store failure), b)
      | .ok s =>
        match s.check with
        | .error fault => (.error (.snapshot fault), b)
        | .ok _ => (.ok (), { b with catalog := b.catalog.overlay s }) := by
  unfold loadSnapshot readSnapshot storeAnswer
  cases faults.load with
  | some e => rfl
  | none =>
    cases b.store.load with
    | error e => rfl
    | ok s => cases hcheck : s.check <;> simp only [hcheck]

/-- Whoever enters and waits for a load sees what came of it, and so does the state. -/
theorem runLoad_enterSync {b loaded : Broker} {faults : Faults} {number : Nat}
    {outcome : LoadOutcome} (hentry : b.enterSync.1 = .awaits number)
    (hload : b.enterSync.2.loadSnapshot faults = (outcome, loaded))
    (hsync : loaded.sync = b.enterSync.2.sync) :
    let after := b.enterSync.2.runLoad faults
    after.sync.outcome? number = some outcome ∧ after.sync.phase = .after outcome ∧
      after.catalog = loaded.catalog ∧ after.store = loaded.store := by
  intro after
  have hphase : b.enterSync.2.sync.phase = .loading number := System.phase_of_enter_awaits hentry
  have hawaited : b.enterSync.2.sync.awaited? = some number := by
    simp only [Sync.awaited?, hphase]
  have hafter : after = loaded.finishLoad number outcome := by
    simp only [after, runLoad, hawaited, hload]
  rw [hafter]
  refine ⟨List.lookup_cons_self, ?_, rfl, rfl⟩
  simp only [finishLoad, Sync.finish, hsync, hphase]

/-- The broker `after` has taken the whole snapshot: each device it names has the allocation of its
record, with the addressing that it had, if it was known, and every other device is what it was. -/
def Took (b after : Broker) (s : Snapshot) : Prop :=
  after.sync.phase = .synced ∧
    ∀ nqn : String,
      (∀ (a : Allocation) (d : Device), s[nqn]? = some a → b.catalog[nqn]? = some d →
        after.catalog[nqn]? = some { d with allocation := a }) ∧
      (∀ a : Allocation, s[nqn]? = some a → b.catalog[nqn]? = none →
        after.catalog[nqn]? = some ⟨nqn, none, [], a⟩) ∧
      (s[nqn]? = none → after.catalog[nqn]? = b.catalog[nqn]?)

/-- A broker whose catalog has had the snapshot laid over it has taken all of it. -/
theorem took_of_overlay {b after : Broker} {s : Snapshot} (hphase : after.sync.phase = .synced)
    (hcatalog : after.catalog = b.catalog.overlay s) : b.Took after s := by
  refine ⟨hphase, fun nqn => ?_⟩
  rw [hcatalog, Catalog.getElem?_overlay]
  refine ⟨fun a d ha hd => ?_, fun a ha hd => ?_, fun ha => ?_⟩
  · rw [ha, hd]
    rfl
  · rw [ha, hd]
    rfl
  · rw [ha]
    rfl

/-- What can come of a load, by what the store has answered. -/
inductive Loaded (b after : Broker) : Except StoreError Snapshot → LoadOutcome → Prop
  | unread (failure : StoreError) (hcatalog : after.catalog = b.catalog)
      (hphase : after.sync.phase = .notSynced) :
      Loaded b after (.error failure) (.error (.store failure))
  | faulty (s : Snapshot) (fault : SnapshotFault) (hfault : s.FirstFault fault)
      (hinvalid : ¬ s.Valid) (hcatalog : after.catalog = b.catalog)
      (hphase : after.sync.phase = .notSynced) :
      Loaded b after (.ok s) (.error (.snapshot fault))
  | taken (s : Snapshot) (hvalid : s.Valid) (htook : b.Took after s) :
      Loaded b after (.ok s) (.ok ())

/-- Whatever the store answers, the load comes to one of these. -/
theorem runLoad_cases {b : Broker} {number : Nat} (hentry : b.enterSync.1 = .awaits number)
    (faults : Faults) :
    let after := b.enterSync.2.runLoad faults
    ∃ outcome : LoadOutcome, after.sync.outcome? number = some outcome ∧ after.store = b.store ∧
      b.Loaded after (b.storeAnswer faults) outcome := by
  intro after
  have hload := b.enterSync.2.loadSnapshot_eq faults
  -- Whoever enters leaves the catalog and the store as they are.
  have hanswer : b.enterSync.2.storeAnswer faults = b.storeAnswer faults := rfl
  rw [hanswer] at hload
  cases hcases : b.storeAnswer faults with
  | error failure =>
    rw [hcases] at hload
    obtain ⟨houtcome, hphase, hcatalog, hstore⟩ := runLoad_enterSync hentry hload rfl
    exact ⟨_, houtcome, hstore, .unread failure hcatalog hphase⟩
  | ok s =>
    rw [hcases] at hload
    cases hcheck : s.check with
    | error fault =>
      have hinvalid : ¬ s.Valid := Snapshot.not_valid_of_check hcheck
      simp only [hcheck] at hload
      obtain ⟨houtcome, hphase, hcatalog, hstore⟩ := runLoad_enterSync hentry hload rfl
      have hfault := Snapshot.check_eq_error_iff.mp hcheck
      exact ⟨_, houtcome, hstore, .faulty s fault hfault hinvalid hcatalog hphase⟩
    | ok _ =>
      simp only [hcheck] at hload
      obtain ⟨houtcome, hphase, hcatalog, hstore⟩ := runLoad_enterSync hentry hload rfl
      have hvalid := Snapshot.check_eq_ok_iff.mp hcheck
      exact ⟨_, houtcome, hstore, .taken s hvalid (took_of_overlay hphase hcatalog)⟩

namespace Loaded

variable {b after : Broker} {answer : Except StoreError Snapshot} {outcome : LoadOutcome}
  {s : Snapshot} {failure : StoreError} {e : SyncError}

/-- The load succeeds exactly if the store has given a valid snapshot. -/
theorem eq_ok_iff (h : b.Loaded after answer outcome) :
    outcome = .ok () ↔ ∃ s : Snapshot, answer = .ok s ∧ s.Valid := by
  cases h with
  | unread _ _ _ => simp
  | faulty _ _ _ hinvalid _ _ => simp [hinvalid]
  | taken _ hvalid _ => simp [hvalid]

/-- A valid snapshot is taken. -/
theorem took (h : b.Loaded after (.ok s) outcome) (hvalid : s.Valid) : b.Took after s := by
  cases h with
  | faulty _ _ _ hinvalid _ _ => exact absurd hvalid hinvalid
  | taken _ _ htook => exact htook

/-- A load that fails leaves the catalog as it was, and the broker unsynchronised. -/
theorem of_error (h : b.Loaded after answer (.error e)) :
    after.catalog = b.catalog ∧ after.sync.phase = .notSynced := by
  cases h with
  | unread _ hcatalog hphase | faulty _ _ _ _ hcatalog hphase => exact ⟨hcatalog, hphase⟩

/-- The failure is called malformed exactly if what is in the store is at fault. -/
theorem isMalformed_iff (h : b.Loaded after answer (.error e)) :
    e.isMalformed = true ↔
      answer = .error .undecodable ∨ ∃ s : Snapshot, answer = .ok s ∧ ¬ s.Valid := by
  cases h with
  | unread failure _ _ =>
    cases failure <;> simp [SyncError.isMalformed, StoreError.isUndecodable]
  | faulty _ _ _ hinvalid _ _ => simp [SyncError.isMalformed, hinvalid]

/-- A snapshot that has been read and is not taken is complained about by its first fault. -/
theorem message_of_ok (h : b.Loaded after (.ok s) (.error e)) :
    ∃ fault : SnapshotFault, s.FirstFault fault ∧
      e.message = "malformed allocation snapshot: " ++ fault.message := by
  cases h with
  | faulty _ fault hfault _ _ _ => exact ⟨fault, hfault, rfl⟩

/-- Where the store gave no snapshot, the complaint has the words of the store. -/
theorem message_of_error (h : b.Loaded after (.error failure) (.error e)) :
    e.message = (if failure = .undecodable then "malformed allocation snapshot: "
      else "allocation store unavailable: ") ++ failure.message := by
  cases h with
  | unread _ _ _ => cases failure <;> rfl

end Loaded

/-- A load that somebody waits for ends.  If the store can be read and the snapshot is valid, the
load succeeds, and the catalog takes all of the snapshot.  Otherwise it fails, the catalog takes
nothing of it and the broker has not synchronised.  The snapshot is called malformed if a record
could not be decoded or the snapshot is not valid; then the fault is that of the first record that
has one, in the order of the names.  Any other failure is one of the store. -/
theorem load_takes_all_or_nothing (b : Broker) (faults : Faults) (number : Nat)
    (hentry : b.enterSync.1 = .awaits number) :
    let answer := b.storeAnswer faults
    let after := b.enterSync.2.runLoad faults
    ∃ outcome : LoadOutcome, after.sync.outcome? number = some outcome ∧ after.store = b.store ∧
      (outcome = .ok () ↔ ∃ s : Snapshot, answer = .ok s ∧ s.Valid) ∧
      (∀ s : Snapshot, answer = .ok s → s.Valid → b.Took after s) ∧
      (∀ e : SyncError, outcome = .error e →
        after.catalog = b.catalog ∧ after.sync.phase = .notSynced ∧
        (e.isMalformed = true ↔
          answer = .error .undecodable ∨ ∃ s : Snapshot, answer = .ok s ∧ ¬ s.Valid) ∧
        (∀ s : Snapshot, answer = .ok s → ∃ fault : SnapshotFault, s.FirstFault fault ∧
          e.message = "malformed allocation snapshot: " ++ fault.message) ∧
        ∀ failure : StoreError, answer = .error failure →
          e.message = (if failure = .undecodable then "malformed allocation snapshot: "
            else "allocation store unavailable: ") ++ failure.message) ∧
      (b.store.load = .error .undecodable ↔
        ∃ nqn : String, b.store.Names nqn ∧ b.store.record? nqn = none) := by
  intro answer after
  obtain ⟨outcome, houtcome, hstore, hcases⟩ := runLoad_cases hentry faults
  have hloaded : b.Loaded after answer outcome := hcases
  refine ⟨outcome, houtcome, hstore, hloaded.eq_ok_iff, fun s hs hvalid => ?_, ?_,
    Store.load_eq_undecodable_iff⟩
  · rw [hs] at hloaded
    exact hloaded.took hvalid
  · rintro e rfl
    obtain ⟨hcatalog, hphase⟩ := hloaded.of_error
    refine ⟨hcatalog, hphase, hloaded.isMalformed_iff, fun s hs => ?_, fun failure hfailure => ?_⟩
    · rw [hs] at hloaded
      exact hloaded.message_of_ok
    · rw [hfailure] at hloaded
      exact hloaded.message_of_error

/-- A broker that has found `nqn-a` and has not asked for the snapshot. -/
def surveying (records : Snapshot) : Broker :=
  { start (.inMemory records) with catalog := (∅ : Catalog).merge [⟨"nqn-a", .tcp, []⟩] }

/-- A record without an owner, and after it one that shares an owner. -/
def twoFaults : Snapshot :=
  .ofList [("nqn-a", .owned "vol1"), ("nqn-b", .owned ""), ("nqn-c", .owned "vol1")] compare

/-- Records that are all in order. -/
def noFault : Snapshot := .ofList [("nqn-a", .owned "vol1"), ("nqn-b", .free)] compare

/-- Of two faults the first in the order of the names is reported, and the device that is known is
not bound, though its own record has no fault.  Without them it is bound. -/
theorem first_fault_spares_known_device :
    (∃ e : SyncError,
      ((surveying twoFaults).enterSync.2.runLoad {}).sync.outcome? 0 = some (.error e) ∧
      e.message = "malformed allocation snapshot: device nqn-b allocated without an owner" ∧
      ((surveying twoFaults).enterSync.2.runLoad {}).catalog.allocation? "nqn-a" = some .free) ∧
    (surveying noFault).Took ((surveying noFault).enterSync.2.runLoad {}) noFault := by
  constructor
  · obtain ⟨outcome, houtcome, -, -, -, herror, -⟩ :=
      load_takes_all_or_nothing (surveying twoFaults) {} 0 rfl
    obtain rfl : outcome = .error (.snapshot (.namelessOwner "nqn-b")) :=
      Option.some.inj (houtcome.symm.trans rfl)
    obtain ⟨hcatalog, -, -, -, -⟩ := herror _ rfl
    refine ⟨_, houtcome, by decide, ?_⟩
    rw [hcatalog]
    decide
  · obtain ⟨-, -, -, -, htook, -, -⟩ := load_takes_all_or_nothing (surveying noFault) {} 0 rfl
    exact htook noFault rfl (Snapshot.check_eq_ok_iff.mp rfl)

end Broker

end VolumeBroker
