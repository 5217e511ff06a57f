import VolumeBroker.Snapshot

/-!
# Valid snapshots

`Snapshot.check` goes through the records once, with the owners it has met so far.  What it accepts
can be said without an order: every device and every owner has a name, and no volume owns two
devices.  `check_eq_ok_iff` is this equivalence.
-/

set_option autoImplicit false

namespace VolumeBroker.Snapshot

/-- What a snapshot that makes sense is like. -/
structure Valid (s : Snapshot) : Prop where
  /-- Every device has a name. -/
  device_named : ∀ (nqn : String) (a : Allocation), s[nqn]? = some a → nqn ≠ ""
  /-- Every owner has a name. -/
  owner_named : ∀ nqn volume : String, s[nqn]? = some (.owned volume) → volume ≠ ""
  /-- No volume owns two devices. -/
  exclusive : ∀ m n volume : String, s[m]? = some (.owned volume) →
    s[n]? = some (.owned volume) → m = n

/-- A record without a name is at fault, whatever it says. -/
theorem fault?_nameless (owners : List String) (a : Allocation) :
    fault? owners "" a = some .namelessDevice := rfl

/-- A free device with a name is not at fault. -/
theorem fault?_free {owners : List String} {nqn : String} (hn : nqn ≠ "") :
    fault? owners nqn .free = none := by
  simp [fault?, hn, Allocation.owner?]

/-- A device that is bound must name its owner, and an owner that has not been met before. -/
theorem fault?_owned {owners : List String} {nqn volume : String} (hn : nqn ≠ "") :
    fault? owners nqn (.owned volume) =
      if volume = "" then some (.namelessOwner nqn)
      else if volume ∈ owners then some (.sharedOwner volume)
      else none := by
  simp [fault?, hn, Allocation.owner?]

/-- A record has no fault exactly when its device has a name and its owner, if there is one, has a
name that has not been met. -/
theorem fault?_eq_none_iff {owners : List String} {nqn : String} {a : Allocation} :
    fault? owners nqn a = none ↔
      nqn ≠ "" ∧ ∀ volume : String, a = .owned volume → volume ≠ "" ∧ volume ∉ owners := by
  by_cases hn : nqn = ""
  · simp [hn, fault?_nameless]
  · cases a with
    | free => simp [hn, fault?_free hn]
    | owned volume =>
      rw [fault?_owned hn]
      by_cases hv : volume = "" <;> by_cases ho : volume ∈ owners <;> simp [hn, hv, ho]

/-- Records are accepted after others with certain owners exactly when each has its names, none has
an owner that was met before, and no two of them share one. -/
theorem checkFrom_eq_ok_iff {owners : List String} {records : List (String × Allocation)} :
    checkFrom owners records = .ok () ↔
      (∀ r ∈ records, r.1 ≠ "" ∧
        ∀ volume : String, r.2 = .owned volume → volume ≠ "" ∧ volume ∉ owners) ∧
      records.Pairwise fun r q =>
        ∀ volume : String, r.2 = .owned volume → q.2 ≠ .owned volume := by
  -- On the records, with the owners that have been met before them.
  induction records generalizing owners with
  | nil => simp [checkFrom]
  | cons r rest ih =>
    obtain ⟨nqn, a⟩ := r
    unfold checkFrom
    cases hf : fault? owners nqn a with
    | some fault =>
      have hbad : ¬ (nqn ≠ "" ∧ ∀ volume : String, a = .owned volume →
          volume ≠ "" ∧ volume ∉ owners) := by
        rw [← fault?_eq_none_iff, hf]
        simp
      simp only [List.forall_mem_cons, reduceCtorEq, false_iff]
      rintro ⟨⟨hgood, -⟩, -⟩
      exact hbad hgood
    | none =>
      have hgood := fault?_eq_none_iff.mp hf
      have howners (volume : String) :
          volume ∈ a.owner?.toList ++ owners ↔ a = .owned volume ∨ volume ∈ owners := by
        cases a <;> simp [Allocation.owner?, eq_comm]
      simp only [ih, howners, not_or, List.forall_mem_cons, List.pairwise_cons]
      constructor
      · rintro ⟨hrest, hpair⟩
        refine ⟨⟨hgood, fun q hq => ⟨(hrest q hq).1, fun v hv => ?_⟩⟩,
          fun q hq v hv hqv => ?_, hpair⟩
        · exact ⟨((hrest q hq).2 v hv).1, ((hrest q hq).2 v hv).2.2⟩
        · exact ((hrest q hq).2 v hqv).2.1 hv
      · rintro ⟨⟨-, hrest⟩, hfirst, hpair⟩
        refine ⟨fun q hq => ⟨(hrest q hq).1, fun v hv => ?_⟩, hpair⟩
        exact ⟨((hrest q hq).2 v hv).1, fun ha => hfirst q hq v ha hv, ((hrest q hq).2 v hv).2⟩

/-- A snapshot is accepted exactly when it makes sense. -/
theorem check_eq_ok_iff {s : Snapshot} : s.check = .ok () ↔ s.Valid := by
  have hmem {nqn : String} {a : Allocation} : (nqn, a) ∈ s.toList ↔ s[nqn]? = some a :=
    Std.ExtTreeMap.mem_toList_iff_getElem?_eq_some
  rw [check, checkFrom_eq_ok_iff]
  constructor
  · rintro ⟨hnames, hpair⟩
    refine ⟨fun nqn a h => (hnames (nqn, a) (hmem.mpr h)).1,
      fun nqn v h => ((hnames (nqn, .owned v) (hmem.mpr h)).2 v rfl).1, fun m n v hm hn => ?_⟩
    have hshared : ∀ r ∈ s.toList, ∀ q ∈ s.toList,
        r.2 = .owned v → q.2 = .owned v → r = q := by
      apply List.Pairwise.forall_of_forall_of_flip
      · intro r _ _ _
        rfl
      · exact hpair.imp fun h hr hq => absurd hq (h v hr)
      · exact hpair.imp fun h hq hr => absurd hq (h v hr)
    exact congrArg Prod.fst (hshared _ (hmem.mpr hm) _ (hmem.mpr hn) rfl rfl)
  · intro h
    refine ⟨fun r hr => ⟨h.device_named r.1 r.2 (hmem.mp hr), fun v hv => ⟨?_, by simp⟩⟩, ?_⟩
    · exact h.owner_named r.1 v (hv ▸ hmem.mp hr)
    · have hdistinct := s.distinct_keys_toList
      refine hdistinct.imp_of_mem fun {r q} hr hq hkeys v hrv hqv => hkeys ?_
      have : r.1 = q.1 := h.exclusive r.1 q.1 v (hrv ▸ hmem.mp hr) (hqv ▸ hmem.mp hq)
      simp [this]

/-- A snapshot that fails the check is not valid. -/
theorem not_valid_of_check {s : Snapshot} {fault : SnapshotFault} (h : s.check = .error fault) :
    ¬ s.Valid := by
  rw [← check_eq_ok_iff, h]
  simp

end VolumeBroker.Snapshot
