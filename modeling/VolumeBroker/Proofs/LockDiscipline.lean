import VolumeBroker.Proofs.Durability
import VolumeBroker.Proofs.OperationCourse

/-!
# Who holds the locks

The table of locks is one set of keys, and nothing in it says who holds a key.  But at every moment
the keys in it are those of the operations that have got past their acquire and have not ended, and
those of the guards that are held beside the operations, and no key stands there for two of them.
The invariant is an equation of counts: every key is held as often as it is in the table, that is
once or not at all.

So no way of ending leaves a key behind, nobody gives back what another holds, and an operation is
turned away from its acquire exactly if somebody holds its key.
-/

set_option autoImplicit false

namespace VolumeBroker

namespace System

/-- Whether an event may change who holds a lock. -/
def Event.touchesLocks : Event → Bool
  | .lock _ | .unlock _ | .restart => true
  | _ => false

/-- The other events leave the locks alone. -/
theorem locks_step (s : System) {e : Event} (h : e.touchesLocks = false) :
    (s.step e).broker.locks = s.broker.locks := by
  cases e with
  | load number faults =>
    simp only [step, Broker.loadSnapshot]
    split
    · split <;> rfl
    · rfl
  | finishLoad number =>
    simp only [step]
    split
    · rfl
    · split <;> rfl
  | leaveSync number =>
    simp only [step]
    split <;> rfl
  | allocate faults volume =>
    simp only [step, Broker.allocate_snd]
    exact s.broker.locks_carryOut faults _
  | release faults nqn => exact s.broker.locks_carryOut faults _
  | enterSync | merge _ | write _ | writeTexts _ => rfl
  | lock _ | unlock _ | restart => cases h

end System

namespace Operation

/-- Whether the operation holds the lock with this key. -/
def holds (op : Operation) (key : String) : Bool := op.holdsLock && op.request.key == key

/-- A stage changes the table by what it changes of the operation's own hold. -/
theorem isLocked_step (around : Surroundings) {b : Broker} {op : Operation} {key : String}
    (hheld : op.holds key = true → b.locks.isLocked key = true) :
    ((op.step around b).2.locks.isLocked key).toNat + (op.holds key).toNat =
      (b.locks.isLocked key).toNat + ((op.next around b).holds key).toNat := by
  have hrequest : (op.next around b).request = op.request := rfl
  cases op.step_changes_locks around b with
  | kept hlocks hholds => rw [hlocks, holds, holds, hholds, hrequest]
  | taken hstage hfree hlocks hnext =>
    have hnot : op.holds key = false := by simp [holds, holdsLock, hstage]
    rw [hlocks, hnot]
    by_cases hkey : key = op.request.key
    · simp [holds, holdsLock, hnext, hrequest, hkey, hfree]
    · simp [holds, hrequest, hkey, Ne.symm hkey]
  | returned hstage hlocks hnext =>
    -- What is given back has been the operation's own, so it was in the table.
    have hnot : (op.next around b).holds key = false := by simp [holds, holdsLock, hnext]
    rw [hlocks, LockTable.isLocked_release, hnot]
    by_cases hkey : key = op.request.key
    · subst hkey
      have hwas : op.holds op.request.key = true := by simp [holds, holdsLock, hstage]
      simp [hheld hwas, hwas]
    · simp [holds, hkey, Ne.symm hkey]

variable {around : Surroundings} {b : Broker} {op : Operation}

/-- A creation comes to its acquire from merging what a discovery has found. -/
theorem merging_of_next_locking (h : (op.next around b).stage = .locking)
    {request : CreateRequest} (hcreate : op.request = .create request) :
    ∃ found : List Descriptor, op.stage = .merging found := by
  cases op.step_moves around b with
  | merged hstage _ _ => exact ⟨_, hstage⟩
  | accepted _ _ hnext _ =>
    rw [hnext, hcreate] at h
    cases h
  | refused _ _ hnext _ | found _ _ hnext _ | ready _ hnext _ | joined _ hnext _ | waiting _ hnext _
  | woken _ hnext _ | unfound _ hnext _ | turnedAway _ hnext _ | locked _ _ hnext _
  | worked _ hnext _ | closed _ hnext _ | rested _ hnext _ =>
    rw [hnext] at h
    cases h

/-- A creation comes to merging from a discovery that has succeeded. -/
theorem discovering_of_next_merging {found : List Descriptor}
    (h : (op.next around b).stage = .merging found) :
    op.stage = .discovering ∧ around.fabric (parameters op.request) = .ok found := by
  cases op.step_moves around b with
  | found hstage hfabric hnext _ =>
    rw [hnext] at h
    obtain rfl := Stage.merging.inj h
    exact ⟨hstage, hfabric⟩
  | accepted _ _ hnext _ =>
    rw [hnext] at h
    cases hrequest : op.request <;> simp [hrequest, afterArrival] at h
  | refused _ _ hnext _ | ready _ hnext _ | joined _ hnext _ | waiting _ hnext _
  | woken _ hnext _ | unfound _ hnext _ | merged _ hnext _ | turnedAway _ hnext _
  | locked _ _ hnext _ | worked _ hnext _ | closed _ hnext _ | rested _ hnext _ =>
    rw [hnext] at h
    cases h

/-- An operation that finds its lock taken is aborted, and changes nothing. -/
theorem step_of_locked (hstage : op.stage = .locking)
    (hlocked : b.locks.isLocked op.request.key = true) :
    op.step around b = (.ended (.error (.aborted op.request.key)), b) := by
  have hrefused := LockTable.tryAcquire_eq_none_iff.mpr hlocked
  simp [step, hstage, Broker.lock?, hrefused]

/-- What is so of an operation that has got its lock. -/
def Admitted (op : Operation) : Prop :=
  op.stage = .working ∨ ∃ outcome : Outcome, op.outcome? = some outcome ∧
    ∀ key : String, outcome ≠ .error (.aborted key)

/-- An operation that finds its lock free gets it. -/
theorem admitted_of_free (hstage : op.stage = .locking)
    (hfree : b.locks.isLocked op.request.key = false) : (op.next around b).Admitted := by
  left
  simp [next, step, hstage, Broker.lock?, LockTable.tryAcquire, hfree]

/-- Whoever has got its lock goes on as one that has got it. -/
theorem Admitted.next (h : op.Admitted) (around : Surroundings) (b : Broker) :
    (op.next around b).Admitted := by
  rcases h with hworking | ⟨outcome, houtcome, hne⟩
  · refine .inr ⟨(work b around.faults op.request).1, ?_, fun key hwork => ?_⟩
    · simp [Operation.next, step, hworking, outcome?]
    · exact (work_ne hwork).2 key rfl
  · exact .inr ⟨outcome, outcome?_next houtcome, hne⟩

/-- Whoever has got its lock is not aborted for want of one. -/
theorem Admitted.stage_ne (h : op.Admitted) (key : String) :
    op.stage ≠ .ended (.error (.aborted key)) := by
  intro hended
  rcases h with hworking | ⟨outcome, houtcome, hne⟩
  · rw [hworking] at hended
    cases hended
  · simp only [outcome?, hended, Option.some.injEq] at houtcome
    exact hne key houtcome.symm

end Operation

namespace Traffic

/-- The keys of the locks as often as somebody holds them: the operations between their acquire and
their end, and the guards. -/
def holders (t : Traffic) : List String :=
  (t.operations.filter (·.holdsLock)).map (·.request.key) ++ t.guards

/-- The key is held in the table. -/
def isLocked (t : Traffic) (key : String) : Bool := t.system.broker.locks.isLocked key

/-- A key has as many holders as operations that hold it and guards of it. -/
theorem count_holders (t : Traffic) (key : String) :
    t.holders.count key = t.operations.countP (·.holds key) + t.guards.count key := by
  rw [holders, List.count_append]
  congr 1
  rw [List.count, List.countP_map, List.countP_filter]
  refine List.countP_congr fun op _ => ?_
  simp [Operation.holds, and_comm]

/-- A key has one holder if it is in the table, and none otherwise. -/
def Exact (t : Traffic) : Prop :=
  ∀ key : String, t.operations.countP (·.holds key) + t.guards.count key = (t.isLocked key).toNat

/-- At first nothing is held. -/
theorem exact_start (store : Store) : (start store).Exact := by
  intro key
  simp [start, isLocked, System.start, Broker.start, LockTable.isLocked]

/-- Where one operation takes the place of another, the count changes by the two of them. -/
theorem countP_set_add {ops : List Operation} {p : Operation → Bool} {i : Nat} {op : Operation}
    (hop : ops[i]? = some op) (op' : Operation) :
    (ops.set i op').countP p + (p op).toNat = ops.countP p + (p op').toNat := by
  obtain ⟨hlt, rfl⟩ := List.getElem?_eq_some_iff.mp hop
  have hset := List.countP_set (p := p) (a := op') hlt
  cases hp : p ops[i] with
  | false => cases hp' : p op' <;> simp [hp, hp', hset]
  | true =>
    have hpos : 0 < ops.countP p := List.countP_pos_iff.mpr ⟨_, List.getElem_mem hlt, hp⟩
    cases hp' : p op' <;> simp only [hset, hp, hp', if_true, Bool.toNat_true] <;> simp <;> omega

/-- A stage of an operation takes a lock for itself only if nobody held it, and gives back only its
own. -/
theorem Exact.advance {t : Traffic} (h : t.Exact) (i : Nat) (around : Surroundings) :
    (t.step (.advance i around)).Exact := by
  simp only [Traffic.step]
  cases hop : t.operations[i]? with
  | none => exact h
  | some op =>
    intro key
    have hbefore : t.operations.countP (·.holds key) + t.guards.count key =
      (t.system.broker.locks.isLocked key).toNat := h key
    have hcount := countP_set_add (p := (·.holds key)) hop (op.next around t.system.broker)
    -- The operation is one of those that are counted, so a key that it holds is in the table.
    have hheld : op.holds key = true → t.system.broker.locks.isLocked key = true := by
      intro hholds
      have hpos : 0 < t.operations.countP (·.holds key) :=
        List.countP_pos_iff.mpr ⟨op, List.mem_of_getElem? hop, hholds⟩
      cases hlocked : t.system.broker.locks.isLocked key with
      | true => rfl
      | false =>
        rw [hlocked, Bool.toNat_false] at hbefore
        omega
    have hlocks := op.isLocked_step around hheld
    -- Table and count change by the same, whatever the stage does.
    show (t.operations.set i (op.next around t.system.broker)).countP (·.holds key) +
      t.guards.count key = ((op.step around t.system.broker).2.locks.isLocked key).toNat
    omega

/-- A guard is given out for a key that nobody holds. -/
theorem Exact.lock {t : Traffic} (h : t.Exact) (key : String) :
    (t.stepBeside (.lock key)).Exact := by
  simp only [stepBeside]
  split
  · exact h
  · next hlocked =>
    intro k
    have hbefore := h k
    have hfree : t.system.broker.locks.isLocked key = false := by simpa using hlocked
    have hafter : ((t.system.step (.lock key)).broker.locks.isLocked k) =
        (decide (k = key) || t.system.broker.locks.isLocked k) := by
      simp only [System.step, Broker.lock?]
      cases hacquire : t.system.broker.locks.tryAcquire key with
      | none =>
        rw [LockTable.tryAcquire_eq_none_iff, hfree] at hacquire
        cases hacquire
      | some locks => exact LockTable.isLocked_of_tryAcquire hacquire k
    show t.operations.countP (·.holds k) + (key :: t.guards).count k =
      ((t.system.step (.lock key)).broker.locks.isLocked k).toNat
    rw [hafter, List.count_cons]
    by_cases hk : k = key
    · subst hk
      have hlocked : t.isLocked k = false := hfree
      rw [hlocked, Bool.toNat_false] at hbefore
      simp only [decide_true, Bool.true_or, Bool.toNat_true, beq_self_eq_true, if_true]
      omega
    · have hlocked : t.isLocked k = t.system.broker.locks.isLocked k := rfl
      simpa [hk, Ne.symm hk, hlocked] using hbefore

/-- A guard that is dropped gives its own key back. -/
theorem Exact.unlock {t : Traffic} (h : t.Exact) (key : String) :
    (t.stepBeside (.unlock key)).Exact := by
  simp only [stepBeside]
  split
  · next hguard =>
    intro k
    have hbefore := h k
    have hafter : (t.system.step (.unlock key)).broker.locks.isLocked k =
        (decide (k ≠ key) && t.system.broker.locks.isLocked k) :=
      LockTable.isLocked_release _ key k
    show t.operations.countP (·.holds k) + (t.guards.erase key).count k =
      ((t.system.step (.unlock key)).broker.locks.isLocked k).toNat
    rw [hafter]
    by_cases hk : k = key
    · subst hk
      have hpos : 0 < t.guards.count k := List.count_pos_iff.mpr hguard
      have hle := Bool.toNat_le (t.isLocked k)
      rw [List.count_erase_self]
      simp only [ne_eq, not_true_eq_false, decide_false, Bool.false_and, Bool.toNat_false]
      omega
    · have hlocked : t.isLocked k = t.system.broker.locks.isLocked k := rfl
      rw [List.count_erase_of_ne hk]
      simpa [hk, hlocked] using hbefore
  · exact h

/-- No event makes a key have two holders, or a holder without its key. -/
theorem Exact.step {t : Traffic} (h : t.Exact) (e : Event) : (t.step e).Exact := by
  cases e with
  | arrive request =>
    intro key
    have hnot : ({ request } : Operation).holds key = false := rfl
    have hcount : (t.operations ++ [({ request } : Operation)]).countP (·.holds key) =
        t.operations.countP (·.holds key) := by
      rw [List.countP_append, List.countP_singleton, hnot]
      rfl
    exact (congrArg (· + t.guards.count key) hcount).trans (h key)
  | advance i around => exact h.advance i around
  | beside e =>
    cases e with
    | restart => exact exact_start t.system.broker.store
    | lock key => exact h.lock key
    | unlock key => exact h.unlock key
    | enterSync | load _ _ | finishLoad _ | leaveSync _ | merge _ | allocate _ _ | release _ _
    | write _ | writeTexts _ =>
      intro key
      refine (h key).trans (congrArg (fun locks => (LockTable.isLocked locks key).toNat) ?_)
      refine (t.system.locks_step ?_).symm
      rfl

/-- In any traffic the table has exactly the keys of the holders. -/
theorem exact_run (store : Store) (events : List Event) : ((start store).run events).Exact :=
  run_induction (fun _ => True) (fun _ e _ h => h.step e) (fun _ _ => trivial) (exact_start store)

/-- The keys in the table are those that somebody holds. -/
theorem Exact.isLocked_iff {t : Traffic} (h : t.Exact) (key : String) :
    t.isLocked key = true ↔ key ∈ t.holders := by
  rw [← List.count_pos_iff, count_holders, h key]
  cases t.isLocked key <;> simp

/-- No key is held twice. -/
theorem Exact.nodup_holders {t : Traffic} (h : t.Exact) : t.holders.Nodup := by
  refine List.nodup_iff_count.mpr fun key => ?_
  rw [count_holders, h key]
  exact Bool.toNat_le _

/-- The discipline of the locks, as it is at one moment. -/
structure Disciplined (t : Traffic) : Prop where
  /-- The keys in the table are those that somebody holds. -/
  isLocked_iff : ∀ key : String, t.isLocked key = true ↔ key ∈ t.holders
  /-- No key is held twice. -/
  nodup_holders : t.holders.Nodup
  /-- An operation gets to its acquire with a request that is in order. -/
  fault?_of_locking : ∀ {i : Nat} {op : Operation}, t.operations[i]? = some op →
    op.stage = .locking → op.request.fault? = none
  /-- A creation gets there with the findings of a discovery that has succeeded. -/
  discovered_of_create : ∀ {i : Nat} {op : Operation} {request : CreateRequest},
    t.operations[i]? = some op → op.request = .create request → ∀ around : Surroundings,
    ((op.next around t.system.broker).stage = .locking →
      ∃ found : List Descriptor, op.stage = .merging found) ∧
    ∀ found : List Descriptor, (op.next around t.system.broker).stage = .merging found →
      op.stage = .discovering ∧ around.fabric (Operation.parameters op.request) = .ok found
  /-- If somebody holds the key, the operation is turned away, and it changes nothing and calls
  nobody from then on. -/
  turned_away : ∀ {i : Nat} {op : Operation}, t.operations[i]? = some op → op.stage = .locking →
    t.isLocked op.request.key = true → ∀ (around : Surroundings) (rest : List Event),
    (∀ e ∈ rest, e ≠ .beside .restart) →
    (t.step (.advance i around)).system = t.system ∧
      ∃ later : Operation, ((t.step (.advance i around)).run rest).operations[i]? = some later ∧
        later.stage = .ended (.error (.aborted op.request.key)) ∧
        ∀ (around : Surroundings) (b : Broker), later.step around b = (later.stage, b) ∧
          later.calls? b = none
  /-- If nobody does, the operation is not turned away. -/
  admitted : ∀ {i : Nat} {op : Operation}, t.operations[i]? = some op → op.stage = .locking →
    t.isLocked op.request.key = false → ∀ (around : Surroundings) (rest : List Event),
    (∀ e ∈ rest, e ≠ .beside .restart) →
    ∃ later : Operation, ((t.step (.advance i around)).run rest).operations[i]? = some later ∧
      ∀ key : String, later.stage ≠ .ended (.error (.aborted key))
  /-- Once an operation has ended, a lock is held by another operation or by a guard. -/
  isLocked_iff_of_ended : ∀ {i : Nat} {op : Operation}, t.operations[i]? = some op →
    (∃ outcome : Outcome, op.stage = .ended outcome) → ∀ key : String, t.isLocked key = true ↔
      (∃ (j : Nat) (other : Operation), j ≠ i ∧ t.operations[j]? = some other ∧
        other.holds key = true) ∨ key ∈ t.guards
  /-- When no operation is under way, only guards are left. -/
  isLocked_iff_of_idle : (∀ op ∈ t.operations, ∃ outcome : Outcome, op.stage = .ended outcome) →
    ∀ key : String, t.isLocked key = true ↔ key ∈ t.guards

/-- A key is held by an operation or by a guard. -/
theorem mem_holders {t : Traffic} {key : String} :
    key ∈ t.holders ↔ (∃ op ∈ t.operations, op.holds key = true) ∨ key ∈ t.guards := by
  simp [holders, Operation.holds, and_assoc]

/-- An operation that has ended holds nothing. -/
theorem holds_of_ended {op : Operation} (h : ∃ outcome : Outcome, op.stage = .ended outcome)
    (key : String) : op.holds key = false := by
  obtain ⟨outcome, hended⟩ := h
  simp [Operation.holds, Operation.holdsLock, hended]

/-- Whatever the operations ask for and however they are interleaved, with each other and with
guards that are taken and dropped: the discipline of the locks is kept. -/
theorem disciplined_run (store : Store) (events : List Event) :
    ((start store).run events).Disciplined := by
  have hexact := exact_run store events
  have hregular : ∀ op ∈ ((start store).run events).operations, op.Regular := regular_run
  refine ⟨hexact.isLocked_iff, hexact.nodup_holders, ?_, ?_, ?_, ?_, ?_, ?_⟩
  · intro i op hop hstage
    have h := hregular op (List.mem_of_getElem? hop)
    simpa only [Operation.Regular, hstage] using h
  · intro i op request hop hcreate around
    exact ⟨fun h => Operation.merging_of_next_locking h hcreate,
      fun found h => Operation.discovering_of_next_merging h⟩
  · intro i op hop hstage hlocked around rest hrest
    have hstep : op.step around ((start store).run events).system.broker =
        (.ended (.error (.aborted op.request.key)), ((start store).run events).system.broker) :=
      Operation.step_of_locked hstage hlocked
    have hnext : (op.next around ((start store).run events).system.broker).stage =
        .ended (.error (.aborted op.request.key)) := congrArg Prod.fst hstep
    obtain ⟨later, hlater, -, hended⟩ := operation_run
      (P := fun later => later.stage = .ended (.error (.aborted op.request.key)))
      (fun _ _ _ h => Operation.stage_next_of_ended h) (operations_step_advance hop around) hnext
      hrest
    refine ⟨?_, later, hlater, hended, fun around b => ?_⟩
    · simp only [step, hop, hstep]
    · simp only [Operation.step, Operation.calls?, hended, and_self]
  · intro i op hop hstage hfree around rest hrest
    have hadmitted : (op.next around ((start store).run events).system.broker).Admitted :=
      Operation.admitted_of_free hstage hfree
    obtain ⟨later, hlater, -, hkept⟩ := operation_run (fun around b _ h => h.next around b)
      (operations_step_advance hop around) hadmitted hrest
    exact ⟨later, hlater, hkept.stage_ne⟩
  · intro i op hop hended key
    rw [hexact.isLocked_iff, mem_holders]
    refine or_congr_left ⟨?_, ?_⟩
    · rintro ⟨other, hother, hholds⟩
      obtain ⟨j, hj⟩ := List.mem_iff_getElem?.mp hother
      refine ⟨j, other, ?_, hj, hholds⟩
      rintro rfl
      obtain rfl : op = other := Option.some.inj (hop.symm.trans hj)
      rw [holds_of_ended hended] at hholds
      cases hholds
    · rintro ⟨j, other, -, hj, hholds⟩
      exact ⟨other, List.mem_of_getElem? hj, hholds⟩
  · intro hidle key
    rw [hexact.isLocked_iff, mem_holders]
    refine or_iff_right ?_
    rintro ⟨op, hop, hholds⟩
    rw [holds_of_ended (hidle op hop)] at hholds
    cases hholds

/-- A guard holds `vol1`, the creation of `vol1` has come to its acquire, and the deletion of
`nqn-b` holds its lock. -/
def busyVolume : List Event :=
  [.beside (.lock "vol1"), .arrive (.create ⟨"vol1", [some .mount], ∅⟩),
    .advance 0 calmSurroundings, .advance 0 calmSurroundings, .beside (.load 0 {}),
    .beside (.finishLoad 0), .advance 0 calmSurroundings, .advance 0 calmSurroundings,
    .advance 0 calmSurroundings, .arrive (.delete "nqn-b"), .advance 1 calmSurroundings,
    .advance 1 calmSurroundings]

/-- The creation of a volume whose lock a guard holds is aborted, whatever comes after it. -/
theorem creation_of_busy_volume_aborts :
    ((start (.inMemory ∅)).run busyVolume).holders = ["nqn-b", "vol1"] ∧
      ∀ rest : List Event, (∀ e ∈ rest, e ≠ .beside .restart) → ∃ later : Operation,
        ((((start (.inMemory ∅)).run busyVolume).step (.advance 0 calmSurroundings)).run
          rest).operations[0]? = some later ∧ later.stage = .ended (.error (.aborted "vol1")) := by
  refine ⟨rfl, fun rest hrest => ?_⟩
  have hlocked : ((start (.inMemory ∅)).run busyVolume).isLocked "vol1" = true :=
    ((disciplined_run (.inMemory ∅) busyVolume).isLocked_iff "vol1").mpr (by decide)
  have hop : ((start (.inMemory ∅)).run busyVolume).operations[0]? =
      some ⟨.create ⟨"vol1", [some .mount], ∅⟩, .locking⟩ := rfl
  obtain ⟨-, later, hlater, hended, -⟩ := (disciplined_run (.inMemory ∅) busyVolume).turned_away
    hop rfl hlocked calmSurroundings rest hrest
  exact ⟨later, hlater, hended⟩

end Traffic

end VolumeBroker
