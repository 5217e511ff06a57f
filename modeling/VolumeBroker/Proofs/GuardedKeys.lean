import Mathlib.Data.List.Nodup
import VolumeBroker.LockTable

/-!
# Guards and the keys that are held

Whatever is taken and given back, the keys that a table holds are those of the guards that there
are, with one guard for each.  `GuardSlots.Sound` says so, `Sound.step` that an action keeps it, and
`Sound.run` that any number of actions do.

The one action that takes and drops at once is an acquisition into a slot that is in use.  The new
key goes into the table before the old one goes out of it.  That comes to the same as dropping the
old guard first, but only because the keys are different: with the key of the guard that is in the
slot, the acquisition is refused, and the guard stays.

A guard gives its key back when it is dropped.  A key that is not held then would have been given
back twice.  `LockTable.HeldInTurn` says of keys that are given back one after the other that this
does not happen to any of them, and it comes down to the keys being different and all held.
-/

set_option autoImplicit false

namespace VolumeBroker

namespace LockTable

/-- A table is known by the keys that are held. -/
theorem ext_isLocked {t u : LockTable} (h : ∀ k : String, t.isLocked k = u.isLocked k) : t = u := by
  obtain ⟨held⟩ := t
  obtain ⟨held'⟩ := u
  exact congrArg LockTable.mk (Std.ExtTreeSet.ext_contains h)

/-! ## Giving back several keys -/

/-- Gives the keys back one after the other. -/
def releaseEach (t : LockTable) (keys : List String) : LockTable := keys.foldl release t

/-- Every key is held when its turn has come to be given back. -/
def HeldInTurn (t : LockTable) : List String → Prop
  | [] => True
  | key :: rest => t.isLocked key = true ∧ (t.release key).HeldInTurn rest

variable {t u : LockTable} {keys : List String}

/-- After keys have been given back, the other keys are held as before. -/
theorem isLocked_releaseEach {k : String} :
    (t.releaseEach keys).isLocked k = true ↔ t.isLocked k = true ∧ k ∉ keys := by
  unfold releaseEach
  induction keys generalizing t with
  | nil => simp
  | cons key rest ih =>
    rw [List.foldl_cons, ih, isLocked_release, List.mem_cons, not_or, Bool.and_eq_true,
      decide_eq_true_iff]
    exact ⟨fun h => ⟨h.1.2, h.1.1, h.2⟩, fun h => ⟨⟨h.2.1, h.1⟩, h.2.2⟩⟩

/-- Each key is held when its turn has come exactly if all are held at first and none is given back
twice. -/
theorem heldInTurn_iff : t.HeldInTurn keys ↔ keys.Nodup ∧ ∀ key ∈ keys, t.isLocked key = true := by
  induction keys generalizing t with
  | nil => simp [HeldInTurn]
  | cons key rest ih =>
    rw [HeldInTurn, ih, List.nodup_cons, List.forall_mem_cons]
    constructor
    · rintro ⟨hkey, hnodup, hrest⟩
      have hheld (k : String) (hk : k ∈ rest) : k ≠ key ∧ t.isLocked k = true := by
        simpa [isLocked_release] using hrest k hk
      exact ⟨⟨fun hmem => (hheld key hmem).1 rfl, hnodup⟩, hkey, fun k hk => (hheld k hk).2⟩
    · rintro ⟨⟨hnew, hnodup⟩, hkey, hrest⟩
      refine ⟨hkey, hnodup, fun k hk => ?_⟩
      rw [isLocked_release, hrest k hk, Bool.and_true, decide_eq_true_iff]
      rintro rfl
      exact hnew hk

/-- The order in which keys are given back does not matter. -/
theorem releaseEach_perm {keys' : List String} (h : keys.Perm keys') :
    t.releaseEach keys = t.releaseEach keys' := by
  refine ext_isLocked fun k => Bool.eq_iff_iff.mpr ?_
  rw [isLocked_releaseEach, isLocked_releaseEach, h.mem_iff]

/-- A key that is free can be taken before another is given back or after it. -/
theorem tryAcquire_release {key other : String} (hne : key ≠ other)
    (h : t.tryAcquire key = some u) :
    (t.release other).tryAcquire key = some (u.release other) := by
  have hfree : (t.release other).isLocked key = false := by
    have hkey : t.isLocked key = false := by
      rw [← Bool.not_eq_true, ← tryAcquire_eq_none_iff, h]
      simp
    rw [isLocked_release, hkey, Bool.and_false]
  cases hnext : (t.release other).tryAcquire key with
  | none =>
    rw [tryAcquire_eq_none_iff, hfree] at hnext
    cases hnext
  | some v =>
    refine congrArg some (ext_isLocked fun k => ?_)
    rw [isLocked_of_tryAcquire hnext, isLocked_release, isLocked_release, isLocked_of_tryAcquire h]
    by_cases hk : k = key
    · simp [hk, hne]
    · simp [hk]

end LockTable

namespace GuardSlots

/-- There is a guard of the key. -/
def HasGuard (g : GuardSlots) (key : String) : Prop := ∃ slot : String, g.slots[slot]? = some key

/-- The keys of the guards, in the order of their slots. -/
def keys (g : GuardSlots) : List String := g.slots.toList.map (·.2)

/-- The keys that are held are those of the guards, and each has one guard only. -/
structure Sound (g : GuardSlots) : Prop where
  isLocked_iff : ∀ key : String, g.table.isLocked key = true ↔ g.HasGuard key
  slot_unique : ∀ slot slot' key : String,
    g.slots[slot]? = some key → g.slots[slot']? = some key → slot = slot'

variable {g : GuardSlots}

/-- The keys of the guards are those that have a guard. -/
theorem mem_keys {key : String} : key ∈ g.keys ↔ g.HasGuard key := by
  simp [keys, HasGuard]

/-- No two guards have one key. -/
theorem Sound.nodup_keys (h : g.Sound) : g.keys.Nodup := by
  refine List.pairwise_map.mpr (Std.ExtTreeMap.distinct_keys_toList.imp_of_mem ?_)
  rintro ⟨slot, key⟩ ⟨slot', key'⟩ hmem hmem' hne rfl
  rw [Std.ExtTreeMap.mem_toList_iff_getElem?_eq_some] at hmem hmem'
  obtain rfl : slot = slot' := h.slot_unique slot slot' key hmem hmem'
  exact hne Std.ReflCmp.compare_self

/-- There are as many keys held as there are guards. -/
theorem Sound.size_table (h : g.Sound) : g.table.size = g.slots.size := by
  have hnodup : g.table.held.toList.Nodup := by
    refine Std.ExtTreeSet.distinct_toList.imp ?_
    rintro key _ hne rfl
    exact hne Std.ReflCmp.compare_self
  have hperm : g.table.held.toList.Perm g.keys := by
    rw [List.perm_ext_iff_of_nodup hnodup h.nodup_keys]
    intro key
    rw [Std.ExtTreeSet.mem_toList, mem_keys, ← h.isLocked_iff]
    exact Iff.rfl
  calc
    g.table.size = g.table.held.toList.length := Std.ExtTreeSet.length_toList.symm
    _ = g.keys.length := hperm.length_eq
    _ = g.slots.size := by rw [keys, List.length_map, Std.ExtTreeMap.length_toList]

/-! ## Taking and dropping one guard -/

/-- A guard that is put into a slot is found there, and in the other slots what was there. -/
theorem getElem?_slots_insert (slots : Std.ExtTreeMap String String) (slot key s : String) :
    (slots.insert slot key)[s]? = if slot = s then some key else slots[s]? := by
  rw [Std.ExtTreeMap.getElem?_insert]
  simp only [Std.LawfulEqCmp.compare_eq_iff_eq]

/-- A slot that is cleared is empty, and the other slots have what they had. -/
theorem getElem?_slots_erase (slots : Std.ExtTreeMap String String) (slot s : String) :
    (slots.erase slot)[s]? = if slot = s then none else slots[s]? := by
  rw [Std.ExtTreeMap.getElem?_erase]
  simp only [Std.LawfulEqCmp.compare_eq_iff_eq]

/-- A guard is taken into a slot that is not in use. -/
theorem Sound.take (h : g.Sound) {slot key : String} {table : LockTable}
    (hempty : g.slots[slot]? = none) (htable : g.table.tryAcquire key = some table) :
    Sound ⟨table, g.slots.insert slot key⟩ := by
  -- The key was not held, so no other guard has it.
  have hnone : ¬ g.HasGuard key := by
    rw [← h.isLocked_iff, ← LockTable.tryAcquire_eq_none_iff, htable]
    simp
  refine ⟨fun k => ?_, fun s s' k hs hs' => ?_⟩
  · rw [LockTable.isLocked_of_tryAcquire htable, Bool.or_eq_true, decide_eq_true_iff,
      h.isLocked_iff]
    unfold HasGuard
    simp only [getElem?_slots_insert]
    constructor
    · rintro (rfl | ⟨s, hs⟩)
      · exact ⟨slot, if_pos rfl⟩
      · refine ⟨s, (if_neg ?_).trans hs⟩
        rintro rfl
        rw [hempty] at hs
        cases hs
    · rintro ⟨s, hs⟩
      split at hs
      · exact .inl (Option.some.inj hs).symm
      · exact .inr ⟨s, hs⟩
  · simp only [getElem?_slots_insert] at hs hs'
    by_cases hnew : slot = s
    · by_cases hnew' : slot = s'
      · exact hnew.symm.trans hnew'
      · rw [if_pos hnew, Option.some.injEq] at hs
        rw [if_neg hnew', ← hs] at hs'
        exact absurd ⟨s', hs'⟩ hnone
    · by_cases hnew' : slot = s'
      · rw [if_pos hnew', Option.some.injEq] at hs'
        rw [if_neg hnew, ← hs'] at hs
        exact absurd ⟨s, hs⟩ hnone
      · rw [if_neg hnew] at hs
        rw [if_neg hnew'] at hs'
        exact h.slot_unique s s' k hs hs'

/-- The guard of a slot is dropped. -/
theorem Sound.drop (h : g.Sound) {slot key : String} (hslot : g.slots[slot]? = some key) :
    Sound ⟨g.table.release key, g.slots.erase slot⟩ := by
  refine ⟨fun k => ?_, fun s s' k hs hs' => ?_⟩
  · rw [LockTable.isLocked_release, Bool.and_eq_true, decide_eq_true_iff, h.isLocked_iff]
    unfold HasGuard
    simp only [getElem?_slots_erase, Option.ite_none_left_eq_some]
    constructor
    · rintro ⟨hne, s, hs⟩
      refine ⟨s, ?_, hs⟩
      rintro rfl
      exact hne (Option.some.inj (hs.symm.trans hslot))
    · rintro ⟨s, hne, hs⟩
      refine ⟨?_, s, hs⟩
      rintro rfl
      exact hne (h.slot_unique slot s k hslot hs)
  · simp only [getElem?_slots_erase, Option.ite_none_left_eq_some] at hs hs'
    exact h.slot_unique s s' k hs.2 hs'.2

/-- With a key that is not held, the guard that is in a slot may as well be dropped first. -/
theorem Sound.acquire_of_slot_in_use (h : g.Sound) {slot key old : String}
    (hslot : g.slots[slot]? = some old) (hfree : g.table.isLocked key = false) :
    g.acquire slot key = (g.release slot).bind (·.acquire slot key) := by
  have hne : key ≠ old := by
    rintro rfl
    rw [(h.isLocked_iff key).mpr ⟨slot, hslot⟩] at hfree
    cases hfree
  have hslots : (g.slots.erase slot).insert slot key = g.slots.insert slot key := by
    refine Std.ExtTreeMap.ext_getElem? fun s => ?_
    rw [getElem?_slots_insert, getElem?_slots_insert, getElem?_slots_erase]
    split <;> rfl
  have hempty : (g.slots.erase slot)[slot]? = none := by
    rw [getElem?_slots_erase, if_pos rfl]
  cases htable : g.table.tryAcquire key with
  | none =>
    rw [LockTable.tryAcquire_eq_none_iff, hfree] at htable
    cases htable
  | some table =>
    simp only [acquire, release, hslot, htable, Option.map_some, Option.bind_some,
      LockTable.tryAcquire_release hne htable, hempty, hslots]

/-! ## Actions -/

/-- What is done with the guards. -/
inductive Action
  | acquire (slot key : String)
  | release (slot : String)
  | releaseAll
  | isLocked (key : String)

/-- What an action makes of the table and its guards.  An acquisition that is refused changes
nothing, and neither does a question. -/
def step (g : GuardSlots) : Action → GuardSlots
  | .acquire slot key => (g.acquire slot key).getD g
  | .release slot => (g.release slot).getD g
  | .releaseAll => g.releaseAll
  | .isLocked _ => g

/-- The guards after a number of actions. -/
def run (g : GuardSlots) (actions : List Action) : GuardSlots := actions.foldl step g

/-- The table when an action has taken what it takes, and has not dropped a guard yet. -/
def taken (g : GuardSlots) : Action → LockTable
  | .acquire _ key => (g.table.tryAcquire key).getD g.table
  | _ => g.table

/-- The keys of the guards that an action drops. -/
def dropped (g : GuardSlots) : Action → List String
  | .acquire slot key => if g.table.isLocked key then [] else g.slots[slot]?.toList
  | .release slot => g.slots[slot]?.toList
  | .releaseAll => g.keys
  | .isLocked _ => []

/-- When all guards are dropped, their keys are given back one after the other. -/
theorem table_releaseAll (g : GuardSlots) : g.releaseAll.table = g.table.releaseEach g.keys := by
  show g.slots.foldl (fun table _ key => table.release key) g.table = _
  rw [Std.ExtTreeMap.foldl_eq_foldl_toList, LockTable.releaseEach, keys, List.foldl_map]

/-- An acquisition is refused exactly if the key is held. -/
theorem acquire_eq_none_iff {slot key : String} :
    g.acquire slot key = none ↔ g.table.isLocked key = true := by
  rw [GuardSlots.acquire, Option.map_eq_none_iff, LockTable.tryAcquire_eq_none_iff]

/-- A guard put into an empty slot is the only one of its key. -/
theorem Sound.acquire_of_slot_empty (h : g.Sound) {slot key : String} {g' : GuardSlots}
    (hempty : g.slots[slot]? = none) (hacquire : g.acquire slot key = some g') : g'.Sound := by
  obtain ⟨table, htable, rfl⟩ := Option.map_eq_some_iff.mp hacquire
  simp only [hempty]
  exact h.take hempty htable

/-- A guard that takes the place of another, which is dropped, is the only one of its key. -/
theorem Sound.acquire (h : g.Sound) {slot key : String} {g' : GuardSlots}
    (hacquire : g.acquire slot key = some g') : g'.Sound := by
  cases hslot : g.slots[slot]? with
  | none => exact h.acquire_of_slot_empty hslot hacquire
  | some old =>
    have hfree : g.table.isLocked key = false := by
      rw [← Bool.not_eq_true, ← @acquire_eq_none_iff g slot key, hacquire]
      simp
    rw [h.acquire_of_slot_in_use hslot hfree, GuardSlots.release, hslot, Option.map_some,
      Option.bind_some] at hacquire
    refine (h.drop hslot).acquire_of_slot_empty ?_ hacquire
    rw [getElem?_slots_erase, if_pos rfl]

/-- No action makes a guard without its key, or a key without a guard. -/
theorem Sound.step (h : g.Sound) (a : Action) : (g.step a).Sound := by
  cases a with
  | acquire slot key =>
    show ((g.acquire slot key).getD g).Sound
    cases hacquire : g.acquire slot key with
    | none => exact h
    | some g' => exact h.acquire hacquire
  | release slot =>
    show ((g.release slot).getD g).Sound
    unfold GuardSlots.release
    cases hslot : g.slots[slot]? with
    | none => exact h
    | some key => exact h.drop hslot
  | releaseAll =>
    refine ⟨fun key => ?_, fun slot slot' key hkey => ?_⟩
    · show g.releaseAll.table.isLocked key = true ↔ _
      rw [table_releaseAll, LockTable.isLocked_releaseEach, mem_keys, h.isLocked_iff]
      simp [HasGuard, GuardSlots.step, releaseAll]
    · simp [GuardSlots.step, releaseAll] at hkey
  | isLocked key => exact h

/-- Any number of actions keeps each key with its one guard. -/
theorem Sound.run (h : g.Sound) (actions : List Action) : (g.run actions).Sound := by
  induction actions generalizing g with
  | nil => exact h
  | cons a actions ih => exact ih (h.step a)

/-- An empty table with no guards is in order. -/
theorem sound_empty : Sound {} := ⟨by simp [LockTable.isLocked, HasGuard], by simp⟩

/-! ## What is dropped -/

/-- What an action makes of the table is what it takes, less the keys of the guards that it drops.
-/
theorem table_step (g : GuardSlots) (a : Action) :
    (g.step a).table = (g.taken a).releaseEach (g.dropped a) := by
  cases a with
  | acquire slot key =>
    by_cases hlocked : g.table.isLocked key = true
    · have hrefused : g.table.tryAcquire key = none := LockTable.tryAcquire_eq_none_iff.mpr hlocked
      simp [GuardSlots.step, acquire_eq_none_iff.mpr hlocked, taken, dropped, hlocked, hrefused,
        LockTable.releaseEach]
    · obtain ⟨table, htable⟩ : ∃ table : LockTable, g.table.tryAcquire key = some table := by
        rwa [← LockTable.tryAcquire_eq_none_iff, ← ne_eq, Option.ne_none_iff_exists'] at hlocked
      cases hslot : g.slots[slot]? <;>
        simp [GuardSlots.step, GuardSlots.acquire, taken, dropped, hlocked, htable, hslot,
          LockTable.releaseEach]
  | release slot =>
    cases hslot : g.slots[slot]? <;>
      simp [GuardSlots.step, GuardSlots.release, taken, dropped, hslot, LockTable.releaseEach]
  | releaseAll => exact g.table_releaseAll
  | isLocked key => rfl

/-- A key that was held is held while the action takes what it takes. -/
theorem isLocked_taken {a : Action} {key : String} (h : g.table.isLocked key = true) :
    (g.taken a).isLocked key = true := by
  cases a with
  | acquire slot new =>
    show ((g.table.tryAcquire new).getD g.table).isLocked key = true
    cases htable : g.table.tryAcquire new with
    | none => exact h
    | some table =>
      show table.isLocked key = true
      rw [LockTable.isLocked_of_tryAcquire htable, h, Bool.or_true]
  | release _ | releaseAll | isLocked _ => exact h

/-- Only guards that there are can be dropped. -/
theorem hasGuard_of_mem_dropped {a : Action} {key : String} (h : key ∈ g.dropped a) :
    g.HasGuard key := by
  cases a with
  | acquire slot new =>
    simp only [dropped] at h
    split at h
    · cases h
    · exact ⟨slot, Option.mem_toList.mp h⟩
  | release slot => exact ⟨slot, Option.mem_toList.mp h⟩
  | releaseAll => exact mem_keys.mp h
  | isLocked _ => cases h

/-- An action gives no key back twice. -/
theorem Sound.nodup_dropped (h : g.Sound) (a : Action) : (g.dropped a).Nodup := by
  have hslot (slot : String) : g.slots[slot]?.toList.Nodup := by
    cases g.slots[slot]? <;> simp
  cases a with
  | acquire slot key =>
    simp only [dropped]
    split
    · exact List.nodup_nil
    · exact hslot slot
  | release slot => exact hslot slot
  | releaseAll => exact h.nodup_keys
  | isLocked _ => exact List.nodup_nil

/-- In whatever order the guards are dropped, each has its key until then. -/
theorem Sound.heldInTurn (h : g.Sound) {a : Action} {keys : List String}
    (hkeys : keys.Perm (g.dropped a)) : (g.taken a).HeldInTurn keys := by
  refine LockTable.heldInTurn_iff.mpr ⟨hkeys.nodup_iff.mpr (h.nodup_dropped a), fun key hkey => ?_⟩
  have hguard : g.HasGuard key := hasGuard_of_mem_dropped (hkeys.mem_iff.mp hkey)
  exact isLocked_taken ((h.isLocked_iff key).mpr hguard)

/-- The guards that an action drops are those that are not there any more. -/
theorem Sound.mem_dropped_iff (h : g.Sound) {a : Action} {key : String} :
    key ∈ g.dropped a ↔ g.HasGuard key ∧ ¬ (g.step a).HasGuard key := by
  rw [← (h.step a).isLocked_iff, table_step, LockTable.isLocked_releaseEach]
  constructor
  · exact fun hmem => ⟨hasGuard_of_mem_dropped hmem, fun hstill => hstill.2 hmem⟩
  · rintro ⟨hguard, hgone⟩
    by_contra hkept
    exact hgone ⟨isLocked_taken ((h.isLocked_iff key).mpr hguard), hkept⟩

/-- Whatever has been taken, given back and asked, one action after the other, the keys that are
held are those of the guards, and no two guards have the same key.  The table says that it holds as
many keys as there are guards, and none exactly if there are none.  A key can be taken exactly if no
guard has it.  An acquisition of a key that a guard has changes nothing, be it the guard of the slot
or another, and any other puts its guard into the slot.

With the next action, whatever it is, those guards are dropped that are not there afterwards.  In
whatever order this is done, the key of each is held when its turn comes, and what remains in the
table is what the action has taken, without their keys. -/
theorem held_keys_are_guarded (actions : List Action) :
    let g := ({} : GuardSlots).run actions
    (∀ key : String, g.table.isLocked key = true ↔ g.HasGuard key) ∧
    (∀ slot slot' key : String,
      g.slots[slot]? = some key → g.slots[slot']? = some key → slot = slot') ∧
    g.table.size = g.slots.size ∧ (g.table.isEmpty = true ↔ g.slots.isEmpty = true) ∧
    (∀ key : String, (g.table.tryAcquire key).isSome = true ↔ ¬ g.HasGuard key) ∧
    (∀ slot key : String,
      (g.HasGuard key → g.acquire slot key = none ∧ g.step (.acquire slot key) = g) ∧
      (¬ g.HasGuard key → (g.acquire slot key).isSome = true ∧
        (g.step (.acquire slot key)).slots = g.slots.insert slot key)) ∧
    ∀ a : Action, (∀ key : String, key ∈ g.dropped a ↔ g.HasGuard key ∧ ¬ (g.step a).HasGuard key) ∧
      ∀ keys : List String, keys.Perm (g.dropped a) →
        (g.taken a).HeldInTurn keys ∧ (g.step a).table = (g.taken a).releaseEach keys := by
  intro g
  have h : g.Sound := sound_empty.run actions
  have hrefused (slot key : String) : g.acquire slot key = none ↔ g.HasGuard key := by
    rw [acquire_eq_none_iff, h.isLocked_iff]
  refine ⟨h.isLocked_iff, h.slot_unique, h.size_table, ?_, fun key => ?_, fun slot key => ⟨?_, ?_⟩,
    fun a => ⟨fun key => h.mem_dropped_iff, fun keys hkeys => ⟨h.heldInTurn hkeys, ?_⟩⟩⟩
  · have hsize : g.table.held.size = g.slots.size := h.size_table
    rw [LockTable.isEmpty, Std.ExtTreeSet.isEmpty_eq_size_beq_zero, hsize,
      Std.ExtTreeMap.isEmpty_eq_size_beq_zero]
  · rw [Option.isSome_iff_ne_none, ne_eq, LockTable.tryAcquire_eq_none_iff, h.isLocked_iff]
  · intro hguard
    have hnone := (hrefused slot key).mpr hguard
    exact ⟨hnone, congrArg (·.getD g) hnone⟩
  · intro hnone
    rw [← hrefused slot key, ← ne_eq, Option.ne_none_iff_exists'] at hnone
    obtain ⟨g', hacquire⟩ := hnone
    refine ⟨Option.isSome_of_eq_some hacquire, ?_⟩
    obtain ⟨table, -, rfl⟩ := Option.map_eq_some_iff.mp hacquire
    exact congrArg (fun next => (next.getD g).slots) hacquire
  · rw [table_step, LockTable.releaseEach_perm hkeys]

/-- A second acquisition of `vol1` leaves its guard where it is, and one of `vol2` puts another
guard in its place. -/
example : (({} : GuardSlots).run
      [.acquire "a" "vol1", .acquire "a" "vol1", .acquire "b" "vol1"]).slots.toList =
        [("a", "vol1")] ∧
    (({} : GuardSlots).run [.acquire "a" "vol1", .acquire "a" "vol2"]).slots.toList =
      [("a", "vol2")] := by decide

end GuardSlots

end VolumeBroker
