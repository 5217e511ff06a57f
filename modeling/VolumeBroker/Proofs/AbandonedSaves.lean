import Mathlib.Data.List.Induction
import VolumeBroker.Proofs.Durability
import VolumeBroker.Proofs.Ownership

/-!
# Saves that nobody waits for

A call that asks for a device or gives one back holds the catalog while its record is written, and
the catalog takes the change when the write is done.  If the caller goes away in between, the call
is over: the catalog stays as it was and is free again, and so is the lock of the volume.  But a
database goes on with a write that it has begun.  Its record changes without the catalog, at some
later moment, and perhaps after others have written the same record.

`Abandonment` is a system with the writes that go on like this.  To the system such a write is one
of another process (`Abandonment.system_run`), so what holds in spite of those holds here as well,
and no volume ever owns two devices.  What does not hold any more is that the store stands behind
the catalog: a device whose return was left alone is bound in the catalog and free in the store.
`Abandonment.traced_of_not_agrees` says that there is no other way to this, that it concerns the
device of that write alone, and that it ends when a call that is waited for writes the device, when
the snapshot is loaded or when the process ends.
-/

set_option autoImplicit false

namespace VolumeBroker

/-- The record that a decision wants to have written. -/
def Decision.record? {α : Type} : Decision α → Option (String × Allocation)
  | .settled _ => none
  | .commit nqn a _ => some (nqn, a)

namespace System

/-! ## What brings the catalog and the store together -/

/-- The event leaves the catalog and the store in agreement on the device, whatever they said of it
before. -/
inductive Settles (s : System) (nqn : String) : Event → Prop
  | restarted : Settles s nqn .restart
  | loaded {number : Nat} {faults : Faults} {snapshot : Snapshot}
      (hturn : s.awaitsTurn number = true)
      (hread : s.broker.readSnapshot faults = .ok snapshot) : Settles s nqn (.load number faults)
  /-- The device is bound by a call that is waited for. -/
  | bound {faults : Faults} {volume : String} {answer : Option Device}
      (hcommit : s.broker.catalog.allocate volume = .commit nqn (.owned volume) answer)
      (hsave : faults.save = none) : Settles s nqn (.allocate faults volume)
  /-- The device is freed by a call that is waited for. -/
  | freed {faults : Faults} {answer : Bool}
      (hcommit : s.broker.catalog.release nqn = .commit nqn .free answer)
      (hsave : faults.save = none) : Settles s nqn (.release faults nqn)

/-- When a call has settled a device, the store and the catalog agree about it. -/
theorem agrees_of_settles {s : System} {nqn : String} {e : Event} (hsound : s.Sound)
    (h : s.Settles nqn e) : (s.step e).Agrees nqn := by
  have hwritten {α : Type} {decision : Decision α} {faults : Faults} {a : Allocation} {answer : α}
      (hcommit : decision = .commit nqn a answer) (hsave : faults.save = none) :
      (s.broker.carryOut faults decision).2 =
        { s.broker with
          store := s.broker.store.put nqn a, catalog := s.broker.catalog.assign nqn a } := by
    rw [hcommit, Broker.carryOut, hsave]
  cases h with
  | restarted => exact agrees_start s.broker.store nqn
  | @loaded number faults snapshot hturn hread =>
    obtain ⟨-, hload, -⟩ := Broker.readSnapshot_eq_ok_iff.mp hread
    have hbroker : (s.broker.loadSnapshot faults).2 =
        { s.broker with catalog := s.broker.catalog.overlay snapshot } := by
      rw [Broker.loadSnapshot, hread]
    rw [step_load_of_awaitsTurn hturn]
    exact agrees_of_overlay (hsound.held nqn) hload (congrArg (·.catalog) hbroker)
      (congrArg (·.store) hbroker)
  | @bound faults volume answer hcommit hsave =>
    obtain ⟨-, d, hfirst, rfl, -, -⟩ := Catalog.allocate_eq_commit_iff.mp hcommit
    have hfree := Catalog.allocation?_of_firstAllocatable? hsound.named hfirst
    have hbroker := (s.broker.allocate_snd faults volume).trans (hwritten hcommit hsave)
    exact agrees_of_assign (by rw [hfree, Option.isSome_some]) (congrArg (·.catalog) hbroker)
      (congrArg (·.store) hbroker)
  | freed hcommit hsave =>
    obtain ⟨⟨volume, howned⟩, -, -, -⟩ := Catalog.release_eq_commit_iff.mp hcommit
    have hbroker := hwritten hcommit hsave
    exact agrees_of_assign (by rw [howned, Option.isSome_some]) (congrArg (·.catalog) hbroker)
      (congrArg (·.store) hbroker)

end System

/-! ## Calls that are left -/

/-- A system with the writes that nobody waits for. -/
structure Abandonment where
  system : System
  /-- The records that are being written, in the order in which the callers went away. -/
  writes : List (String × Allocation) := []

namespace Abandonment

/-- What can happen where callers may go away. -/
inductive Event
  | usual (e : System.Event)
  /-- Whoever asks for a device goes away while the record is written. -/
  | leaveAllocate (volume : String)
  /-- Whoever gives a device back goes away while the record is written. -/
  | leaveRelease (nqn : String)
  /-- A write that nobody waits for is done. -/
  | land (i : Nat)
  /-- A write that nobody waits for fails. -/
  | fail (i : Nat)

/-- The store is written to by somebody else. -/
def Event.isForeign : Event → Bool
  | .usual e => e.isForeign
  | _ => false

/-- A new broker on a store. -/
def start (store : Store) : Abandonment := { system := .start store }

/-- The write that goes on when somebody goes away. -/
def left? (t : Abandonment) : Event → Option (String × Allocation)
  | .leaveAllocate volume => (t.system.broker.catalog.allocate volume).record?
  | .leaveRelease nqn => (t.system.broker.catalog.release nqn).record?
  | _ => none

/-- The write that is done without a caller. -/
def landed? (t : Abandonment) : Event → Option (String × Allocation)
  | .land i => t.writes[i]?
  | _ => none

/-- What an event makes of a system and its writes.  Those of a process end with it. -/
def step (t : Abandonment) : Event → Abandonment
  | .usual .restart => { system := t.system.step .restart }
  | .usual e => { t with system := t.system.step e }
  | .leaveAllocate volume =>
    { t with writes := t.writes ++ (t.left? (.leaveAllocate volume)).toList }
  | .leaveRelease nqn => { t with writes := t.writes ++ (t.left? (.leaveRelease nqn)).toList }
  | .land i =>
    match t.writes[i]? with
    | none => t
    | some (nqn, a) =>
      { system := { t.system with broker.store := t.system.broker.store.put nqn a }
        writes := t.writes.eraseIdx i }
  | .fail i => { t with writes := t.writes.eraseIdx i }

/-- What has become of the system after a number of events. -/
def run (t : Abandonment) (events : List Event) : Abandonment := events.foldl step t

/-- The last of the events can be taken off a history. -/
theorem run_concat (t : Abandonment) (events : List Event) (e : Event) :
    t.run (events ++ [e]) = (t.run events).step e := List.foldl_append ..

/-! ## The run of the system -/

/-- What an event is to the system: a write without a caller is like one of another process. -/
def event? (t : Abandonment) : Event → Option System.Event
  | .usual e => some e
  | .land i => t.writes[i]?.map fun w => .write ((∅ : Snapshot).insert w.1 w.2)
  | _ => none

/-- The events of the system that a run consists of. -/
def trace (t : Abandonment) : List Event → List System.Event
  | [] => []
  | e :: events => (t.event? e).toList ++ (t.step e).trace events

/-- For the system, an event is what it is without anybody who goes away, or nothing at all. -/
theorem system_step (t : Abandonment) (e : Event) :
    (t.step e).system = t.system.run (t.event? e).toList := by
  cases e with
  | usual e => cases e <;> rfl
  | leaveAllocate volume => rfl
  | leaveRelease nqn => rfl
  | land i =>
    simp only [step, event?]
    cases t.writes[i]? <;> rfl
  | fail i => rfl

/-- A run with calls that are left is a run of the system in which other processes write. -/
theorem system_run (t : Abandonment) (events : List Event) :
    (t.run events).system = t.system.run (t.trace events) := by
  induction events generalizing t with
  | nil => rfl
  | cons e events ih =>
    have hfirst := t.system_step e
    calc
      ((t.step e).run events).system = (t.step e).system.run ((t.step e).trace events) := ih _
      _ = (t.system.run (t.event? e).toList).run ((t.step e).trace events) := by rw [hfirst]
      _ = t.system.run (t.trace (e :: events)) := (System.run_append ..).symm

/-- Whoever goes away, no volume owns two devices of the catalog. -/
theorem sound_run (store : Store) (events : List Event) :
    ((start store).run events).system.Sound := by
  rw [system_run]
  exact System.sound_run store _

/-! ## Where a disagreement comes from -/

variable {store : Store} {t : Abandonment} {events : List Event} {nqn : String}

/-- An event keeps the agreement on a device, unless it is a write of that device without a caller.
-/
theorem agrees_step (hsound : t.system.Sound) (h : t.system.Agrees nqn) {e : Event}
    (hown : e.isForeign = false) :
    (t.step e).system.Agrees nqn ∨ ∃ a : Allocation, t.landed? e = some (nqn, a) := by
  cases e with
  | usual e =>
    left
    have hstep : (t.step (.usual e)).system = t.system.step e := t.system_step (.usual e)
    rw [hstep]
    exact h.step hsound.named hown
  | leaveAllocate volume => exact .inl h
  | leaveRelease nqn => exact .inl h
  | fail i => exact .inl h
  | land i =>
    simp only [step, landed?]
    cases hw : t.writes[i]? with
    | none => exact .inl h
    | some w =>
      obtain ⟨k, a⟩ := w
      by_cases hk : k = nqn
      · exact .inr ⟨a, by rw [hk]⟩
      · left
        refine h.congr rfl ?_ (fun hnames => ?_) id
        · exact (Store.record?_put _ _ _ _).trans (if_neg hk)
        · exact ((Store.names_put _ _ _ _).mp hnames).resolve_left hk

/-- If the catalog and the store disagree on a device, a write of it without a caller has been done,
and nothing that settles the device has happened since. -/
theorem exists_landed_of_not_agrees (hown : ∀ e ∈ events, e.isForeign = false)
    (h : ¬ ((start store).run events).system.Agrees nqn) :
    ∃ (before after : List Event) (landing : Event) (a : Allocation),
      events = before ++ landing :: after ∧
      ((start store).run before).landed? landing = some (nqn, a) ∧
      ∀ (between rest : List Event) (e : System.Event), after = between ++ .usual e :: rest →
        ¬ ((start store).run (before ++ landing :: between)).system.Settles nqn e := by
  induction events using List.reverseRecOn with
  | nil => exact absurd (System.agrees_start store nqn) h
  | append_singleton events last ih =>
    have hownInit : ∀ e ∈ events, e.isForeign = false :=
      fun e he => hown e (List.mem_append_left _ he)
    have hownLast : last.isForeign = false :=
      hown last (List.mem_append_right _ (List.mem_singleton_self _))
    have hsound := sound_run store events
    rw [run_concat] at h
    by_cases hagrees : ((start store).run events).system.Agrees nqn
    · rcases agrees_step hsound hagrees hownLast with hafter | ⟨a, hlanded⟩
      · exact absurd hafter h
      · refine ⟨events, [], last, a, rfl, hlanded, fun between rest e hsplit => ?_⟩
        simp at hsplit
    · obtain ⟨before, after, landing, a, rfl, hlanded, hunsettled⟩ := ih hownInit hagrees
      refine ⟨before, after ++ [last], landing, a, by simp, hlanded,
        fun between rest e hsplit => ?_⟩
      rcases List.eq_nil_or_concat rest with rfl | ⟨rest, x, rfl⟩
      · -- What settles the device would be the last event of all.
        obtain ⟨rfl, hlast⟩ := List.append_inj' hsplit rfl
        obtain rfl : last = .usual e := by simpa using hlast
        intro hsettles
        apply h
        rw [system_step]
        exact System.agrees_of_settles hsound hsettles
      · rw [List.concat_eq_append, ← List.cons_append, ← List.append_assoc] at hsplit
        exact hunsettled between rest e (List.append_inj' hsplit rfl).1

/-- A write that goes on has been going on before, or the event has left it behind. -/
theorem mem_writes_step {w : String × Allocation} {e : Event} (h : w ∈ (t.step e).writes) :
    w ∈ t.writes ∨ t.left? e = some w := by
  cases e with
  | usual e =>
    left
    cases e with
    | restart => cases h
    | _ => exact h
  | leaveAllocate volume => simpa [step] using h
  | leaveRelease nqn => simpa [step] using h
  | land i =>
    left
    simp only [step] at h
    split at h
    · exact h
    · exact List.mem_of_mem_eraseIdx h
  | fail i => exact .inl (List.mem_of_mem_eraseIdx h)

/-- Every write without a caller is one that somebody has gone away from. -/
theorem exists_left_of_mem_writes {w : String × Allocation}
    (h : w ∈ ((start store).run events).writes) :
    ∃ (before after : List Event) (e : Event), events = before ++ e :: after ∧
      ((start store).run before).left? e = some w := by
  induction events using List.reverseRecOn with
  | nil => cases h
  | append_singleton events last ih =>
    rw [run_concat] at h
    rcases mem_writes_step h with hold | hleft
    · obtain ⟨before, after, e, rfl, he⟩ := ih hold
      exact ⟨before, after ++ [last], e, by simp, he⟩
    · exact ⟨events, [], last, rfl, hleft⟩

/-- In every run in which nobody else writes to the store, the catalog and the store disagree on a
device only if a caller has gone away from a write of that device, the write has been done later,
and since then no call that was waited for has written the device, no load has succeeded and the
process has not ended. -/
theorem traced_of_not_agrees (store : Store) (events : List Event)
    (hown : ∀ e ∈ events, e.isForeign = false) (nqn : String)
    (h : ¬ ((start store).run events).system.Agrees nqn) :
    ∃ (first second third : List Event) (leaving landing : Event) (a : Allocation),
      events = (first ++ leaving :: second) ++ landing :: third ∧
      ((start store).run first).left? leaving = some (nqn, a) ∧
      ((start store).run (first ++ leaving :: second)).landed? landing = some (nqn, a) ∧
      ∀ (between rest : List Event) (e : System.Event), third = between ++ .usual e :: rest →
        ¬ ((start store).run
          ((first ++ leaving :: second) ++ landing :: between)).system.Settles nqn e := by
  obtain ⟨before, third, landing, a, rfl, hlanded, hunsettled⟩ :=
    exists_landed_of_not_agrees hown h
  have hmem : (nqn, a) ∈ ((start store).run before).writes := by
    cases landing with
    | land i => exact List.mem_of_getElem? hlanded
    | _ => cases hlanded
  obtain ⟨first, second, leaving, rfl, hleft⟩ := exists_left_of_mem_writes hmem
  exact ⟨first, second, third, leaving, landing, a, rfl, hleft, hlanded, hunsettled⟩

/-- The return of a device is left alone and is written all the same: the catalog holds it as bound,
with nothing behind it. -/
example :
    let t := (start (.inDatabase ((∅ : Snapshot).insert "nqn-a" (.owned "vol1")))).run
      [.usual .enterSync, .usual (.load 0 {}), .usual (.finishLoad 0), .leaveRelease "nqn-a",
        .land 0]
    t.system.broker.sync.isSynced = true ∧
      t.system.broker.catalog.allocation? "nqn-a" = some (.owned "vol1") ∧
      t.system.broker.store.record? "nqn-a" = some .free := by
  decide +kernel

end Abandonment

end VolumeBroker
