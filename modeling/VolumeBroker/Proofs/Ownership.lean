import VolumeBroker.Proofs.Runs

/-!
# Every volume owns one device

No volume ever owns two devices of a catalog, whatever other processes write to the store.  A
request looks for an owner in the catalog, and a snapshot is checked before it is laid over the
catalog; but a snapshot says nothing of the devices it does not name, so it could join a binding of
the catalog to one of its own.  It cannot, because a device is bound only after its record has been
written: what the catalog holds as bound, the store names, and so does every snapshot that is read
from it.
-/

set_option autoImplicit false

namespace VolumeBroker

namespace Catalog

/-- A valid snapshot that names every bound device leaves no volume with two devices. -/
theorem Exclusive.overlay {catalog : Catalog} {s : Snapshot} (hvalid : s.Valid)
    (hnamed : ∀ nqn volume : String, catalog.allocation? nqn = some (.owned volume) →
      s[nqn]?.isSome) : (catalog.overlay s).Exclusive := by
  have hrecord (k volume : String)
      (h : (catalog.overlay s).allocation? k = some (.owned volume)) :
      s[k]? = some (.owned volume) := by
    rw [allocation?_overlay] at h
    cases hk : s[k]? with
    | some a => simpa [hk] using h
    | none =>
      have hbound : catalog.allocation? k = some (.owned volume) := by simpa [hk] using h
      simpa [hk] using hnamed k volume hbound
  intro m n volume hm hn
  exact hvalid.exclusive m n volume (hrecord m volume hm) (hrecord n volume hn)

/-- A device that is bound to a volume without devices is the only one of that volume. -/
theorem Exclusive.assign_owned {catalog : Catalog} (h : catalog.Exclusive) {volume : String}
    (howned : catalog.ownedBy? volume = none) (nqn : String) :
    (catalog.assign nqn (.owned volume)).Exclusive := by
  have hnone := ownedBy?_eq_none_iff.mp howned
  intro m n v hm hn
  rcases allocation?_of_assign_owned hm with ⟨hmk, hv⟩ | hmold
  · rcases allocation?_of_assign_owned hn with ⟨hnk, -⟩ | hnold
    · rw [hmk, hnk]
    · exact absurd (hv ▸ hnold) (hnone n)
  · rcases allocation?_of_assign_owned hn with ⟨-, hv⟩ | hnold
    · exact absurd (hv ▸ hmold) (hnone m)
    · exact h m n v hmold hnold

end Catalog

namespace System

/-- What holds of a broker in every run. -/
structure Sound (s : System) : Prop where
  /-- Every device stands under its own name. -/
  named : s.broker.catalog.Named
  /-- No volume owns two devices. -/
  exclusive : s.broker.catalog.Exclusive
  /-- The store names every device that is bound. -/
  held : ∀ nqn volume : String, s.broker.catalog.allocation? nqn = some (.owned volume) →
    s.broker.store.Names nqn

/-- A process that has just begun has an empty catalog, in which nothing is shared. -/
theorem sound_start (store : Store) : (start store).Sound where
  named := by
    intro nqn d h
    simp [start, Broker.start] at h
  exclusive := by
    intro m n volume hm
    simp [start, Broker.start] at hm
  held := by
    intro nqn volume h
    simp [start, Broker.start] at h

/-- No event gives two devices one owner. -/
theorem Sound.step {s : System} (h : s.Sound) (e : Event) : (s.step e).Sound := by
  have hnamed := named_step h.named e
  cases s.step_changes e with
  | quiet hcatalog hstore _ =>
    refine ⟨hnamed, hcatalog ▸ h.exclusive, ?_⟩
    rw [hcatalog, hstore]
    exact h.held
  | @restored _ _ snapshot hread hvalid hcatalog hstore =>
    have hrecord := Store.getElem?_of_load_eq_ok hread
    -- The snapshot was read from a store that names every device that is bound.
    have hcovers (nqn volume : String)
        (hbound : s.broker.catalog.allocation? nqn = some (.owned volume)) :
        snapshot[nqn]?.isSome := by
      rw [hrecord]
      exact Store.record?_isSome_of_load_eq_ok hread (h.held nqn volume hbound)
    refine ⟨hnamed, ?_, ?_⟩
    · rw [hcatalog]
      exact Catalog.Exclusive.overlay hvalid hcovers
    · rw [hcatalog, hstore]
      intro nqn volume hbound
      rw [Catalog.allocation?_overlay, hrecord] at hbound
      cases hr : s.broker.store.record? nqn with
      | some a => exact Store.names_of_record? hr
      | none => exact h.held nqn volume (by simpa [hr] using hbound)
  | merged hcatalog hstore _ =>
    refine ⟨hnamed, ?_, ?_⟩
    · rw [hcatalog]
      intro m n volume hm hn
      exact h.exclusive m n volume (Catalog.allocation?_of_merge_owned hm)
        (Catalog.allocation?_of_merge_owned hn)
    · rw [hcatalog, hstore]
      intro nqn volume hbound
      exact h.held nqn volume (Catalog.allocation?_of_merge_owned hbound)
  | bound _ howned _ hcatalog hstore _ =>
    refine ⟨hnamed, ?_, ?_⟩
    · rw [hcatalog]
      exact h.exclusive.assign_owned howned _
    · rw [hcatalog, hstore]
      intro nqn volume hbound
      rw [Store.names_put]
      rcases Catalog.allocation?_of_assign_owned hbound with ⟨rfl, -⟩ | hbefore
      · exact .inl rfl
      · exact .inr (h.held nqn volume hbefore)
  | freed _ _ hcatalog hstore _ =>
    refine ⟨hnamed, ?_, ?_⟩
    · rw [hcatalog]
      intro m n volume hm hn
      exact h.exclusive m n volume (Catalog.allocation?_of_assign_free hm)
        (Catalog.allocation?_of_assign_free hn)
    · rw [hcatalog, hstore]
      intro nqn volume hbound
      rw [Store.names_put]
      exact .inr (h.held nqn volume (Catalog.allocation?_of_assign_free hbound))
  | written _ hcatalog hstore _ =>
    refine ⟨hnamed, hcatalog ▸ h.exclusive, ?_⟩
    rw [hcatalog]
    intro nqn volume hbound
    exact hstore nqn (h.held nqn volume hbound)
  | restarted hstart =>
    rw [hstart]
    exact sound_start s.broker.store

/-- In no history do two devices come to have one owner. -/
theorem sound_run (store : Store) (events : List Event) : ((start store).run events).Sound :=
  run_induction (fun _ => True) (fun _ e _ h => h.step e) (fun _ _ => trivial)
    (sound_start store)

/-- In every run, with any failures and any writes of other processes, no two devices of the catalog
have the same owner and every device stands under its own name. -/
theorem catalog_owners_distinct (store : Store) (events : List Event) :
    (∀ (nqn : String) (d : Device),
      ((start store).run events).broker.catalog[nqn]? = some d → d.nqn = nqn) ∧
    ∀ (m n volume : String) (d e : Device),
      ((start store).run events).broker.catalog[m]? = some d →
      ((start store).run events).broker.catalog[n]? = some e →
      d.owner? = some volume → e.owner? = some volume → m = n := by
  have h := sound_run store events
  refine ⟨h.named, fun m n volume d e hd he hvd hve => ?_⟩
  have hm : ((start store).run events).broker.catalog.allocation? m = some (.owned volume) := by
    simp [Catalog.allocation?, hd, Catalog.owner?_eq_some_iff.mp hvd]
  have hn : ((start store).run events).broker.catalog.allocation? n = some (.owned volume) := by
    simp [Catalog.allocation?, he, Catalog.owner?_eq_some_iff.mp hve]
  exact h.exclusive m n volume hm hn

/-- A device is bound to `vol1`, another process writes a second device of `vol1`, and a load is
begun, which the snapshot that it reads makes fail. -/
def boundThenWritten : List Event :=
  [.merge [⟨"nqn-a", .tcp, ["10.0.0.1:4420"]⟩], .allocate {} "vol1",
    .write ((∅ : Snapshot).insert "nqn-b" (.owned "vol1")), .enterSync, .load 0 {}]

/-- A foreign hand binds a second device to the volume in the store; in the catalog its one device
stays the only one. -/
theorem catalog_owners_distinct_after_write :
    ((start (.inMemory ∅)).run boundThenWritten).broker.store.record? "nqn-b" =
        some (.owned "vol1") ∧
      ((start (.inMemory ∅)).run boundThenWritten).broker.catalog["nqn-a"]?.bind (·.owner?) =
        some "vol1" ∧
      ∀ (nqn : String) (d : Device),
        ((start (.inMemory ∅)).run boundThenWritten).broker.catalog[nqn]? = some d →
          d.owner? = some "vol1" → "nqn-a" = nqn := by
  have howned : ((start (.inMemory ∅)).run boundThenWritten).broker.catalog["nqn-a"]?.bind
      (·.owner?) = some "vol1" := by decide
  obtain ⟨bound, hbound, howner⟩ := Option.bind_eq_some_iff.mp howned
  refine ⟨by decide, howned, fun nqn d hd hdowner => ?_⟩
  exact (catalog_owners_distinct (.inMemory ∅) boundThenWritten).2 "nqn-a" nqn "vol1" bound d
    hbound hd howner hdowner

end System

end VolumeBroker
