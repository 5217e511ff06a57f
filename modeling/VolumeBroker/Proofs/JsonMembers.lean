import Mathlib.Data.List.Forall2
import VolumeBroker.Proofs.JsonValues

/-!
# Members of objects

The members of an object have no order, and two of them may bear the same name.  `HasOnce` and
`Lacks` say what an object has under a name, with as many other members as there may be, and
`member?_eq_some_iff` and `member?_eq_none_iff` say that this is what a lookup finds.  A name is
what the key means, however it is written.
-/

set_option autoImplicit false

namespace VolumeBroker.Json

/-- The key of the member means the name. -/
def IsNamed (name : String) (m : Literal × Value) : Prop := m.1.Means name.toList

/-- No member bears the name. -/
def Lacks (name : String) (members : List (Literal × Value)) : Prop :=
  ∀ m ∈ members, ¬ IsNamed name m

/-- One member bears the name, and no more than one; it has the value. -/
def HasOnce (name : String) (v : Value) (members : List (Literal × Value)) : Prop :=
  ∃ m others, members.Perm (m :: others) ∧ IsNamed name m ∧ m.2 = v ∧ Lacks name others

/-- One member bears the name, and no more than one; it is a string that means the text. -/
def GivenOnce (name text : String) (members : List (Literal × Value)) : Prop :=
  ∃ v, HasOnce name v members ∧ v.IsString text

/-- The keys of all members mean something. -/
def AreNamed (members : List (Literal × Value)) : Prop := ∀ m ∈ members, ∃ name, IsNamed name m

section

variable {name text : String} {m : Literal × Value} {v : Value}
variable {members members' : List (Literal × Value)}

/-- A member bears the name that its key is decoded to. -/
theorem isNamed_iff : IsNamed name m ↔ m.1.decode? = some name :=
  Literal.decode?_eq_some_iff.symm

/-- Whether a member bears a name is found by decoding its key. -/
instance : Decidable (IsNamed name m) := decidable_of_iff _ isNamed_iff.symm

/-- No member bears two names. -/
theorem isNamed_unique {name' : String} (h : IsNamed name m) (h' : IsNamed name' m) :
    name = name' := by
  rw [isNamed_iff] at h h'
  exact Option.some.inj (h.symm.trans h')

/-! ## The members of a name -/

/-- A name is missing exactly if no member is found for it. -/
theorem lacks_iff : Lacks name members ↔ members.filter (IsNamed name ·) = [] := by
  simp [Lacks]

/-- A name is borne once exactly if one member is found for it. -/
theorem hasOnce_iff :
    HasOnce name v members ↔ ∃ m, members.filter (IsNamed name ·) = [m] ∧ m.2 = v := by
  constructor
  · rintro ⟨m, others, hperm, hm, hv, hothers⟩
    have hfilter := hperm.filter (IsNamed name ·)
    rw [List.filter_cons_of_pos (by simpa using hm), lacks_iff.mp hothers] at hfilter
    exact ⟨m, List.perm_singleton.mp hfilter, hv⟩
  · rintro ⟨m, hfilter, hv⟩
    have hm : m ∈ members.filter (IsNamed name ·) := by
      rw [hfilter]
      exact List.mem_singleton_self m
    have hperm := List.filter_append_perm (fun m => decide (IsNamed name m)) members
    rw [hfilter] at hperm
    refine ⟨m, _, hperm.symm, by simpa using (List.mem_filter.mp hm).2, hv, ?_⟩
    intro o ho
    simpa using (List.mem_filter.mp ho).2

/-- The member that is found for the name is the one. -/
theorem HasOnce.eq_of_mem (h : HasOnce name v members) (hmem : m ∈ members) (hm : IsNamed name m) :
    m.2 = v := by
  obtain ⟨n, others, hperm, -, hv, hothers⟩ := h
  rcases List.mem_cons.mp (hperm.mem_iff.mp hmem) with rfl | hother
  · exact hv
  · exact absurd hm (hothers m hother)

/-- A name that two members bear is not borne once. -/
theorem not_hasOnce_of_twice {m' : Literal × Value} {others : List (Literal × Value)}
    (hperm : members.Perm (m :: m' :: others)) (hm : IsNamed name m) (hm' : IsNamed name m') :
    ¬ HasOnce name v members := by
  intro h
  obtain ⟨n, hfilter, -⟩ := hasOnce_iff.mp h
  have htwice := hperm.filter (IsNamed name ·)
  rw [hfilter, List.filter_cons_of_pos (by simpa using hm),
    List.filter_cons_of_pos (by simpa using hm')] at htwice
  have hlength := htwice.length_eq
  simp at hlength

/-- The order of the members does not matter to what is borne once. -/
theorem HasOnce.perm (h : HasOnce name v members) (hperm : members.Perm members') :
    HasOnce name v members' := by
  obtain ⟨m, others, hmembers, hm⟩ := h
  exact ⟨m, others, hperm.symm.trans hmembers, hm⟩

/-- The order of the members does not matter to what is missing. -/
theorem Lacks.perm (h : Lacks name members) (hperm : members.Perm members') :
    Lacks name members' := fun m hm => h m (hperm.mem_iff.mpr hm)

/-- Members of other names do not matter. -/
theorem hasOnce_append {known others : List (Literal × Value)} (hothers : Lacks name others) :
    HasOnce name v (known ++ others) ↔ HasOnce name v known := by
  rw [hasOnce_iff, hasOnce_iff, List.filter_append, lacks_iff.mp hothers, List.append_nil]

/-- A text is given once exactly if one member is found for the name and is a string of this text.
-/
theorem givenOnce_iff : GivenOnce name text members ↔
    (members.filter (IsNamed name ·)).map (fun m => m.2.text?) = [some text] := by
  constructor
  · rintro ⟨v, hv, htext⟩
    obtain ⟨m, hm, rfl⟩ := hasOnce_iff.mp hv
    rw [hm, List.map_singleton, Value.text?_eq_some_iff.mpr htext]
  · intro h
    obtain ⟨m, hm, htext⟩ := List.map_eq_singleton_iff.mp h
    exact ⟨m.2, hasOnce_iff.mpr ⟨m, hm, rfl⟩, Value.text?_eq_some_iff.mp htext⟩

/-- Whether a text is given once is found by going through the members. -/
instance : Decidable (GivenOnce name text members) := decidable_of_iff _ givenOnce_iff.symm

/-! ## Lookups -/

/-- The keys can be decoded exactly if all members bear names. -/
theorem exists_keyed?_iff : (∃ named, keyed? members = some named) ↔ AreNamed members := by
  induction members with
  | nil => simp [keyed?, AreNamed]
  | cons m members ih =>
    have hcons : AreNamed (m :: members) ↔ (∃ name, IsNamed name m) ∧ AreNamed members :=
      List.forall_mem_cons
    have hkeyed : keyed? (m :: members) = m.1.decode?.bind fun name =>
        (keyed? members).map ((name, m.2) :: ·) := by
      cases hname : m.1.decode? <;> cases hrest : keyed? members <;>
        simp_all [keyed?]
    rw [hcons, ← ih, hkeyed]
    simp [isNamed_iff, Option.bind_eq_some_iff]

variable {named : List (String × Value)}

/-- After the keys have been decoded, the same members are found for a name. -/
theorem filter_keyed? (h : keyed? members = some named) :
    named.filter (·.1 == name) = (members.filter (IsNamed name ·)).map fun m => (name, m.2) := by
  induction members generalizing named with
  | nil =>
    obtain rfl := Option.some.inj h
    rfl
  | cons m members ih =>
    obtain ⟨n, hn, rest, hrest, rfl⟩ : ∃ n, m.1.decode? = some n ∧
        ∃ rest, keyed? members = some rest ∧ (n, m.2) :: rest = named := by
      simpa [keyed?, List.mapM_cons, Option.bind_eq_some_iff] using h
    by_cases hname : n = name
    · subst hname
      rw [List.filter_cons_of_pos (by simp), ih hrest,
        List.filter_cons_of_pos (by simpa using isNamed_iff.mpr hn), List.map_cons]
    · have hother : ¬ IsNamed name m := fun hm => hname (isNamed_unique (isNamed_iff.mpr hn) hm)
      rw [List.filter_cons_of_neg (by simpa using hname), ih hrest,
        List.filter_cons_of_neg (by simpa using hother)]

/-- Nothing is found under a name exactly if it is missing. -/
theorem member?_eq_none_iff (h : keyed? members = some named) :
    member? name named = some none ↔ Lacks name members := by
  unfold member?
  rw [filter_keyed? h, lacks_iff]
  rcases members.filter (IsNamed name ·) with _ | ⟨m, _ | ⟨m', rest⟩⟩ <;> simp

/-- A value is found under a name exactly if one member bears it and has the value. -/
theorem member?_eq_some_iff (h : keyed? members = some named) :
    member? name named = some (some v) ↔ HasOnce name v members := by
  unfold member?
  rw [filter_keyed? h, hasOnce_iff]
  rcases members.filter (IsNamed name ·) with _ | ⟨m, _ | ⟨m', rest⟩⟩ <;> simp

end

/-! ## Items of arrays -/

/-- The items of a list are read one by one. -/
theorem mapM_eq_some_iff {α β : Type} {read : α → Option β} {items : List α} {read' : List β} :
    items.mapM read = some read' ↔ List.Forall₂ (fun a b => read a = some b) items read' := by
  induction items generalizing read' with
  | nil => simp [eq_comm]
  | cons a items ih =>
    rw [List.mapM_cons, List.forall₂_cons_left_iff]
    constructor
    · intro h
      obtain ⟨b, hb, h⟩ := Option.bind_eq_some_iff.mp h
      obtain ⟨rest, hrest, h⟩ := Option.bind_eq_some_iff.mp h
      exact ⟨b, rest, hb, ih.mp hrest, (Option.some.inj h).symm⟩
    · rintro ⟨b, rest, hb, hrest, rfl⟩
      refine Option.bind_eq_some_iff.mpr ⟨b, hb, ?_⟩
      exact Option.bind_eq_some_iff.mpr ⟨rest, ih.mpr hrest, rfl⟩

/-- What is related to some list, one by one, has something related to it. -/
theorem exists_of_forall₂ {α β : Type} {R : α → β → Prop} {as : List α} {bs : List β}
    (h : List.Forall₂ R as bs) : ∀ a ∈ as, ∃ b ∈ bs, R a b := by
  induction h with
  | nil => simp
  | @cons a b as bs hab _ ih =>
    refine List.forall_mem_cons.mpr ⟨⟨b, List.mem_cons_self, hab⟩, fun a' ha' => ?_⟩
    obtain ⟨b', hb', hab'⟩ := ih a' ha'
    exact ⟨b', List.mem_cons_of_mem b hb', hab'⟩

/-- Values have these texts exactly if they are strings that mean them, one each and in order. -/
theorem mapM_text?_iff {items : List Value} {texts : List String} :
    items.mapM Value.text? = some texts ↔
      List.Forall₂ (fun v text => v.IsString text) items texts := by
  simp only [mapM_eq_some_iff, Value.text?_eq_some_iff]

end VolumeBroker.Json
