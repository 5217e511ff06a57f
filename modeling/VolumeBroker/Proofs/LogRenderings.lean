import Mathlib.Data.List.Nodup
import VolumeBroker.Discovery.LogText
import VolumeBroker.Proofs.JsonMembers

/-!
# Which texts are discovery logs

A list of records can be written down in many ways.  `LogRecord.RenderedAs` and `RendersLog` say
which trees are renderings of a record and of a log; a text is one when it is a text of such a tree.
Of a record, the fields that are empty may be left out.  In an object the others stand in any order
and among any members of other names; in an array they keep their places, so that only the last ones
can be left out.
-/

set_option autoImplicit false

namespace VolumeBroker

open Json

/-! ## Members that are texts -/

/-- The name is given once, as the text, or not at all, which stands for the empty text. -/
def Gives (name text : String) (members : List (Literal × Value)) : Prop :=
  GivenOnce name text members ∨ (Lacks name members ∧ text = "")

section

variable {name text : String} {m : Literal × Value}
variable {members members' others : List (Literal × Value)} {named : List (String × Value)}

/-- A field is read as the text that it is given as. -/
theorem textMember?_iff (h : keyed? members = some named) :
    textMember? name named = some text ↔ Gives name text members := by
  constructor
  · intro htext
    obtain ⟨v?, hv?, htext⟩ := Option.bind_eq_some_iff.mp htext
    cases v? with
    | none => exact .inr ⟨(member?_eq_none_iff h).mp hv?, (Option.some.inj htext).symm⟩
    | some v => exact .inl ⟨v, (member?_eq_some_iff h).mp hv?, Value.text?_eq_some_iff.mp htext⟩
  · rintro (⟨v, hv, htext⟩ | ⟨hlacks, rfl⟩)
    · exact Option.bind_eq_some_iff.mpr
        ⟨some v, (member?_eq_some_iff h).mpr hv, Value.text?_eq_some_iff.mpr htext⟩
    · exact Option.bind_eq_some_iff.mpr ⟨none, (member?_eq_none_iff h).mpr hlacks, rfl⟩

/-- The order of the members does not matter. -/
theorem Gives.perm (h : Gives name text members) (hperm : members.Perm members') :
    Gives name text members' := by
  rcases h with ⟨v, hv, htext⟩ | ⟨hlacks, htext⟩
  · exact .inl ⟨v, hv.perm hperm, htext⟩
  · exact .inr ⟨hlacks.perm hperm, htext⟩

/-- Members without the name do not matter. -/
theorem gives_append (hothers : Lacks name others) :
    Gives name text (members ++ others) ↔ Gives name text members := by
  have hlacks : Lacks name (members ++ others) ↔ Lacks name members := by
    rw [lacks_iff, lacks_iff, List.filter_append, lacks_iff.mp hothers, List.append_nil]
  simp only [Gives, GivenOnce, hasOnce_append hothers, hlacks]

/-- A member of another name does not matter. -/
theorem gives_cons (hm : ¬ IsNamed name m) :
    Gives name text (m :: members) ↔ Gives name text members := by
  have hothers : Lacks name [m] := by simpa [Lacks] using hm
  have hperm : (m :: members).Perm (members ++ [m]) := (@List.perm_append_comm _ [m] members)
  rw [← @gives_append name text members [m] hothers]
  exact ⟨fun h => h.perm hperm, fun h => h.perm hperm.symm⟩

/-- A name that is borne by two members is not given. -/
theorem not_gives_of_twice {m' : Literal × Value} (hperm : members.Perm (m :: m' :: others))
    (hm : IsNamed name m) (hm' : IsNamed name m') : ¬ Gives name text members := by
  rintro (⟨v, hv, -⟩ | ⟨hlacks, -⟩)
  · exact not_hasOnce_of_twice hperm hm hm' hv
  · exact hlacks m (hperm.mem_iff.mpr List.mem_cons_self) hm

/-- A member that bears the name and is not a string of the text gives another text, or none. -/
theorem not_gives_of_mistyped (hmem : m ∈ members) (hm : IsNamed name m)
    (hv : ¬ m.2.IsString text) : ¬ Gives name text members := by
  rintro (⟨v, honce, htext⟩ | ⟨hlacks, -⟩)
  · obtain rfl := honce.eq_of_mem hmem hm
    exact hv htext
  · exact hlacks m hmem hm

end

/-! ## Members of known names -/

/-- The members are given ones, in this order; each is a string. -/
abbrev Spell (given : List (String × String)) (known : List (Literal × Value)) : Prop :=
  List.Forall₂ (fun f m => IsNamed f.1 m ∧ m.2.IsString f.2) given known

section

variable {fields given : List (String × String)} {known others members : List (Literal × Value)}

/-- Members that spell fields bear names. -/
theorem Spell.areNamed (h : Spell given known) : AreNamed known := by
  intro m hm
  obtain ⟨f, -, hf, -⟩ := exists_of_forall₂ h.flip m hm
  exact ⟨f.1, hf⟩

/-- A name that no field has is missing among them. -/
theorem Spell.lacks (h : Spell given known) {name : String} (hname : ∀ f ∈ given, f.1 ≠ name) :
    Lacks name known := by
  induction h with
  | nil => simp [Lacks]
  | @cons f m given known hm _ ih =>
    obtain ⟨hf, hgiven⟩ := List.forall_mem_cons.mp hname
    refine List.forall_mem_cons.mpr ⟨fun hother => hf ?_, ih hgiven⟩
    exact isNamed_unique hm.1 hother

/-- Fields with different names are given by the members that spell them. -/
theorem Spell.gives (h : Spell given known) (hnodup : (given.map (·.1)).Nodup) :
    ∀ f ∈ given, Gives f.1 f.2 known := by
  induction h with
  | nil => simp
  | @cons f m given known hm hrest ih =>
    obtain ⟨hfirst, hnodup⟩ := List.nodup_cons.mp hnodup
    have hother : ∀ g ∈ given, g.1 ≠ f.1 := fun g hg heq =>
      hfirst (List.mem_map.mpr ⟨g, hg, heq⟩)
    refine List.forall_mem_cons.mpr ⟨?_, fun g hg => ?_⟩
    · exact .inl ⟨m.2, ⟨m, known, .refl _, hm.1, rfl, Spell.lacks hrest hother⟩, hm.2⟩
    · exact (gives_cons fun hg' => hother g hg (isNamed_unique hg' hm.1)).mpr (ih hnodup g hg)

/-- Where the names are different, the members give all fields exactly if they are those that are
given, in some order and among others, and what is left out is empty. -/
theorem forall_gives_iff (hnodup : (fields.map (·.1)).Nodup) :
    (∀ f ∈ fields, Gives f.1 f.2 members) ↔
      ∃ given known others, given.Sublist fields ∧ (∀ f ∈ fields, f ∉ given → f.2 = "") ∧
        Spell given known ∧ (∀ m ∈ others, ∀ f ∈ fields, ¬ IsNamed f.1 m) ∧
        members.Perm (known ++ others) := by
  constructor
  · intro h
    induction fields generalizing members with
    | nil => exact ⟨[], [], members, .refl _, by simp, .nil, by simp, .refl _⟩
    | cons f fields ih =>
      obtain ⟨hfirst, hnodup⟩ := List.nodup_cons.mp hnodup
      have hother : ∀ g ∈ fields, g.1 ≠ f.1 := fun g hg heq =>
        hfirst (List.mem_map.mpr ⟨g, hg, heq⟩)
      obtain ⟨hf, hfields⟩ := List.forall_mem_cons.mp h
      rcases hf with ⟨v, ⟨m, rest, hperm, hm, rfl, hrest⟩, htext⟩ | ⟨hlacks, htext⟩
      · -- the member of the first field is taken out, and the others are looked for in the rest
        have hinner : ∀ g ∈ fields, Gives g.1 g.2 rest := by
          intro g hg
          refine (gives_cons fun hg' => hother g hg (isNamed_unique hg' hm)).mp ?_
          exact (hfields g hg).perm hperm
        obtain ⟨given, known, others, hgiven, hleft, hknown, hothers, hperm'⟩ := ih hnodup hinner
        refine ⟨f :: given, m :: known, others, hgiven.cons_cons f, ?_, .cons ⟨hm, htext⟩ hknown,
          ?_, hperm.trans (hperm'.cons m)⟩
        · intro g hg hnot
          obtain ⟨hne, hnot⟩ := not_or.mp (List.mem_cons.not.mp hnot)
          exact hleft g ((List.mem_cons.mp hg).resolve_left hne) hnot
        · intro o ho g hg
          rcases List.mem_cons.mp hg with rfl | hg
          · exact hrest o (hperm'.mem_iff.mpr (List.mem_append_right _ ho))
          · exact hothers o ho g hg
      · obtain ⟨given, known, others, hgiven, hleft, hknown, hothers, hperm⟩ := ih hnodup hfields
        refine ⟨given, known, others, hgiven.cons f, ?_, hknown, ?_, hperm⟩
        · exact List.forall_mem_cons.mpr ⟨fun _ => htext, hleft⟩
        · intro o ho g hg
          rcases List.mem_cons.mp hg with rfl | hg
          · exact hlacks o (hperm.mem_iff.mpr (List.mem_append_right _ ho))
          · exact hothers o ho g hg
  · rintro ⟨given, known, others, hgiven, hleft, hknown, hothers, hperm⟩ f hf
    have hmembers : Gives f.1 f.2 (known ++ others) := by
      refine (gives_append fun m hm => hothers m hm f hf).mpr ?_
      by_cases hmem : f ∈ given
      · exact hknown.gives (hnodup.sublist (hgiven.map _)) f hmem
      · refine .inr ⟨hknown.lacks fun g hg heq => hmem ?_, hleft f hf hmem⟩
        rwa [← List.inj_on_of_nodup_map hnodup (hgiven.subset hg) hf heq]
    exact hmembers.perm hperm.symm

end

/-! ## Records -/

namespace LogRecord

/-- The names of the fields of a record, in the order of their declaration. -/
def fieldNames : List String := ["trtype", "adrfam", "subtype", "trsvcid", "traddr", "subnqn"]

/-- The fields of the record, in the same order. -/
def texts (r : LogRecord) : List String :=
  [r.trtype, r.adrfam, r.subtype, r.trsvcid, r.traddr, r.subnqn]

/-- The fields of the record with their names. -/
def fields (r : LogRecord) : List (String × String) := fieldNames.zip r.texts

/-- The tree is a rendering of the record. -/
inductive RenderedAs (r : LogRecord) : Value → Prop
  /-- An object with the fields that are given, in any order, and with members of other names. -/
  | object {given : List (String × String)} {known others members : List (Literal × Value)} :
      given.Sublist r.fields → (∀ f ∈ r.fields, f ∉ given → f.2 = "") → Spell given known →
      (∀ m ∈ others, ∃ name, IsNamed name m ∧ name ∉ fieldNames) →
      members.Perm (known ++ others) → RenderedAs r (.object members)
  /-- An array of the leading fields. -/
  | array {given left : List String} {items : List Value} :
      r.texts = given ++ left → (∀ text ∈ left, text = "") →
      List.Forall₂ (fun v text => v.IsString text) items given → RenderedAs r (.array items)

section

variable {r : LogRecord} {members : List (Literal × Value)} {named : List (String × Value)}

/-- The names of the fields are the same for every record. -/
theorem map_fst_fields (r : LogRecord) : r.fields.map (·.1) = fieldNames := rfl

/-- What holds of the names of the fields holds of the fields of any record. -/
theorem forall_mem_fields {P : String → Prop} (r : LogRecord) :
    (∀ f ∈ r.fields, P f.1) ↔ ∀ name ∈ fieldNames, P name := by
  rw [← map_fst_fields r, List.forall_mem_map]

/-- Members are read as a record exactly if they give all its fields. -/
theorem ofMembers?_eq_some_iff (h : keyed? members = some named) :
    ofMembers? named = some r ↔ ∀ f ∈ r.fields, Gives f.1 f.2 members := by
  have hfields : (∀ f ∈ r.fields, Gives f.1 f.2 members) ↔
      textMember? "trtype" named = some r.trtype ∧ textMember? "adrfam" named = some r.adrfam ∧
      textMember? "subtype" named = some r.subtype ∧
      textMember? "trsvcid" named = some r.trsvcid ∧
      textMember? "traddr" named = some r.traddr ∧ textMember? "subnqn" named = some r.subnqn := by
    simp only [textMember?_iff h]
    simp [fields, fieldNames, texts]
  rw [hfields]
  constructor
  · intro hr
    unfold ofMembers? at hr
    obtain ⟨trtype, htrtype, hr⟩ := Option.bind_eq_some_iff.mp hr
    obtain ⟨adrfam, hadrfam, hr⟩ := Option.bind_eq_some_iff.mp hr
    obtain ⟨subtype, hsubtype, hr⟩ := Option.bind_eq_some_iff.mp hr
    obtain ⟨trsvcid, htrsvcid, hr⟩ := Option.bind_eq_some_iff.mp hr
    obtain ⟨traddr, htraddr, hr⟩ := Option.bind_eq_some_iff.mp hr
    obtain ⟨subnqn, hsubnqn, hr⟩ := Option.bind_eq_some_iff.mp hr
    obtain rfl := Option.some.inj hr
    exact ⟨htrtype, hadrfam, hsubtype, htrsvcid, htraddr, hsubnqn⟩
  · rintro ⟨htrtype, hadrfam, hsubtype, htrsvcid, htraddr, hsubnqn⟩
    unfold ofMembers?
    rw [htrtype, hadrfam, hsubtype, htrsvcid, htraddr, hsubnqn]
    rfl

/-- An array is read as a record exactly if it has the first of its texts, and the others are empty.
-/
theorem ofTexts?_eq_some_iff {given : List String} :
    ofTexts? given = some r ↔
      ∃ left, r.texts = given ++ left ∧ ∀ text ∈ left, text = "" := by
  constructor
  · intro h
    unfold ofTexts? at h
    split at h
    · next hlength =>
      obtain rfl := Option.some.inj h
      refine ⟨List.replicate (6 - given.length) "", ?_, fun text => List.eq_of_mem_replicate⟩
      rcases given with _ | ⟨a, _ | ⟨b, _ | ⟨c, _ | ⟨d, _ | ⟨e, _ | ⟨f, _ | ⟨g, rest⟩⟩⟩⟩⟩⟩⟩
      case cons.cons.cons.cons.cons.cons.cons =>
        simp only [List.length_cons] at hlength
        omega
      all_goals rfl
    · cases h
  · rintro ⟨left, htexts, hleft⟩
    have hlength : given.length ≤ 6 := by
      have htotal := congrArg List.length htexts
      rw [List.length_append] at htotal
      have hsix : r.texts.length = 6 := rfl
      omega
    have hget : ∀ i, given.getD i "" = r.texts.getD i "" := by
      intro i
      rw [htexts, List.getD_eq_getElem?_getD, List.getD_eq_getElem?_getD]
      by_cases hi : i < given.length
      · rw [List.getElem?_append_left hi]
      · rw [List.getElem?_append_right (by omega), List.getElem?_eq_none (by omega)]
        cases hblank : left[i - given.length]? with
        | none => rfl
        | some text => exact (hleft text (List.mem_of_getElem? hblank)).symm
    unfold ofTexts?
    rw [if_pos hlength, hget, hget, hget, hget, hget, hget]
    rfl

/-- The renderings of records are the trees that are read as records. -/
theorem ofValue?_eq_some_iff {v : Value} : ofValue? v = some r ↔ r.RenderedAs v := by
  have hnodup : (r.fields.map (·.1)).Nodup := by
    rw [map_fst_fields]
    decide
  constructor
  · intro h
    cases v with
    | object members =>
      obtain ⟨named, hkeyed, h⟩ := Option.bind_eq_some_iff.mp h
      have hgives := (ofMembers?_eq_some_iff hkeyed).mp h
      obtain ⟨given, known, others, hgiven, hleft, hknown, hothers, hperm⟩ :=
        (forall_gives_iff hnodup).mp hgives
      refine .object hgiven hleft hknown ?_ hperm
      intro m hm
      obtain ⟨name, hname⟩ := exists_keyed?_iff.mp ⟨named, hkeyed⟩ m
        (hperm.mem_iff.mpr (List.mem_append_right _ hm))
      refine ⟨name, hname, fun hfield => ?_⟩
      have hnone := (@forall_mem_fields (fun field => ¬ IsNamed field m) r).mp (hothers m hm)
      exact hnone name hfield hname
    | array items =>
      obtain ⟨given, hgiven, h⟩ := Option.bind_eq_some_iff.mp h
      obtain ⟨left, htexts, hleft⟩ := ofTexts?_eq_some_iff.mp h
      exact .array htexts hleft (mapM_text?_iff.mp hgiven)
    | null => cases h
    | bool b => cases h
    | number written => cases h
    | string l => cases h
  · rintro (⟨hgiven, hleft, hknown, hothers, hperm⟩ | ⟨htexts, hleft, hitems⟩)
    · rename_i given known others members
      have hnamed : AreNamed members := by
        intro m hm
        rcases List.mem_append.mp (hperm.mem_iff.mp hm) with hm | hm
        · exact hknown.areNamed m hm
        · obtain ⟨name, hname, -⟩ := hothers m hm
          exact ⟨name, hname⟩
      obtain ⟨named, hkeyed⟩ := exists_keyed?_iff.mpr hnamed
      have hother : ∀ m ∈ others, ∀ f ∈ r.fields, ¬ IsNamed f.1 m := by
        intro m hm
        obtain ⟨name', hname', hnot⟩ := hothers m hm
        refine (@forall_mem_fields (fun field => ¬ IsNamed field m) r).mpr ?_
        intro name hfield hname
        exact hnot (isNamed_unique hname hname' ▸ hfield)
      have hgives := (forall_gives_iff hnodup).mpr
        ⟨given, known, others, hgiven, hleft, hknown, hother, hperm⟩
      exact Option.bind_eq_some_iff.mpr ⟨named, hkeyed, (ofMembers?_eq_some_iff hkeyed).mpr hgives⟩
    · exact Option.bind_eq_some_iff.mpr
        ⟨_, mapM_text?_iff.mpr hitems, ofTexts?_eq_some_iff.mpr ⟨_, htexts, hleft⟩⟩

end

/-- The tree gives a field in a way in which it cannot be read. -/
inductive IsFaulty : Value → Prop
  | twice {name : String} {m m' : Literal × Value} {members others : List (Literal × Value)} :
      name ∈ fieldNames → members.Perm (m :: m' :: others) → IsNamed name m → IsNamed name m' →
      IsFaulty (.object members)
  | mistyped {name : String} {m : Literal × Value} {members : List (Literal × Value)} :
      name ∈ fieldNames → m ∈ members → IsNamed name m → (∀ text, ¬ m.2.IsString text) →
      IsFaulty (.object members)
  | mistypedItem {v : Value} {items : List Value} :
      v ∈ items → (∀ text, ¬ v.IsString text) → IsFaulty (.array items)
  | overlong {items : List Value} : 6 < items.length → IsFaulty (.array items)

/-- An object that renders a record gives each of its fields. -/
theorem RenderedAs.gives {r : LogRecord} {members : List (Literal × Value)}
    (h : r.RenderedAs (.object members)) {name : String} (hname : name ∈ fieldNames) :
    ∃ text, Gives name text members := by
  obtain ⟨named, hkeyed, hread⟩ := Option.bind_eq_some_iff.mp (ofValue?_eq_some_iff.mpr h)
  rw [← map_fst_fields r] at hname
  obtain ⟨f, hf, rfl⟩ := List.mem_map.mp hname
  exact ⟨f.2, (ofMembers?_eq_some_iff hkeyed).mp hread f hf⟩

/-- A faulty tree renders no record. -/
theorem IsFaulty.not_renderedAs {v : Value} (h : IsFaulty v) (r : LogRecord) :
    ¬ r.RenderedAs v := by
  intro hr
  cases h with
  | twice hname hperm hm hm' =>
    obtain ⟨text, hgives⟩ := hr.gives hname
    exact not_gives_of_twice hperm hm hm' hgives
  | mistyped hname hmem hm htext =>
    obtain ⟨text, hgives⟩ := hr.gives hname
    exact not_gives_of_mistyped hmem hm (htext text) hgives
  | mistypedItem hmem htext =>
    obtain _ | ⟨-, -, hitems⟩ := hr
    obtain ⟨text, -, hv⟩ := exists_of_forall₂ hitems _ hmem
    exact htext text hv
  | overlong hlength =>
    obtain _ | ⟨htexts, -, hitems⟩ := hr
    have htotal := congrArg List.length htexts
    rw [List.length_append, ← hitems.length_eq] at htotal
    have hsix : r.texts.length = 6 := rfl
    omega

/-! ## Logs -/

/-- The name of the member that holds the records. -/
def recordsKey : String := "records"

/-- The members bear names, and none of them is that of the records. -/
def StandBeside (others : List (Literal × Value)) : Prop :=
  ∀ m ∈ others, ∃ name, IsNamed name m ∧ name ≠ recordsKey

/-- The items are renderings of the records, one each and in order. -/
abbrev RenderedInOrder (items : List Value) (records : List LogRecord) : Prop :=
  List.Forall₂ (fun v (r : LogRecord) => r.RenderedAs v) items records

/-- The tree is a rendering of the log. -/
inductive RendersLog (records : List LogRecord) : Value → Prop
  /-- An object with the array of the records, among any other members. -/
  | object {key : Literal} {items : List Value} {others members : List (Literal × Value)} :
      RenderedInOrder items records → IsNamed recordsKey (key, .array items) →
      StandBeside others → members.Perm ((key, .array items) :: others) →
      RendersLog records (.object members)
  | missing {members : List (Literal × Value)} :
      records = [] → StandBeside members → RendersLog records (.object members)
  | array {items : List Value} :
      RenderedInOrder items records → RendersLog records (.array [.array items])
  | nothing : records = [] → RendersLog records (.array [])

section

variable {records : List LogRecord} {v : Value} {members others : List (Literal × Value)}

/-- A tree is read as a list of records exactly if it is an array of their renderings. -/
theorem listOfValue?_eq_some_iff :
    listOfValue? v = some records ↔ ∃ items, v = .array items ∧ RenderedInOrder items records := by
  cases v with
  | array items =>
    show items.mapM ofValue? = some records ↔ _
    simp [mapM_eq_some_iff, ofValue?_eq_some_iff]
  | null => simp [listOfValue?]
  | bool b => simp [listOfValue?]
  | number written => simp [listOfValue?]
  | string l => simp [listOfValue?]
  | object members => simp [listOfValue?]

/-- Members may stand beside the records exactly if they bear other names. -/
theorem standBeside_iff : StandBeside others ↔ AreNamed others ∧ Lacks recordsKey others := by
  constructor
  · intro h
    refine ⟨fun m hm => ?_, fun m hm hrecords => ?_⟩
    · obtain ⟨name, hname, -⟩ := h m hm
      exact ⟨name, hname⟩
    · obtain ⟨name, hname, hne⟩ := h m hm
      exact hne (isNamed_unique hname hrecords)
  · rintro ⟨hnamed, hlacks⟩ m hm
    obtain ⟨name, hname⟩ := hnamed m hm
    refine ⟨name, hname, ?_⟩
    rintro rfl
    exact hlacks m hm hname

/-- An object has its records in one member, or has none. -/
theorem logOfValue?_object_iff : logOfValue? (.object members) = some records ↔
    AreNamed members ∧ ((Lacks recordsKey members ∧ records = []) ∨
      ∃ v, HasOnce recordsKey v members ∧ listOfValue? v = some records) := by
  constructor
  · intro h
    obtain ⟨named, hkeyed, h⟩ := Option.bind_eq_some_iff.mp h
    obtain ⟨v?, hv?, h⟩ := Option.bind_eq_some_iff.mp h
    refine ⟨exists_keyed?_iff.mp ⟨named, hkeyed⟩, ?_⟩
    cases v? with
    | none => exact .inl ⟨(member?_eq_none_iff hkeyed).mp hv?, (Option.some.inj h).symm⟩
    | some v => exact .inr ⟨v, (member?_eq_some_iff hkeyed).mp hv?, h⟩
  · rintro ⟨hnamed, hrecords⟩
    obtain ⟨named, hkeyed⟩ := exists_keyed?_iff.mpr hnamed
    refine Option.bind_eq_some_iff.mpr ⟨named, hkeyed, ?_⟩
    rcases hrecords with ⟨hlacks, rfl⟩ | ⟨v, hv, hrecords⟩
    · exact Option.bind_eq_some_iff.mpr ⟨none, (member?_eq_none_iff hkeyed).mpr hlacks, rfl⟩
    · exact Option.bind_eq_some_iff.mpr ⟨some v, (member?_eq_some_iff hkeyed).mpr hv, hrecords⟩

/-- All members bear names exactly if one of them and the others do. -/
theorem areNamed_of_perm {m : Literal × Value} (hperm : members.Perm (m :: others)) :
    AreNamed members ↔ (∃ name, IsNamed name m) ∧ AreNamed others := by
  have hcons : AreNamed (m :: others) ↔ (∃ name, IsNamed name m) ∧ AreNamed others :=
    List.forall_mem_cons
  rw [← hcons]
  exact ⟨fun h m hm => h m (hperm.mem_iff.mpr hm), fun h m hm => h m (hperm.mem_iff.mp hm)⟩

/-- The renderings of logs are the trees that are read as logs. -/
theorem logOfValue?_eq_some_iff : logOfValue? v = some records ↔ RendersLog records v := by
  constructor
  · intro h
    cases v with
    | object members =>
      obtain ⟨hnamed, ⟨hlacks, hnone⟩ | ⟨v, ⟨m, others, hperm, hm, rfl, hothers⟩, hrecords⟩⟩ :=
        logOfValue?_object_iff.mp h
      · exact .missing hnone (standBeside_iff.mpr ⟨hnamed, hlacks⟩)
      · obtain ⟨key, v⟩ := m
        obtain ⟨items, rfl, hitems⟩ := listOfValue?_eq_some_iff.mp hrecords
        have hbeside := standBeside_iff.mpr ⟨((areNamed_of_perm hperm).mp hnamed).2, hothers⟩
        exact .object hitems hm hbeside hperm
    | array items =>
      match items, h with
      | [], h => exact .nothing (Option.some.inj h).symm
      | [v], h =>
        obtain ⟨items, rfl, hitems⟩ := listOfValue?_eq_some_iff.mp h
        exact .array hitems
    | null => cases h
    | bool b => cases h
    | number written => cases h
    | string l => cases h
  · intro h
    cases h with
    | @object key items others members hitems hkey hothers hperm =>
      obtain ⟨hnamed, hlacks⟩ := standBeside_iff.mp hothers
      refine logOfValue?_object_iff.mpr
        ⟨(areNamed_of_perm hperm).mpr ⟨⟨_, hkey⟩, hnamed⟩, .inr ⟨.array items, ?_, ?_⟩⟩
      · exact ⟨(key, .array items), others, hperm, hkey, rfl, hlacks⟩
      · exact listOfValue?_eq_some_iff.mpr ⟨items, rfl, hitems⟩
    | missing hnone hothers =>
      obtain ⟨hnamed, hlacks⟩ := standBeside_iff.mp hothers
      exact logOfValue?_object_iff.mpr ⟨hnamed, .inl ⟨hlacks, hnone⟩⟩
    | @array items hitems => exact listOfValue?_eq_some_iff.mpr ⟨items, rfl, hitems⟩
    | nothing hnone =>
      subst hnone
      rfl

end

/-- The items stand where the records of a log are looked for. -/
inductive HoldsRecords (items : List Value) : Value → Prop
  | member {key : Literal} {members : List (Literal × Value)} :
      (key, .array items) ∈ members → IsNamed recordsKey (key, .array items) →
      HoldsRecords items (.object members)
  | place : HoldsRecords items (.array [.array items])

/-- The tree gives its records, or a field of one of them, in a way in which it cannot be read. -/
inductive IsFaultyLog : Value → Prop
  | record {v item : Value} {items : List Value} :
      HoldsRecords items v → item ∈ items → IsFaulty item → IsFaultyLog v
  | twice {m m' : Literal × Value} {members others : List (Literal × Value)} :
      members.Perm (m :: m' :: others) → IsNamed recordsKey m → IsNamed recordsKey m' →
      IsFaultyLog (.object members)
  | mistyped {m : Literal × Value} {members : List (Literal × Value)} :
      m ∈ members → IsNamed recordsKey m → (∀ items, m.2 ≠ .array items) →
      IsFaultyLog (.object members)

/-- Whatever member bears the name of the records, in a rendering it is the one that has them. -/
theorem RendersLog.of_member {records : List LogRecord} {m : Literal × Value}
    {members : List (Literal × Value)} (h : RendersLog records (.object members))
    (hmem : m ∈ members) (hm : IsNamed recordsKey m) :
    HasOnce recordsKey m.2 members ∧
      ∃ items, m.2 = .array items ∧ RenderedInOrder items records := by
  obtain ⟨-, ⟨hlacks, -⟩ | ⟨v, honce, hrecords⟩⟩ :=
    logOfValue?_object_iff.mp (logOfValue?_eq_some_iff.mpr h)
  · exact absurd hm (hlacks m hmem)
  · obtain rfl := honce.eq_of_mem hmem hm
    exact ⟨honce, listOfValue?_eq_some_iff.mp hrecords⟩

/-- A faulty tree renders no log. -/
theorem IsFaultyLog.not_rendersLog {v : Value} (h : IsFaultyLog v) (records : List LogRecord) :
    ¬ RendersLog records v := by
  intro hrenders
  cases h with
  | @record v item items hholds hitem hfaulty =>
    have hitems : RenderedInOrder items records := by
      cases hholds with
      | member hmem hkey =>
        obtain ⟨-, items', hvalue, hitems⟩ := hrenders.of_member hmem hkey
        obtain rfl := Value.array.inj hvalue
        exact hitems
      | place =>
        obtain _ | _ | hitems | _ := hrenders
        exact hitems
    obtain ⟨r, -, hr⟩ := exists_of_forall₂ hitems item hitem
    exact hfaulty.not_renderedAs r hr
  | twice hperm hm hm' =>
    obtain ⟨honce, -⟩ := hrenders.of_member (hperm.mem_iff.mpr List.mem_cons_self) hm
    exact not_hasOnce_of_twice hperm hm hm' honce
  | mistyped hmem hm hvalue =>
    obtain ⟨-, items, hitems, -⟩ := hrenders.of_member hmem hm
    exact hvalue items hitems

end LogRecord

namespace Descriptor

open LogRecord

/-- The text of a tree is parsed as the log that the tree is read as. -/
theorem parseLog?_of_written {v : Value} {s : String} (h : v.WrittenAs s) :
    LogRecord.parseLog? s = logOfValue? v := by
  unfold LogRecord.parseLog?
  rw [Value.parse?_eq_some_iff.mpr h]
  rfl

/-- Descriptors are found exactly if the text is parsed as a log, and they are those of its records.
-/
theorem parseLog_eq_ok_iff {s : String} {found : List Descriptor} :
    parseLog s = .ok found ↔ ∃ records, LogRecord.parseLog? s = some records ∧
      found = ofLog records := by
  unfold parseLog
  cases LogRecord.parseLog? s with
  | none => simp
  | some records => simp [eq_comm]

/-- Every text of a rendering of a log gives the descriptors of its records, and no other text gives
any.  In particular a text fails as a whole if a known field of one of its records is given twice or
is no string, or if one of the records is an array with too many items. -/
theorem parseLog_renderings :
    (∀ (records : List LogRecord) (v : Value) (s : String), RendersLog records v → v.WrittenAs s →
      parseLog s = .ok (ofLog records)) ∧
    (∀ (s : String) (found : List Descriptor), parseLog s = .ok found →
      ∃ (records : List LogRecord) (v : Value), RendersLog records v ∧ v.WrittenAs s ∧
        found = ofLog records) ∧
    ∀ (v : Value) (s : String), IsFaultyLog v → v.WrittenAs s →
      parseLog s = .error .unreadableLog := by
  refine ⟨fun records v s hrenders hwritten => ?_, fun s found h => ?_,
    fun v s hfaulty hwritten => ?_⟩
  · refine parseLog_eq_ok_iff.mpr ⟨records, ?_, rfl⟩
    rw [parseLog?_of_written hwritten]
    exact logOfValue?_eq_some_iff.mpr hrenders
  · obtain ⟨records, hrecords, rfl⟩ := parseLog_eq_ok_iff.mp h
    obtain ⟨v, hv, hrecords⟩ := Option.bind_eq_some_iff.mp hrecords
    exact ⟨records, v, logOfValue?_eq_some_iff.mp hrecords, Value.parse?_eq_some_iff.mp hv, rfl⟩
  · have hnone : LogRecord.parseLog? s = none := by
      rw [parseLog?_of_written hwritten, Option.eq_none_iff_forall_ne_some]
      intro records hrecords
      exact hfaulty.not_rendersLog records (logOfValue?_eq_some_iff.mp hrecords)
    unfold parseLog
    rw [hnone]

/-- Two records of one subsystem: an object with its fields out of order, a name spelled with an
escape and a member of another name, and an array. -/
def mixedRendering : Value :=
  .object [(Literal.ofText "genctr", .number ['3']),
    (Literal.ofText "records", .array [
      .object [(Literal.ofText "subnqn", .string (Literal.ofText "nqn-a")),
        (Literal.ofText "port", .null),
        (.code 0x74 :: Literal.ofText "raddr", .string (Literal.ofText "10.0.0.1")),
        (Literal.ofText "trsvcid", .string (Literal.ofText "4420")),
        (Literal.ofText "trtype", .string (Literal.ofText "tcp"))],
      .array (["tcp", "ipv4", "", "4420", "10.0.0.2", "nqn-a"].map fun text =>
        .string (Literal.ofText text))])]

/-- A text of this tree. -/
def mixedRenderingText : String :=
  "\x7b\"genctr\": 3, \"records\": [\x7b\"subnqn\":\"nqn-a\",\"port\":null," ++
    "\"\\u0074raddr\":\"10.0.0.1\",\"trsvcid\":\"4420\",\"trtype\":\"tcp\"\x7d, " ++
    "[\"tcp\",\"ipv4\",\"\",\"4420\",\"10.0.0.2\",\"nqn-a\"]]\x7d"

/-- A record with a field that is null. -/
def nullFieldRendering : Value :=
  .object [(Literal.ofText "records", .array [.object [(Literal.ofText "traddr", .null)]])]

/-- The mixed rendering is read as its two paths, and a null field is refused. -/
theorem parseLog_mixedRendering :
    parseLog mixedRenderingText = .ok [⟨"nqn-a", .tcp, ["10.0.0.1:4420", "10.0.0.2:4420"]⟩] ∧
      parseLog "\x7b\"records\":[\x7b\"traddr\":null\x7d]\x7d" = .error .unreadableLog := by
  let records : List LogRecord :=
    [{ trtype := "tcp", trsvcid := "4420", traddr := "10.0.0.1", subnqn := "nqn-a" },
      ⟨"tcp", "ipv4", "", "4420", "10.0.0.2", "nqn-a"⟩]
  have hrenders : RendersLog records mixedRendering := logOfValue?_eq_some_iff.mp (by decide)
  have hwritten : mixedRendering.WrittenAs mixedRenderingText :=
    written_of_scan? (by decide +kernel)
  have hfaulty : IsFaultyLog nullFieldRendering := by
    refine .record (.member (List.mem_singleton_self _) (by decide)) (List.mem_singleton_self _) ?_
    refine @IsFaulty.mistyped "traddr" _ _ (by decide) (List.mem_singleton_self _) (by decide) ?_
    rintro text ⟨⟩
  have hwritten' : nullFieldRendering.WrittenAs "\x7b\"records\":[\x7b\"traddr\":null\x7d]\x7d" :=
    written_of_scan? (by decide +kernel)
  obtain ⟨hreads, -, hrefuses⟩ := parseLog_renderings
  have hdescriptors : ofLog records =
      [⟨"nqn-a", .tcp, ["10.0.0.1:4420", "10.0.0.2:4420"]⟩] := by decide +kernel
  rw [hreads records _ _ hrenders hwritten, hdescriptors]
  exact ⟨rfl, hrefuses _ _ hfaulty hwritten'⟩

end Descriptor

end VolumeBroker
