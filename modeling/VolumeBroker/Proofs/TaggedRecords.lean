import VolumeBroker.Device.Record
import VolumeBroker.Proofs.JsonMembers

/-!
# Which texts are records

A record says by its tag what it is, and the tag may stand anywhere among the members.  So a text is
judged as a whole: `Value.IsDecodable` and `Value.NestsWithin` say of the tree what the reader of
records asks of the tokens, and `Allocation.decode?_eq_some_iff` puts the two together.  Of the
members only those under the two known names matter, wherever they stand.
-/

set_option autoImplicit false

namespace VolumeBroker.Json

/-- All strings in the value, the keys among them, mean something, and all numbers are in range. -/
inductive Value.IsDecodable : Value → Prop
  | null : IsDecodable .null
  | bool {b : Bool} : IsDecodable (.bool b)
  | number {written : List Char} {n : Number} :
      Number.read? written = some n → n.fits = true → IsDecodable (.number written)
  | string {l : Literal} {text : String} : l.Means text.toList → IsDecodable (.string l)
  | array {items : List Value} : (∀ v ∈ items, IsDecodable v) → IsDecodable (.array items)
  | object {members : List (Literal × Value)} :
      AreNamed members → (∀ m ∈ members, IsDecodable m.2) → IsDecodable (.object members)

/-- At most so many containers stand one in the other. -/
inductive Value.NestsWithin : Nat → Value → Prop
  | null {limit : Nat} : NestsWithin limit .null
  | bool {limit : Nat} {b : Bool} : NestsWithin limit (.bool b)
  | number {limit : Nat} {written : List Char} : NestsWithin limit (.number written)
  | string {limit : Nat} {l : Literal} : NestsWithin limit (.string l)
  | array {limit : Nat} {items : List Value} :
      (∀ v ∈ items, NestsWithin limit v) → NestsWithin (limit + 1) (.array items)
  | object {limit : Nat} {members : List (Literal × Value)} :
      (∀ m ∈ members, NestsWithin limit m.2) → NestsWithin (limit + 1) (.object members)

/-! ## What is asked of the tokens -/

/-- What holds of commas holds of all tokens of an array if it holds of those of its items. -/
theorem forall_mem_itemTokens {P : Token → Prop} (hcomma : P .comma) (items : List Value) :
    (∀ t ∈ itemTokens items, P t) ↔ ∀ v ∈ items, ∀ t ∈ v.tokens, P t := by
  induction items with
  | nil => simp [itemTokens]
  | cons v rest ih =>
    cases rest with
    | nil => simp [itemTokens]
    | cons w rest =>
      rw [itemTokens_cons_cons, List.forall_mem_append, List.forall_mem_cons, ih,
        @List.forall_mem_cons _ _ v]
      simp [hcomma]

/-- What holds of commas and colons holds of all tokens of an object if it holds of its keys and of
the tokens of its values. -/
theorem forall_mem_memberTokens {P : Token → Prop} (hcolon : P .colon) (hcomma : P .comma)
    (members : List (Literal × Value)) :
    (∀ t ∈ memberTokens members, P t) ↔
      ∀ m ∈ members, P (.string m.1) ∧ ∀ t ∈ m.2.tokens, P t := by
  have hone : ∀ m, (∀ t ∈ memberTokens [m], P t) ↔ P (.string m.1) ∧ ∀ t ∈ m.2.tokens, P t := by
    intro m
    simp [memberTokens, hcolon]
  induction members with
  | nil => simp [memberTokens]
  | cons m rest ih =>
    cases rest with
    | nil => simpa using hone m
    | cons n rest =>
      rw [memberTokens_cons_cons, List.forall_mem_append, List.forall_mem_cons, hone,
        @List.forall_mem_cons _ _ m]
      exact and_congr_right fun _ => ⟨fun h => ih.mp h.2, fun h => ⟨hcomma, ih.mpr h⟩⟩

/-- The tokens of a value mean something exactly if the value can be decoded. -/
theorem Value.isMeaningful_tokens_iff (v : Value) :
    (∀ t ∈ v.tokens, t.isMeaningful = true) ↔ v.IsDecodable := by
  induction v using Value.induction with
  | null => exact ⟨fun _ => .null, fun _ => by simp [tokens, Token.isMeaningful]⟩
  | bool b => exact ⟨fun _ => .bool, fun _ => by simp [tokens, Token.isMeaningful]⟩
  | number written =>
    simp only [tokens, List.mem_singleton, forall_eq, Token.isMeaningful]
    constructor
    · intro h
      cases hn : Number.read? written with
      | none => rw [hn] at h; cases h
      | some n =>
        rw [hn] at h
        exact .number hn h
    · rintro (_ | _ | ⟨hn, hfits⟩)
      rw [hn]
      exact hfits
  | string l =>
    simp only [tokens, List.mem_singleton, forall_eq, Token.isMeaningful]
    constructor
    · intro h
      obtain ⟨text, htext⟩ := Option.isSome_iff_exists.mp h
      exact .string (Literal.decode?_eq_some_iff.mp htext)
    · rintro (_ | _ | _ | htext)
      rw [Literal.decode?_eq_some_iff.mpr htext]
      rfl
  | array items ih =>
    -- The brackets and commas mean something in any case, so only the items count.
    have htokens : (∀ t ∈ (Value.array items).tokens, t.isMeaningful = true) ↔
        ∀ v ∈ items, ∀ t ∈ v.tokens, t.isMeaningful = true := by
      rw [← @forall_mem_itemTokens (·.isMeaningful = true) rfl items, tokens, List.forall_mem_cons,
        List.forall_mem_append, List.forall_mem_singleton]
      exact ⟨fun h => h.2.1, fun h => ⟨rfl, h, rfl⟩⟩
    rw [htokens]
    constructor
    · intro h
      exact .array fun v hv => (ih v hv).mp (h v hv)
    · rintro (_ | _ | _ | _ | h) v hv
      exact (ih v hv).mpr (h v hv)
  | object members ih =>
    have htokens : (∀ t ∈ (Value.object members).tokens, t.isMeaningful = true) ↔
        ∀ m ∈ members, (Token.string m.1).isMeaningful = true ∧
          ∀ t ∈ m.2.tokens, t.isMeaningful = true := by
      rw [← @forall_mem_memberTokens (·.isMeaningful = true) rfl rfl members, tokens,
        List.forall_mem_cons, List.forall_mem_append, List.forall_mem_singleton]
      exact ⟨fun h => h.2.1, fun h => ⟨rfl, h, rfl⟩⟩
    have hkey : ∀ m : Literal × Value,
        (Token.string m.1).isMeaningful = true ↔ ∃ name, IsNamed name m := by
      intro m
      simp only [Token.isMeaningful, Option.isSome_iff_exists, isNamed_iff]
    rw [htokens]
    constructor
    · intro h
      exact .object (fun m hm => (hkey m).mp (h m hm).1) fun m hm => (ih m hm).mp (h m hm).2
    · rintro (_ | _ | _ | _ | _ | ⟨hnamed, h⟩) m hm
      exact ⟨(hkey m).mpr (hnamed m hm), (ih m hm).mpr (h m hm)⟩

/-! ## Depth -/

/-- An opening mark goes one level deeper, where that is allowed. -/
theorem nestsWithin_open {limit depth : Nat} {t : Token} (ht : t = .openBrace ∨ t = .openBracket)
    (rest : List Token) : nestsWithin limit depth (t :: rest) = true ↔
      depth < limit ∧ nestsWithin limit (depth + 1) rest = true := by
  rcases ht with rfl | rfl <;> simp [nestsWithin]

/-- A closing mark comes back from a level. -/
theorem nestsWithin_close {limit depth : Nat} {t : Token}
    (ht : t = .closeBrace ∨ t = .closeBracket) (rest : List Token) :
    nestsWithin limit (depth + 1) (t :: rest) = nestsWithin limit depth rest := by
  rcases ht with rfl | rfl <;> simp [nestsWithin]

/-- Any other token stays on its level. -/
theorem nestsWithin_flat {limit depth : Nat} {t : Token}
    (ht : t ≠ .openBrace ∧ t ≠ .openBracket ∧ t ≠ .closeBrace ∧ t ≠ .closeBracket)
    (rest : List Token) : nestsWithin limit depth (t :: rest) = nestsWithin limit depth rest := by
  simp [nestsWithin, ht]

/-- The tokens of the value open no more than the value nests, and leave the depth as it was. -/
def Value.Fits (v : Value) : Prop :=
  ∀ (limit depth : Nat) (rest : List Token), nestsWithin limit depth (v.tokens ++ rest) = true ↔
    v.NestsWithin (limit - depth) ∧ nestsWithin limit depth rest = true

/-- The items of an array may each nest as deep as is left. -/
theorem nestsWithin_itemTokens {items : List Value} (h : ∀ v ∈ items, v.Fits)
    (limit depth : Nat) (rest : List Token) :
    nestsWithin limit depth (itemTokens items ++ rest) = true ↔
      (∀ v ∈ items, v.NestsWithin (limit - depth)) ∧ nestsWithin limit depth rest = true := by
  induction items with
  | nil => simp [itemTokens]
  | cons v more ih =>
    obtain ⟨hv, hmore⟩ := List.forall_mem_cons.mp h
    cases more with
    | nil => simpa [itemTokens] using hv limit depth rest
    | cons w more =>
      rw [itemTokens_cons_cons, List.append_assoc, hv, List.cons_append,
        nestsWithin_flat (by simp), ih hmore, @List.forall_mem_cons _ _ v, and_assoc]

/-- The values of an object may each nest as deep as is left. -/
theorem nestsWithin_memberTokens {members : List (Literal × Value)} (h : ∀ m ∈ members, m.2.Fits)
    (limit depth : Nat) (rest : List Token) :
    nestsWithin limit depth (memberTokens members ++ rest) = true ↔
      (∀ m ∈ members, m.2.NestsWithin (limit - depth)) ∧ nestsWithin limit depth rest = true := by
  have hone : ∀ m ∈ members, ∀ rest, nestsWithin limit depth (memberTokens [m] ++ rest) = true ↔
      m.2.NestsWithin (limit - depth) ∧ nestsWithin limit depth rest = true := by
    intro m hm rest
    rw [← h m hm limit depth rest]
    show nestsWithin limit depth (.string m.1 :: .colon :: (m.2.tokens ++ rest)) = true ↔ _
    rw [nestsWithin_flat (by simp), nestsWithin_flat (by simp)]
  induction members with
  | nil => simp [memberTokens]
  | cons m more ih =>
    obtain ⟨-, hmore⟩ := List.forall_mem_cons.mp h
    obtain ⟨hm, hones⟩ := List.forall_mem_cons.mp hone
    cases more with
    | nil => simpa using hm rest
    | cons n more =>
      rw [memberTokens_cons_cons, List.append_assoc, hm, List.cons_append,
        nestsWithin_flat (by simp), @List.forall_mem_cons _ _ m, and_assoc]
      exact and_congr_right fun _ => ih hmore hones

/-- Every value opens no more containers than it nests, and closes all of them. -/
theorem Value.fits (v : Value) : v.Fits := by
  induction v using Value.induction with
  | null =>
    intro limit depth rest
    rw [tokens, List.singleton_append, nestsWithin_flat (by simp)]
    exact ⟨fun h => ⟨.null, h⟩, And.right⟩
  | bool b =>
    intro limit depth rest
    rw [tokens, List.singleton_append, nestsWithin_flat (by simp)]
    exact ⟨fun h => ⟨.bool, h⟩, And.right⟩
  | number written =>
    intro limit depth rest
    rw [tokens, List.singleton_append, nestsWithin_flat (by simp)]
    exact ⟨fun h => ⟨.number, h⟩, And.right⟩
  | string l =>
    intro limit depth rest
    rw [tokens, List.singleton_append, nestsWithin_flat (by simp)]
    exact ⟨fun h => ⟨.string, h⟩, And.right⟩
  | array items ih =>
    intro limit depth rest
    rw [tokens, List.cons_append, nestsWithin_open (.inr rfl), List.append_assoc,
      nestsWithin_itemTokens ih, List.singleton_append, nestsWithin_close (.inr rfl), ← and_assoc]
    -- One level of the limit is used up by this container, and the items have what is left.
    refine and_congr_left fun _ => ?_
    constructor
    · rintro ⟨hlt, hitems⟩
      rw [show limit - depth = limit - (depth + 1) + 1 by omega]
      exact .array hitems
    · intro h
      generalize hroom : limit - depth = room at h
      obtain _ | _ | _ | _ | @⟨room, _, hitems⟩ := h
      have hinner : limit - (depth + 1) = room := by omega
      exact ⟨by omega, hinner ▸ hitems⟩
  | object members ih =>
    intro limit depth rest
    rw [tokens, List.cons_append, nestsWithin_open (.inl rfl), List.append_assoc,
      nestsWithin_memberTokens ih, List.singleton_append, nestsWithin_close (.inl rfl), ← and_assoc]
    refine and_congr_left fun _ => ?_
    constructor
    · rintro ⟨hlt, hmembers⟩
      rw [show limit - depth = limit - (depth + 1) + 1 by omega]
      exact .object hmembers
    · intro h
      generalize hroom : limit - depth = room at h
      obtain _ | _ | _ | _ | _ | @⟨room, _, hmembers⟩ := h
      have hinner : limit - (depth + 1) = room := by omega
      exact ⟨by omega, hinner ▸ hmembers⟩

/-- The tokens of a value open no more than is allowed exactly if the value nests no deeper. -/
theorem Value.nestsWithin_tokens_iff (v : Value) (limit : Nat) :
    Json.nestsWithin limit 0 v.tokens = true ↔ v.NestsWithin limit := by
  have h := v.fits limit 0 []
  rw [List.append_nil] at h
  simpa [Json.nestsWithin] using h

end VolumeBroker.Json

namespace VolumeBroker.Allocation

open Json

/-! ## Records -/

/-- The checks of the tokens are those of the value. -/
theorem checks_iff (v : Value) :
    (v.tokens.all Token.isMeaningful && nestsWithin maxRecordDepth 0 v.tokens) = true ↔
      v.IsDecodable ∧ v.NestsWithin maxRecordDepth := by
  rw [Bool.and_eq_true, List.all_eq_true, v.isMeaningful_tokens_iff, v.nestsWithin_tokens_iff]

/-- A text is a record when it is a text of a tree that is one. -/
theorem decode?_eq_some_iff {s : String} {a : Allocation} :
    decode? s = some a ↔ ∃ v : Value, v.WrittenAs s ∧ v.IsDecodable ∧
      v.NestsWithin maxRecordDepth ∧ ofValue? v = some a := by
  constructor
  · intro h
    obtain ⟨ts, hscan, h⟩ := Option.bind_eq_some_iff.mp h
    obtain ⟨_, hguard, h⟩ := Option.bind_eq_some_iff.mp h
    obtain ⟨v, hv, ha⟩ := Option.bind_eq_some_iff.mp h
    obtain rfl := Value.ofTokens?_eq_some_iff.mp hv
    have hsound :
        (v.tokens.all Token.isMeaningful && nestsWithin maxRecordDepth 0 v.tokens) = true := by
      by_contra hfaulty
      rw [guard, if_neg hfaulty] at hguard
      cases hguard
    obtain ⟨hdecodable, hnests⟩ := (checks_iff v).mp hsound
    exact ⟨v, written_of_scan? hscan, hdecodable, hnests, ha⟩
  · rintro ⟨v, hwritten, hdecodable, hnests, ha⟩
    refine Option.bind_eq_some_iff.mpr ⟨_, scan?_of_written hwritten (separated_tokens v), ?_⟩
    refine Option.bind_eq_some_iff.mpr ⟨(), if_pos ((checks_iff v).mpr ⟨hdecodable, hnests⟩), ?_⟩
    exact Option.bind_eq_some_iff.mpr ⟨v, Value.ofTokens?_eq_some_iff.mpr rfl, ha⟩

/-- The text under a name, if the name is given once and as a string. -/
def textUnder? (name : String) (named : List (String × Value)) : Option String :=
  (member? name named).bind fun v? => v?.bind Value.text?

section

variable {members members' : List (Literal × Value)} {named : List (String × Value)}

/-- A text is found under a name exactly if it is given once. -/
theorem textUnder?_iff (h : keyed? members = some named) {name text : String} :
    textUnder? name named = some text ↔ GivenOnce name text members := by
  constructor
  · intro htext
    obtain ⟨v?, hv?, htext⟩ := Option.bind_eq_some_iff.mp htext
    obtain ⟨v, rfl, htext⟩ := Option.bind_eq_some_iff.mp htext
    exact ⟨v, (member?_eq_some_iff h).mp hv?, Value.text?_eq_some_iff.mp htext⟩
  · rintro ⟨v, hv, htext⟩
    unfold textUnder?
    rw [(member?_eq_some_iff h).mpr hv]
    exact Value.text?_eq_some_iff.mpr htext

/-- The comparison that a choice between two names is written with. -/
theorem guard_beq (s t : String) :
    (guard ((s == t) = true) : Option Unit) = if s = t then some () else none := by
  by_cases h : s = t
  · rw [if_pos h]
    exact if_pos (beq_iff_eq.mpr h)
  · rw [if_neg h]
    exact if_neg fun hbeq => h (beq_iff_eq.mp hbeq)

/-- A record is read by its tag, and by its owner if the tag says so. -/
theorem ofMembers?_eq (named : List (String × Value)) :
    ofMembers? named = (textUnder? tagKey named).bind fun tag =>
      if tag = "free" then some .free
      else if tag = "allocated" then (textUnder? ownerKey named).map .owned else none := by
  have hread : ofMembers? named = (textUnder? tagKey named).bind fun tag =>
      if (tag == "free") = true then some .free
      else (guard ((tag == "allocated") = true) : Option Unit).bind fun _ =>
        (textUnder? ownerKey named).map .owned := by
    unfold ofMembers? textUnder?
    rcases member? tagKey named with _ | _ | v
    · rfl
    · rfl
    · rcases member? ownerKey named with _ | _ | owner
      · rfl
      · rfl
      · rw [Option.bind_some, Option.bind_some, Option.map_eq_bind]
        rfl
  rw [hread]
  cases textUnder? tagKey named with
  | none => rfl
  | some tag =>
    show (if (tag == "free") = true then some Allocation.free
      else (guard ((tag == "allocated") = true) : Option Unit).bind fun _ =>
        (textUnder? ownerKey named).map .owned) = if tag = "free" then some Allocation.free else _
    by_cases hfree : tag = "free"
    · rw [if_pos hfree, if_pos (beq_iff_eq.mpr hfree)]
    · rw [if_neg hfree, if_neg fun hbeq => hfree (beq_iff_eq.mp hbeq), guard_beq]
      split <;> rfl

/-- Members are the record of a free device exactly if the tag says so, once. -/
theorem ofMembers?_eq_free_iff (h : keyed? members = some named) :
    ofMembers? named = some .free ↔ GivenOnce tagKey "free" members := by
  rw [ofMembers?_eq, ← textUnder?_iff h]
  cases textUnder? tagKey named with
  | none => simp
  | some tag =>
    by_cases hfree : tag = "free"
    · simp [hfree]
    · cases textUnder? ownerKey named <;> simp [hfree]

/-- Members are the record of a bound device exactly if the tag says so and the owner is given, each
once. -/
theorem ofMembers?_eq_owned_iff (h : keyed? members = some named) {volume : String} :
    ofMembers? named = some (.owned volume) ↔
      GivenOnce tagKey "allocated" members ∧ GivenOnce ownerKey volume members := by
  rw [ofMembers?_eq, ← textUnder?_iff h, ← textUnder?_iff h]
  cases textUnder? tagKey named with
  | none => simp
  | some tag =>
    by_cases hallocated : tag = "allocated"
    · subst hallocated
      simp
    · by_cases hfree : tag = "free" <;> simp [hfree, hallocated]

/-- The two lists of members differ only in their order and in members of other names. -/
def AgreeOnKnown (members members' : List (Literal × Value)) : Prop :=
  ∃ known others others', members.Perm (known ++ others) ∧ members'.Perm (known ++ others') ∧
    ∀ m ∈ others ++ others', ¬ IsNamed tagKey m ∧ ¬ IsNamed ownerKey m

/-- It does not matter which of the two lists comes first. -/
theorem AgreeOnKnown.symm (h : AgreeOnKnown members members') : AgreeOnKnown members' members := by
  obtain ⟨known, others, others', hperm, hperm', hothers⟩ := h
  refine ⟨known, others', others, hperm', hperm, fun m hm => hothers m ?_⟩
  exact (List.perm_append_comm.mem_iff).mp hm

/-- What is given once under one of the known keys is given once in both lists. -/
theorem AgreeOnKnown.givenOnce (h : AgreeOnKnown members members') {name text : String}
    (hname : name = tagKey ∨ name = ownerKey) (hgiven : GivenOnce name text members) :
    GivenOnce name text members' := by
  obtain ⟨known, others, others', hperm, hperm', hothers⟩ := h
  have hlacks : ∀ m ∈ others ++ others', ¬ IsNamed name m := by
    intro m hm
    rcases hname with rfl | rfl
    · exact (hothers m hm).1
    · exact (hothers m hm).2
  obtain ⟨v, hv, htext⟩ := hgiven
  have hknown : HasOnce name v known :=
    (hasOnce_append fun m hm => hlacks m (List.mem_append_left _ hm)).mp (hv.perm hperm)
  have hv' : HasOnce name v (known ++ others') :=
    (hasOnce_append fun m hm => hlacks m (List.mem_append_right _ hm)).mpr hknown
  exact ⟨v, hv'.perm hperm'.symm, htext⟩

end

/-- The text is an object whose members have meaning and do not nest too deep. -/
structure IsObjectText (s : String) (members : List (Literal × Value)) : Prop where
  written : (Value.object members).WrittenAs s
  decodable : (Value.object members).IsDecodable
  nests : (Value.object members).NestsWithin maxRecordDepth

namespace IsObjectText

variable {s : String} {members : List (Literal × Value)}

/-- The text of an object is decoded by its members. -/
theorem decode?_eq (h : IsObjectText s members) : decode? s = ofValue? (.object members) := by
  cases ha : ofValue? (.object members) with
  | some a => exact decode?_eq_some_iff.mpr ⟨_, h.written, h.decodable, h.nests, ha⟩
  | none =>
    rw [Option.eq_none_iff_forall_ne_some]
    intro a hdecode
    obtain ⟨v, hv, -, -, hva⟩ := decode?_eq_some_iff.mp hdecode
    obtain rfl : v = .object members := Option.some.inj
      ((Value.parse?_eq_some_iff.mpr hv).symm.trans (Value.parse?_eq_some_iff.mpr h.written))
    rw [ha] at hva
    cases hva

/-- The members of such a text bear names, and decide. -/
theorem exists_keyed? (h : IsObjectText s members) :
    ∃ named, keyed? members = some named ∧ decode? s = ofMembers? named := by
  obtain _ | _ | _ | _ | _ | ⟨hnamed, -⟩ := h.decodable
  obtain ⟨named, hkeyed⟩ := exists_keyed?_iff.mpr hnamed
  refine ⟨named, hkeyed, ?_⟩
  rw [h.decode?_eq, ofValue?, hkeyed]
  rfl

/-- The text is the record of a free device exactly if its tag says so. -/
theorem decode?_eq_free_iff (h : IsObjectText s members) :
    decode? s = some .free ↔ GivenOnce tagKey "free" members := by
  obtain ⟨named, hkeyed, hdecode⟩ := h.exists_keyed?
  rw [hdecode]
  exact ofMembers?_eq_free_iff hkeyed

/-- The text is the record of a bound device exactly if its tag and its owner say so. -/
theorem decode?_eq_owned_iff (h : IsObjectText s members) {volume : String} :
    decode? s = some (.owned volume) ↔
      GivenOnce tagKey "allocated" members ∧ GivenOnce ownerKey volume members := by
  obtain ⟨named, hkeyed, hdecode⟩ := h.exists_keyed?
  rw [hdecode]
  exact ofMembers?_eq_owned_iff hkeyed

/-- Texts whose known members agree are decoded alike. -/
theorem decode?_eq_of_agree {s' : String} {members' : List (Literal × Value)}
    (h : IsObjectText s members) (h' : IsObjectText s' members')
    (hagree : AgreeOnKnown members members') : decode? s = decode? s' := by
  refine Option.ext fun a => ?_
  cases a with
  | free =>
    rw [h.decode?_eq_free_iff, h'.decode?_eq_free_iff]
    exact ⟨hagree.givenOnce (.inl rfl), hagree.symm.givenOnce (.inl rfl)⟩
  | owned volume =>
    rw [h.decode?_eq_owned_iff, h'.decode?_eq_owned_iff]
    exact and_congr ⟨hagree.givenOnce (.inl rfl), hagree.symm.givenOnce (.inl rfl)⟩
      ⟨hagree.givenOnce (.inr rfl), hagree.symm.givenOnce (.inr rfl)⟩

/-- A text that is parsed as an object and passes the checks is the text of its members. -/
theorem of_parse? (hparse : Value.parse? s = some (.object members))
    (hchecks : ((Value.object members).tokens.all Token.isMeaningful &&
      nestsWithin maxRecordDepth 0 (Value.object members).tokens) = true) :
    IsObjectText s members := by
  obtain ⟨hdecodable, hnests⟩ := (checks_iff _).mp hchecks
  exact ⟨Value.parse?_eq_some_iff.mp hparse, hdecodable, hnests⟩

end IsObjectText

/-- The tree names the owner, under its key or in its place. -/
inductive NamesOwner (volume : String) : Value → Prop
  | object {members : List (Literal × Value)} :
      GivenOnce ownerKey volume members → NamesOwner volume (.object members)
  | array {tag owner : Value} :
      tag.IsString "allocated" → owner.IsString volume → NamesOwner volume (.array [tag, owner])

/-- A tree that is read as the record of an owner names it. -/
theorem namesOwner_of_ofValue? {v : Value} {volume : String}
    (h : ofValue? v = some (.owned volume)) : NamesOwner volume v := by
  cases v with
  | object members =>
    obtain ⟨named, hkeyed, h⟩ := Option.bind_eq_some_iff.mp h
    exact .object ((ofMembers?_eq_owned_iff hkeyed).mp h).2
  | array items =>
    obtain ⟨texts, htexts, h⟩ := Option.bind_eq_some_iff.mp h
    split at h
    · cases h
    · next name =>
      obtain rfl : name = volume := by simpa using h
      have hitems := mapM_text?_iff.mp htexts
      obtain ⟨tag, rest, htag, hrest, rfl⟩ := List.forall₂_cons_right_iff.mp hitems
      obtain ⟨owner, rest, howner, hend, rfl⟩ := List.forall₂_cons_right_iff.mp hrest
      obtain rfl := List.forall₂_nil_right_iff.mp hend
      exact .array htag howner
    · cases h
  | null => cases h
  | bool b => cases h
  | number written => cases h
  | string l => cases h

/-- Among objects, in whatever order their members stand and whatever else they hold, exactly those
are records whose tag is given once and is a known one, and which give the owner once where the tag
asks for it.  No text at all binds a device without naming the owner. -/
theorem tagged_records_decoded :
    (∀ (s : String) (members : List (Literal × Value)), IsObjectText s members →
      (decode? s = some .free ↔ GivenOnce tagKey "free" members) ∧
      (∀ volume, decode? s = some (.owned volume) ↔
        GivenOnce tagKey "allocated" members ∧ GivenOnce ownerKey volume members) ∧
      (decode? s = none ↔ ¬ GivenOnce tagKey "free" members ∧
        ∀ volume, ¬ (GivenOnce tagKey "allocated" members ∧ GivenOnce ownerKey volume members)) ∧
      ∀ (s' : String) (members' : List (Literal × Value)), IsObjectText s' members' →
        AgreeOnKnown members members' → decode? s = decode? s') ∧
    ∀ (s volume : String), decode? s = some (.owned volume) →
      ∃ v : Value, v.WrittenAs s ∧ NamesOwner volume v := by
  refine ⟨fun s members h => ⟨h.decode?_eq_free_iff, fun _ => h.decode?_eq_owned_iff, ?_,
    fun s' members' h' hagree => h.decode?_eq_of_agree h' hagree⟩, fun s volume h => ?_⟩
  · rw [← h.decode?_eq_free_iff, Option.eq_none_iff_forall_ne_some]
    constructor
    · intro hnone
      exact ⟨hnone .free, fun volume hgiven => hnone _ (h.decode?_eq_owned_iff.mpr hgiven)⟩
    · rintro ⟨hfree, howned⟩ a ha
      cases a with
      | free => exact hfree ha
      | owned volume => exact howned volume (h.decode?_eq_owned_iff.mp ha)
  · obtain ⟨v, hv, -, -, ha⟩ := decode?_eq_some_iff.mp h
    exact ⟨v, hv, namesOwner_of_ofValue? ha⟩

/-- The members of a record with its owner first, a member beside it and its tag last. -/
def tagLastMembers : List (Literal × Value) :=
  [(Literal.ofText ownerKey, .string (Literal.ofText "vol-1")),
    (Literal.ofText "x", .array [.number ['1']]),
    ([.code 0x73, .plain 't', .plain 'a', .plain 't', .plain 'e'],
      .string (Literal.ofText "allocated"))]

/-- The text of these members. -/
def tagLastText : String :=
  "\x7b\"owner_volume\":\"vol-1\",\"x\":[1],\"\\u0073tate\":\"allocated\"\x7d"

/-- The same members with the tag first, the owner given again, and no other member. -/
def ownedTwiceMembers : List (Literal × Value) :=
  [(Literal.ofText tagKey, .string (Literal.ofText "allocated")),
    (Literal.ofText ownerKey, .string (Literal.ofText "vol-1")),
    (Literal.ofText ownerKey, .string (Literal.ofText "vol-1"))]

/-- The text of these members. -/
def ownedTwiceText : String :=
  "\x7b\"state\":\"allocated\",\"owner_volume\":\"vol-1\",\"owner_volume\":\"vol-1\"\x7d"

/-- The tag may come last and be spelled with an escape, among other members.  The owner may not be
given twice, even if it is the same. -/
theorem tag_last_record_decoded :
    decode? tagLastText = some (.owned "vol-1") ∧ decode? ownedTwiceText = none := by
  obtain ⟨hobjects, -⟩ := tagged_records_decoded
  have hlast : IsObjectText tagLastText tagLastMembers := .of_parse? (by rfl) (by decide)
  have htwice : IsObjectText ownedTwiceText ownedTwiceMembers := .of_parse? (by rfl) (by decide)
  obtain ⟨-, howned, -⟩ := hobjects _ _ hlast
  obtain ⟨-, -, hnone, -⟩ := hobjects _ _ htwice
  have howner : GivenOnce tagKey "allocated" tagLastMembers ∧
      GivenOnce ownerKey "vol-1" tagLastMembers := by decide
  have hrefused : ¬ GivenOnce tagKey "free" ownedTwiceMembers ∧
      ∀ volume, ¬ (GivenOnce tagKey "allocated" ownedTwiceMembers ∧
        GivenOnce ownerKey volume ownedTwiceMembers) := by
    refine ⟨by decide, ?_⟩
    rintro volume ⟨-, hgiven⟩
    rw [givenOnce_iff] at hgiven
    cases hgiven
  exact ⟨(howned "vol-1").mpr howner, hnone.mpr hrefused⟩

end VolumeBroker.Allocation
