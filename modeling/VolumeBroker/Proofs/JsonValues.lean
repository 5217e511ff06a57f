import VolumeBroker.Json.Value
import VolumeBroker.Proofs.JsonTokens

/-!
# How values are written in JSON

A value keeps its strings and numbers as they are written, so it has exactly one list of tokens, and
a text is a text of the value when it is a text of these.  `parse?_eq_some_iff` says that the reader
takes exactly the texts of values and gives each of them its value.

What a string means is said by `Literal.Means`: each piece gives a character, but for the two halves
of a pair, which give one together.
-/

set_option autoImplicit false

namespace VolumeBroker.Json

/-! ## The tokens of a value -/

mutual

/-- The tokens that a value is written with. -/
def Value.tokens : Value → List Token
  | .null => [.null]
  | .bool b => [.bool b]
  | .number written => [.number written]
  | .string written => [.string written]
  | .array items => .openBracket :: (itemTokens items ++ [.closeBracket])
  | .object members => .openBrace :: (memberTokens members ++ [.closeBrace])

/-- The tokens between the brackets of an array. -/
def itemTokens : List Value → List Token
  | [] => []
  | [v] => v.tokens
  | v :: rest => v.tokens ++ .comma :: itemTokens rest

/-- The tokens between the braces of an object. -/
def memberTokens : List (Literal × Value) → List Token
  | [] => []
  | [(key, v)] => .string key :: .colon :: v.tokens
  | (key, v) :: rest => .string key :: .colon :: (v.tokens ++ .comma :: memberTokens rest)

end

/-- The text is a text of the value. -/
def Value.WrittenAs (v : Value) (s : String) : Prop := Written v.tokens s.toList

/-- What holds of a value if it holds of all values in it, holds of all values. -/
theorem Value.induction {P : Value → Prop} (null : P .null) (bool : ∀ b, P (.bool b))
    (number : ∀ written, P (.number written)) (string : ∀ written, P (.string written))
    (array : ∀ items, (∀ v ∈ items, P v) → P (.array items))
    (object : ∀ members, (∀ m ∈ members, P m.2) → P (.object members)) : ∀ v, P v
  | .null => null
  | .bool b => bool b
  | .number written => number written
  | .string written => string written
  | .array items => array items fun v _ => induction null bool number string array object v
  | .object members => object members fun m _ => induction null bool number string array object m.2
termination_by v => sizeOf v
decreasing_by
  · simp_wf
    have hlt := List.sizeOf_lt_of_mem ‹v ∈ items›
    omega
  · simp_wf
    have hlt := List.sizeOf_lt_of_mem ‹m ∈ members›
    have hm : sizeOf m = 1 + sizeOf m.1 + sizeOf m.2 := rfl
    omega

/-- Two items have a comma between them. -/
theorem itemTokens_cons_cons (v w : Value) (rest : List Value) :
    itemTokens (v :: w :: rest) = v.tokens ++ .comma :: itemTokens (w :: rest) := by
  rw [itemTokens.eq_3]
  simp

/-- Two members have a comma between them. -/
theorem memberTokens_cons_cons (m n : Literal × Value) (rest : List (Literal × Value)) :
    memberTokens (m :: n :: rest) = memberTokens [m] ++ .comma :: memberTokens (n :: rest) := by
  obtain ⟨key, v⟩ := m
  rw [memberTokens.eq_3]
  · rfl
  · simp

/-- Before the last item each has a comma after it. -/
theorem itemTokens_concat (items : List Value) (v : Value) :
    itemTokens (items ++ [v]) = items.flatMap (fun w => w.tokens ++ [.comma]) ++ v.tokens := by
  induction items with
  | nil => rfl
  | cons w rest ih =>
    cases rest with
    | nil => simp [itemTokens]
    | cons w' rest =>
      rw [List.cons_append, List.cons_append, itemTokens_cons_cons, ← List.cons_append, ih]
      simp

/-- Before the last member each has a comma after it. -/
theorem memberTokens_concat (members : List (Literal × Value)) (m : Literal × Value) :
    memberTokens (members ++ [m]) =
      members.flatMap (fun n => memberTokens [n] ++ [.comma]) ++ memberTokens [m] := by
  induction members with
  | nil => rfl
  | cons n rest ih =>
    cases rest with
    | nil => rw [List.cons_append, List.nil_append, memberTokens_cons_cons]; simp
    | cons n' rest =>
      rw [List.cons_append, List.cons_append, memberTokens_cons_cons, ← List.cons_append, ih]
      simp

/-! ## Words and numbers stand apart -/

/-- A mark keeps what is before it apart from what is after it. -/
theorem Separated.append_cons {ts ts' : List Token} {t : Token} (h : Separated ts)
    (ht : t.isOpenEnded = false) (h' : Separated ts') : Separated (ts ++ t :: ts') := by
  refine List.isChain_append.mpr ⟨h, List.isChain_cons.mpr ⟨fun _ _ => .inl ht, h'⟩, ?_⟩
  intro x _ y hy
  obtain rfl : t = y := Option.some.inj hy
  exact .inr ht

/-- A mark may stand first. -/
theorem Separated.cons {ts : List Token} {t : Token} (ht : t.isOpenEnded = false)
    (h : Separated ts) : Separated (t :: ts) :=
  Separated.append_cons .nil ht h

/-- Items are kept apart by their commas. -/
theorem separated_itemTokens {items : List Value} (h : ∀ v ∈ items, Separated v.tokens) :
    Separated (itemTokens items) := by
  induction items with
  | nil => exact .nil
  | cons v rest ih =>
    obtain ⟨hv, hrest⟩ := List.forall_mem_cons.mp h
    cases rest with
    | nil => exact hv
    | cons w rest =>
      rw [itemTokens_cons_cons]
      exact hv.append_cons rfl (ih hrest)

/-- Members are kept apart by their commas. -/
theorem separated_memberTokens {members : List (Literal × Value)}
    (h : ∀ m ∈ members, Separated m.2.tokens) : Separated (memberTokens members) := by
  induction members with
  | nil => exact .nil
  | cons m rest ih =>
    obtain ⟨hm, hrest⟩ := List.forall_mem_cons.mp h
    have hone : Separated (memberTokens [m]) := .cons rfl (.cons rfl hm)
    cases rest with
    | nil => exact hone
    | cons n rest =>
      rw [memberTokens_cons_cons]
      exact hone.append_cons rfl (ih hrest)

/-- The words and numbers of a value are kept apart. -/
theorem separated_tokens (v : Value) : Separated v.tokens := by
  induction v using Value.induction with
  | null => exact .singleton _
  | bool b => exact .singleton _
  | number written => exact .singleton _
  | string written => exact .singleton _
  | array items ih =>
    exact .cons rfl ((separated_itemTokens ih).append_cons rfl .nil)
  | object members ih =>
    exact .cons rfl ((separated_memberTokens ih).append_cons rfl .nil)

namespace Reading

/-! ## The tokens of a value are read as the value -/

/-- The reading takes the first token of a value that is to stand in these frames. -/
def Awaits (r : Reading) (frames : List Frame) : Prop :=
  ∀ t : Token, t ≠ .closeBracket → r.step t = open? frames t

/-- After an opening bracket the first item is awaited. -/
theorem awaits_firstItem (frames : List Frame) :
    Awaits ⟨frames, .firstItem⟩ (.array [] :: frames) := by
  intro t ht
  cases t <;> first | rfl | exact absurd rfl ht

/-- The tokens of the value are read as the value, wherever it stands. -/
def Reads (v : Value) : Prop :=
  ∀ (r : Reading) (frames : List Frame), r.Awaits frames →
    v.tokens.foldlM Reading.step r = some (close frames v)

/-- The items of an array are read in their order. -/
theorem run_items {items : List Value} (h : ∀ v ∈ items, Reads v) (hne : items ≠ [])
    {r : Reading} {frames : List Frame} {done : List Value}
    (hr : r.Awaits (.array done :: frames)) :
    (itemTokens items).foldlM Reading.step r =
      some ⟨frames, .afterItem (items.reverse ++ done)⟩ := by
  induction items generalizing r done with
  | nil => exact absurd rfl hne
  | cons v rest ih =>
    obtain ⟨hv, hrest⟩ := List.forall_mem_cons.mp h
    have hread := hv r (.array done :: frames) hr
    cases rest with
    | nil => exact hread
    | cons w rest =>
      rw [itemTokens_cons_cons, List.foldlM_append, hread]
      have hmore := @ih hrest (List.cons_ne_nil w rest) ⟨.array (v :: done) :: frames, .value⟩
        (v :: done) fun _ _ => rfl
      have hcomma : (close (.array done :: frames) v).step .comma =
          some ⟨.array (v :: done) :: frames, .value⟩ := rfl
      simpa [hcomma] using hmore

/-- The members of an object are read in their order. -/
theorem run_members {members : List (Literal × Value)} (h : ∀ m ∈ members, Reads m.2)
    (hne : members ≠ []) {r : Reading} {frames : List Frame} {done : List (Literal × Value)}
    (hr : ∀ key : Literal, r.step (.string key) = some ⟨frames, .colon done key⟩) :
    (memberTokens members).foldlM Reading.step r =
      some ⟨frames, .afterMember (members.reverse ++ done)⟩ := by
  induction members generalizing r done with
  | nil => exact absurd rfl hne
  | cons m rest ih =>
    obtain ⟨hm, hrest⟩ := List.forall_mem_cons.mp h
    have hread : (memberTokens [m]).foldlM Reading.step r =
        some ⟨frames, .afterMember (m :: done)⟩ := by
      have hvalue := hm ⟨.object done m.1 :: frames, .value⟩ (.object done m.1 :: frames)
        fun _ _ => rfl
      rw [show memberTokens [m] = .string m.1 :: .colon :: m.2.tokens from rfl, List.foldlM_cons,
        hr m.1]
      exact hvalue
    cases rest with
    | nil => exact hread
    | cons n rest =>
      rw [memberTokens_cons_cons, List.foldlM_append, hread]
      have hmore := @ih hrest (List.cons_ne_nil n rest) ⟨frames, .key (m :: done)⟩ (m :: done)
        fun _ => rfl
      have hcomma : Reading.step ⟨frames, .afterMember (m :: done)⟩ .comma =
          some ⟨frames, .key (m :: done)⟩ := rfl
      simpa [hcomma] using hmore

/-- A value of one token is read. -/
theorem reads_of_tokens_eq {v : Value} {t : Token} (htokens : v.tokens = [t])
    (ht : t ≠ .closeBracket) (hopen : ∀ frames, open? frames t = some (close frames v)) :
    Reads v := by
  intro r frames hr
  rw [htokens, List.foldlM_cons, hr t ht, hopen frames]
  rfl

/-- The tokens of every value are read as that value. -/
theorem reads (v : Value) : Reads v := by
  induction v using Value.induction with
  | null => exact reads_of_tokens_eq rfl (by simp) fun _ => rfl
  | bool b => exact reads_of_tokens_eq rfl (by simp) fun _ => rfl
  | number written => exact reads_of_tokens_eq rfl (by simp) fun _ => rfl
  | string written => exact reads_of_tokens_eq rfl (by simp) fun _ => rfl
  | array items ih =>
    intro r frames hr
    -- An empty array is closed at its first item, any other after the last.
    have hitems : (itemTokens items ++ [Token.closeBracket]).foldlM step ⟨frames, .firstItem⟩ =
        some (close frames (.array items)) := by
      cases items with
      | nil => rfl
      | cons v rest =>
        rw [List.foldlM_append, run_items ih (List.cons_ne_nil v rest) (awaits_firstItem frames),
          List.append_nil]
        have hclose : step ⟨frames, .afterItem (v :: rest).reverse⟩ .closeBracket =
            some (close frames (.array (v :: rest).reverse.reverse)) := rfl
        rw [List.reverse_reverse] at hclose
        show [Token.closeBracket].foldlM step ⟨frames, .afterItem (v :: rest).reverse⟩ = _
        rw [List.foldlM_cons, hclose]
        rfl
    rw [Value.tokens, List.foldlM_cons, hr .openBracket (by simp)]
    exact hitems
  | object members ih =>
    intro r frames hr
    have hmembers : (memberTokens members ++ [Token.closeBrace]).foldlM step ⟨frames, .firstKey⟩ =
        some (close frames (.object members)) := by
      cases members with
      | nil => rfl
      | cons m rest =>
        rw [List.foldlM_append, run_members ih (List.cons_ne_nil m rest) fun _ => rfl,
          List.append_nil]
        have hclose : step ⟨frames, .afterMember (m :: rest).reverse⟩ .closeBrace =
            some (close frames (.object (m :: rest).reverse.reverse)) := rfl
        rw [List.reverse_reverse] at hclose
        show [Token.closeBrace].foldlM step ⟨frames, .afterMember (m :: rest).reverse⟩ = _
        rw [List.foldlM_cons, hclose]
        rfl
    rw [Value.tokens, List.foldlM_cons, hr .openBrace (by simp)]
    exact hmembers

/-! ## What a reading has read -/

end Reading

/-- The tokens of a container up to the place in it that is being read. -/
def Frame.tokens : Frame → List Token
  | .array items => .openBracket :: items.reverse.flatMap fun v => v.tokens ++ [.comma]
  | .object members key =>
    .openBrace :: (members.reverse.flatMap (fun m => memberTokens [m] ++ [.comma]) ++
      [.string key, .colon])

/-- The tokens that have been read of what is open at this place. -/
def Expect.tokens : Expect → List Token
  | .value => []
  | .firstItem => [.openBracket]
  | .afterItem items => .openBracket :: itemTokens items.reverse
  | .firstKey => [.openBrace]
  | .key members => .openBrace :: members.reverse.flatMap fun m => memberTokens [m] ++ [.comma]
  | .colon members name =>
    .openBrace ::
      (members.reverse.flatMap (fun m => memberTokens [m] ++ [.comma]) ++ [.string name])
  | .afterMember members => .openBrace :: memberTokens members.reverse
  | .nothing v => v.tokens

namespace Reading

/-- The tokens of the containers around the place being read, as far as they have been read. -/
def outerTokens (frames : List Frame) : List Token := frames.reverse.flatMap Frame.tokens

/-- The tokens that a reading has taken in so far. -/
def tokens (r : Reading) : List Token := outerTokens r.frames ++ r.expect.tokens

/-- Something stands before a comma, and nothing around a value that ends the text. -/
def IsProper (r : Reading) : Prop :=
  match r.expect with
  | .afterItem items => items ≠ []
  | .afterMember members => members ≠ []
  | .nothing _ => r.frames = []
  | _ => True

/-- The innermost container comes last. -/
theorem outerTokens_cons (f : Frame) (frames : List Frame) :
    outerTokens (f :: frames) = outerTokens frames ++ f.tokens := by
  simp [outerTokens]

/-- A value that has ended has had all its tokens read. -/
theorem tokens_close (frames : List Frame) (v : Value) :
    (close frames v).tokens = outerTokens frames ++ v.tokens ∧ (close frames v).IsProper := by
  cases frames with
  | nil => exact ⟨rfl, rfl⟩
  | cons f frames =>
    rw [outerTokens_cons, List.append_assoc]
    cases f with
    | array items =>
      refine ⟨congrArg (outerTokens frames ++ ·) ?_, List.cons_ne_nil v items⟩
      show (Expect.afterItem (v :: items)).tokens = (Frame.array items).tokens ++ v.tokens
      simp [Expect.tokens, Frame.tokens, itemTokens_concat]
    | object members key =>
      refine ⟨congrArg (outerTokens frames ++ ·) ?_, List.cons_ne_nil (key, v) members⟩
      show (Expect.afterMember ((key, v) :: members)).tokens =
        (Frame.object members key).tokens ++ v.tokens
      simp [Expect.tokens, Frame.tokens, memberTokens_concat, memberTokens]

/-- A token that begins a value is read. -/
theorem tokens_open? {frames : List Frame} {t : Token} {r : Reading} (h : open? frames t = some r) :
    r.tokens = outerTokens frames ++ [t] ∧ r.IsProper := by
  cases t <;> simp only [open?, reduceCtorEq, Option.some.injEq] at h <;> subst h
  case openBrace => exact ⟨rfl, trivial⟩
  case openBracket => exact ⟨rfl, trivial⟩
  all_goals exact tokens_close frames _

/-- A comma after items is the comma of the last of them. -/
theorem comma_after_items {items : List Value} (hne : items ≠ []) :
    itemTokens items.reverse ++ [.comma] =
      items.reverse.flatMap fun v => v.tokens ++ [.comma] := by
  obtain ⟨v, rest, rfl⟩ := List.exists_cons_of_ne_nil hne
  simp [itemTokens_concat]

/-- A comma after members is the comma of the last of them. -/
theorem comma_after_members {members : List (Literal × Value)} (hne : members ≠ []) :
    memberTokens members.reverse ++ [.comma] =
      members.reverse.flatMap fun m => memberTokens [m] ++ [.comma] := by
  obtain ⟨m, rest, rfl⟩ := List.exists_cons_of_ne_nil hne
  simp [memberTokens_concat]

/-- A token that ends a value keeps the reading in step. -/
theorem tokens_close_of_eq (frames : List Frame) {e : Expect} {t : Token} {v : Value}
    (hv : v.tokens = e.tokens ++ [t]) :
    (close frames v).tokens = (⟨frames, e⟩ : Reading).tokens ++ [t] ∧
      (close frames v).IsProper := by
  have htokens := tokens_close frames v
  rw [hv, ← List.append_assoc] at htokens
  exact htokens

/-- A token that leads into a container keeps the reading in step. -/
theorem tokens_enter (frames : List Frame) {e : Expect} {t : Token} {f : Frame}
    (hf : f.tokens = e.tokens ++ [t]) :
    (⟨f :: frames, .value⟩ : Reading).tokens = (⟨frames, e⟩ : Reading).tokens ++ [t] := by
  simp [tokens, outerTokens_cons, hf, Expect.tokens]

/-- A token within a container keeps the reading in step. -/
theorem tokens_move (frames : List Frame) {e e' : Expect} {t : Token}
    (he : e'.tokens = e.tokens ++ [t]) :
    (⟨frames, e'⟩ : Reading).tokens = (⟨frames, e⟩ : Reading).tokens ++ [t] := by
  simp [tokens, he]

/-- One token more has been read after each step. -/
theorem tokens_step {r r' : Reading} {t : Token} (hr : r.IsProper) (h : r.step t = some r') :
    r'.tokens = r.tokens ++ [t] ∧ r'.IsProper := by
  obtain ⟨frames, expect⟩ := r
  cases expect with
  | value =>
    have htokens := tokens_open? h
    simpa [tokens, Expect.tokens] using htokens
  | firstItem =>
    by_cases ht : t = .closeBracket
    · subst ht
      obtain rfl := Option.some.inj h
      exact tokens_close_of_eq frames rfl
    · rw [awaits_firstItem frames t ht] at h
      have htokens := tokens_open? h
      rw [outerTokens_cons] at htokens
      exact htokens
  | nothing v => contradiction
  | afterItem items =>
    -- a comma turns the items into the frame that holds them
    cases t <;> first | contradiction | obtain rfl := Option.some.inj h
    case closeBracket => exact tokens_close_of_eq frames rfl
    case comma =>
      refine ⟨tokens_enter frames ?_, trivial⟩
      simpa [Frame.tokens, Expect.tokens] using (comma_after_items hr).symm
  | firstKey =>
    cases t <;> first | contradiction | obtain rfl := Option.some.inj h
    case closeBrace => exact tokens_close_of_eq frames rfl
    case string key => exact ⟨tokens_move frames rfl, trivial⟩
  | key members =>
    cases t <;> first | contradiction | obtain rfl := Option.some.inj h
    case string key => exact ⟨tokens_move frames rfl, trivial⟩
  | colon members key =>
    cases t <;> first | contradiction | obtain rfl := Option.some.inj h
    case colon =>
      refine ⟨tokens_enter frames ?_, trivial⟩
      simp [Frame.tokens, Expect.tokens]
  | afterMember members =>
    cases t <;> first | contradiction | obtain rfl := Option.some.inj h
    case closeBrace => exact tokens_close_of_eq frames rfl
    case comma =>
      refine ⟨tokens_move frames ?_, trivial⟩
      simpa [Expect.tokens] using (comma_after_members hr).symm

/-- A reading keeps in step with the tokens as long as it goes on. -/
theorem tokens_run {r r' : Reading} {ts : List Token} (hr : r.IsProper)
    (h : ts.foldlM Reading.step r = some r') : r'.tokens = r.tokens ++ ts ∧ r'.IsProper := by
  induction ts generalizing r with
  | nil =>
    obtain rfl := Option.some.inj h
    exact ⟨(List.append_nil _).symm, hr⟩
  | cons t ts ih =>
    rw [List.foldlM_cons] at h
    obtain ⟨r₁, hstep, hrest⟩ := Option.bind_eq_some_iff.mp h
    obtain ⟨htokens, hproper⟩ := tokens_step hr hstep
    have hread := ih hproper hrest
    rwa [htokens, List.append_assoc] at hread

end Reading

namespace Value

/-- The reader of tokens takes the tokens of a value, and no others. -/
theorem ofTokens?_eq_some_iff {ts : List Token} {v : Value} :
    ofTokens? ts = some v ↔ ts = v.tokens := by
  constructor
  · intro h
    obtain ⟨⟨frames, expect⟩, hrun, hfinish⟩ := Option.bind_eq_some_iff.mp h
    obtain ⟨htokens, hproper⟩ := @Reading.tokens_run {} _ ts trivial hrun
    cases expect <;> first | contradiction | obtain rfl := Option.some.inj hfinish
    case nothing v =>
      obtain rfl : frames = [] := hproper
      exact htokens.symm
  · rintro rfl
    have hread := Reading.reads v {} [] fun _ _ => rfl
    unfold ofTokens?
    rw [hread]
    rfl

/-- The reader takes the texts of values, and no others. -/
theorem parse?_eq_some_iff {s : String} {v : Value} : parse? s = some v ↔ v.WrittenAs s := by
  constructor
  · intro h
    obtain ⟨ts, hscan, hts⟩ := Option.bind_eq_some_iff.mp h
    obtain rfl := ofTokens?_eq_some_iff.mp hts
    exact written_of_scan? hscan
  · intro h
    unfold parse?
    rw [scan?_of_written h (separated_tokens v)]
    exact ofTokens?_eq_some_iff.mpr rfl

end Value

/-! ## What strings mean -/

namespace Literal

/-- The pieces stand for the characters. -/
inductive Means : Literal → List Char → Prop
  | nil : Means [] []
  | plain {c : Char} {l : Literal} {cs : List Char} : Means l cs → Means (.plain c :: l) (c :: cs)
  | escape {letter c : Char} {l : Literal} {cs : List Char} :
      escaped? letter = some c → Means l cs → Means (.escape letter :: l) (c :: cs)
  | code {unit : Nat} {l : Literal} {cs : List Char} :
      isHighSurrogate unit = false → isLowSurrogate unit = false → Means l cs →
      Means (.code unit :: l) (Char.ofNat unit :: cs)
  | pair {high low : Nat} {l : Literal} {cs : List Char} :
      isHighSurrogate high = true → isLowSurrogate low = true → Means l cs →
      Means (.code high :: .code low :: l) (pairedChar high low :: cs)

/-- What pieces stand for is what they are decoded to. -/
theorem decodeAfter_of_means {l : Literal} {cs : List Char} (h : l.Means cs) :
    decodeAfter none l = some cs := by
  induction h with
  | nil => rfl
  | plain _ ih => simp [decodeAfter, ih]
  | escape hletter _ ih => simp [decodeAfter, hletter, ih]
  | code hhigh hlow _ ih => simp [decodeAfter, hhigh, hlow, ih]
  | pair hhigh hlow _ ih => simp [decodeAfter, hhigh, hlow, ih]

/-- After the first half of a pair its second half comes first. -/
theorem means_of_decodeAfter {l : Literal} : ∀ {high : Option Nat} {cs : List Char},
    (∀ h ∈ high, isHighSurrogate h = true) → decodeAfter high l = some cs →
    Means (high.toList.map Piece.code ++ l) cs := by
  -- On the pieces, with the high surrogate that may still be waiting for its partner.
  induction l with
  | nil =>
    intro high cs _ h
    cases high with
    | none =>
      obtain rfl := Option.some.inj h
      exact .nil
    | some unit => contradiction
  | cons p l ih =>
    intro high cs hhigh h
    cases high with
    | some unit =>
      cases p with
      | plain c => contradiction
      | escape letter => contradiction
      | code low =>
        unfold decodeAfter at h
        dsimp only at h
        split at h
        · next hlow =>
          obtain ⟨rest, hrest, rfl⟩ := Option.map_eq_some_iff.mp h
          exact .pair (hhigh unit rfl) hlow (ih (by simp) hrest)
        · cases h
    | none =>
      cases p with
      | plain c =>
        obtain ⟨rest, hrest, rfl⟩ := Option.map_eq_some_iff.mp h
        exact .plain (ih (by simp) hrest)
      | escape letter =>
        obtain ⟨c, hc, hmap⟩ := Option.bind_eq_some_iff.mp h
        obtain ⟨rest, hrest, rfl⟩ := Option.map_eq_some_iff.mp hmap
        exact .escape hc (ih (by simp) hrest)
      | code unit =>
        unfold decodeAfter at h
        dsimp only at h
        split at h
        · next hunit => exact ih (by simpa using hunit) h
        · next hunit =>
          split at h
          · cases h
          · next hlow =>
            obtain ⟨rest, hrest, rfl⟩ := Option.map_eq_some_iff.mp h
            exact .code (by simpa using hunit) (by simpa using hlow) (ih (by simp) hrest)

/-- A string is decoded to a text exactly if its pieces stand for it. -/
theorem decode?_eq_some_iff {l : Literal} {s : String} :
    l.decode? = some s ↔ l.Means s.toList := by
  constructor
  · intro h
    obtain ⟨cs, hcs, rfl⟩ := Option.map_eq_some_iff.mp h
    rw [String.toList_ofList]
    exact @means_of_decodeAfter l none cs (by simp) hcs
  · intro h
    unfold decode?
    rw [decodeAfter_of_means h]
    simp

end Literal

/-- The value is a string that means the text. -/
inductive Value.IsString (s : String) : Value → Prop
  | intro {l : Literal} : l.Means s.toList → IsString s (.string l)

/-- A value has a text exactly if it is a string that means it. -/
theorem Value.text?_eq_some_iff {v : Value} {s : String} : v.text? = some s ↔ v.IsString s := by
  constructor
  · intro h
    cases v <;> first | contradiction | skip
    case string l => exact ⟨Literal.decode?_eq_some_iff.mp h⟩
  · rintro ⟨h⟩
    exact Literal.decode?_eq_some_iff.mpr h

end VolumeBroker.Json
