import VolumeBroker.Json.Number
import VolumeBroker.Proofs.LeadingRuns

/-!
# How numbers are written in JSON

`IsNumber` is the syntax of number literals, part by part: a sign, a whole part without superfluous
zeros, a fraction and an exponent.  `isSome_read?_iff` says that the reader takes exactly these.
-/

set_option autoImplicit false

namespace VolumeBroker.Json.Number

open Text (IsDigits isDigits_iff)

/-- A zero alone, or digits that do not begin with one. -/
def IsWhole (cs : List Char) : Prop := IsDigits cs ∧ (cs.head? = some '0' → cs = ['0'])

/-- A point with digits after it, or nothing. -/
inductive IsFraction : List Char → Prop
  | none : IsFraction []
  | digits {ds : List Char} : IsDigits ds → IsFraction ('.' :: ds)

/-- An exponent with an optional sign, or nothing. -/
inductive IsExponent : List Char → Prop
  | none : IsExponent []
  | digits {mark : Char} {sign ds : List Char} : mark ∈ ['e', 'E'] → sign ∈ [[], ['+'], ['-']] →
      IsDigits ds → IsExponent (mark :: sign ++ ds)

/-- A number without its sign. -/
def IsUnsigned (cs : List Char) : Prop :=
  ∃ whole fraction exponent, IsWhole whole ∧ IsFraction fraction ∧ IsExponent exponent ∧
    cs = whole ++ (fraction ++ exponent)

/-- A number, with a minus or without. -/
def IsNumber (cs : List Char) : Prop :=
  ∃ sign ∈ [[], ['-']], ∃ rest, IsUnsigned rest ∧ cs = sign ++ rest

/-! ## Digits and what follows them -/

/-- No digit goes on with the number where an exponent begins, or where nothing follows. -/
theorem IsExponent.stops {cs : List Char} (h : IsExponent cs) : Text.Stops Char.isDigit cs := by
  cases h with
  | none => exact Text.stops_nil
  | digits hmark _ _ =>
    rw [List.cons_append, Text.stops_cons]
    simp only [List.mem_cons, List.not_mem_nil, or_false] at hmark
    rcases hmark with rfl | rfl <;> decide

/-- No digit goes on with the whole part where a fraction or an exponent begins. -/
theorem IsFraction.stops {cs exponent : List Char} (h : IsFraction cs) (he : IsExponent exponent) :
    Text.Stops Char.isDigit (cs ++ exponent) := by
  cases h with
  | none => exact he.stops
  | digits _ => exact Text.stops_cons.mpr rfl

/-- An exponent does not begin with a point. -/
theorem IsExponent.head?_ne_point {cs : List Char} (h : IsExponent cs) : cs.head? ≠ some '.' := by
  cases h with
  | none => simp
  | digits hmark _ _ =>
    intro hpoint
    obtain rfl := Option.some.inj hpoint
    revert hmark
    decide

/-! ## The reader -/

/-- What comes after an optional sign. -/
def afterSign : List Char → List Char
  | '+' :: ds => ds
  | '-' :: ds => ds
  | ds => ds

/-- A text is an optional sign and what comes after it. -/
theorem exists_sign (cs : List Char) : ∃ sign ∈ [[], ['+'], ['-']], cs = sign ++ afterSign cs := by
  unfold afterSign
  split <;> simp

/-- Digits have no sign before them. -/
theorem afterSign_of_isDigits {ds : List Char} (h : IsDigits ds) : afterSign ds = ds := by
  unfold afterSign
  split
  · exact absurd (h.2 '+' List.mem_cons_self) (by decide)
  · exact absurd (h.2 '-' List.mem_cons_self) (by decide)
  · rfl

/-- An exponent is read from its mark, its sign and its digits. -/
theorem readExponent?_cons (mark : Char) (rest : List Char) :
    ∃ sign : Int, readExponent? (mark :: rest) =
      if mark != 'e' && mark != 'E' then none
      else if (afterSign rest).isEmpty || !(afterSign rest).all Char.isDigit then none
      else some (sign * Text.digitsValue 10 (afterSign rest)) := by
  fun_cases afterSign rest with
  | case1 ds => exact ⟨1, rfl⟩
  | case2 ds => exact ⟨-1, rfl⟩
  | case3 ds hplus hminus =>
    refine ⟨1, ?_⟩
    unfold readExponent?
    dsimp only
    split
    · rfl
    · split
      · exact absurd rfl (hplus _)
      · exact absurd rfl (hminus _)
      · rfl

/-- An exponent is read exactly if its mark is one and digits follow the sign. -/
theorem isSome_readExponent?_cons {mark : Char} {rest : List Char} :
    (readExponent? (mark :: rest)).isSome ↔ mark ∈ ['e', 'E'] ∧ IsDigits (afterSign rest) := by
  obtain ⟨sign, hread⟩ := readExponent?_cons mark rest
  rw [hread, isDigits_iff]
  by_cases hmark : mark ∈ ['e', 'E']
  · have hmark' : (mark != 'e' && mark != 'E') = false := by
      simp only [List.mem_cons, List.not_mem_nil, or_false] at hmark
      rcases hmark with rfl | rfl <;> decide
    by_cases hbad : ((afterSign rest).isEmpty || !(afterSign rest).all Char.isDigit) = true <;>
      simp [hmark', hbad, hmark]
  · have hmark' : (mark != 'e' && mark != 'E') = true := by simpa using hmark
    simp [hmark', hmark]

/-- What is read as an exponent is one. -/
theorem isSome_readExponent?_iff {cs : List Char} : (readExponent? cs).isSome ↔ IsExponent cs := by
  cases cs with
  | nil => exact iff_of_true rfl .none
  | cons mark rest =>
    rw [isSome_readExponent?_cons]
    constructor
    · rintro ⟨hmark, hdigits⟩
      obtain ⟨sign, hsign, hrest⟩ := exists_sign rest
      rw [hrest]
      exact .digits hmark hsign hdigits
    · intro h
      cases h with
      | digits hmark hsign hdigits =>
        refine ⟨hmark, ?_⟩
        simp only [List.mem_cons, List.not_mem_nil, or_false] at hsign
        rcases hsign with rfl | rfl | rfl
        · exact (afterSign_of_isDigits hdigits).symm ▸ hdigits
        · exact hdigits
        · exact hdigits

/-- What is read once the sign is known. -/
def readUnsigned? (negative : Bool) (cs : List Char) : Option Number :=
  let whole := cs.takeWhile Char.isDigit
  let rest := cs.dropWhile Char.isDigit
  if whole.isEmpty || (whole.head? == some '0' && 1 < whole.length) then none
  else match rest with
    | '.' :: rest =>
      let fraction := rest.takeWhile Char.isDigit
      if fraction.isEmpty then none
      else (readExponent? (rest.dropWhile Char.isDigit)).map (⟨negative, whole, fraction, ·⟩)
    | rest => (readExponent? rest).map (⟨negative, whole, [], ·⟩)

/-- Of digits it is tested whether they are a whole part. -/
theorem isWhole_iff {cs : List Char} (hdigits : ∀ c ∈ cs, c.isDigit = true) :
    IsWhole cs ↔ ¬ (cs.isEmpty || (cs.head? == some '0' && 1 < cs.length)) = true := by
  cases cs with
  | nil => simp [IsWhole, IsDigits]
  | cons c rest =>
    cases rest with
    | nil => simp_all [IsWhole, IsDigits]
    | cons d rest => simp_all [IsWhole, IsDigits]

/-- What is read is a number without its sign. -/
theorem isUnsigned_of_readUnsigned? {negative : Bool} {cs : List Char}
    (h : (readUnsigned? negative cs).isSome) : IsUnsigned cs := by
  unfold readUnsigned? at h
  dsimp only at h
  split at h
  · simp at h
  · next hwhole =>
    have hdigits : ∀ c ∈ cs.takeWhile Char.isDigit, c.isDigit = true :=
      fun c hc => List.all_eq_true.mp List.all_takeWhile c hc
    have hsplit : cs = cs.takeWhile Char.isDigit ++ cs.dropWhile Char.isDigit :=
      List.takeWhile_append_dropWhile.symm
    have hwhole := (isWhole_iff hdigits).mpr hwhole
    split at h
    · next rest hrest =>
      split at h
      · simp at h
      · next hfraction =>
        rw [Option.isSome_map, isSome_readExponent?_iff] at h
        refine ⟨_, '.' :: rest.takeWhile Char.isDigit, _, hwhole, .digits (.takeWhile ?_), h, ?_⟩
        · simpa using hfraction
        · rw [List.cons_append, List.takeWhile_append_dropWhile, ← hrest]
          exact hsplit
    · rw [Option.isSome_map, isSome_readExponent?_iff] at h
      exact ⟨_, [], _, hwhole, .none, h, hsplit⟩

/-- A number without its sign is read. -/
theorem isSome_readUnsigned? {negative : Bool} {cs : List Char} (h : IsUnsigned cs) :
    (readUnsigned? negative cs).isSome := by
  obtain ⟨whole, fraction, exponent, hwhole, hfraction, hexponent, rfl⟩ := h
  have hstops := hfraction.stops hexponent
  have htake := Text.takeWhile_append hwhole.1.2 hstops
  have hdrop := Text.dropWhile_append hwhole.1.2 hstops
  unfold readUnsigned?
  rw [htake, hdrop, if_neg ((isWhole_iff hwhole.1.2).mp hwhole)]
  cases hfraction with
  | none =>
    rw [List.nil_append]
    split
    · next rest => exact absurd rfl hexponent.head?_ne_point
    · rw [Option.isSome_map, isSome_readExponent?_iff]
      exact hexponent
  | @digits ds hds =>
    have htake := Text.takeWhile_append hds.2 hexponent.stops
    have hdrop := Text.dropWhile_append hds.2 hexponent.stops
    have hne : ¬ ds.isEmpty = true := by simpa using hds.1
    rw [List.cons_append]
    split
    · next rest hrest =>
      obtain rfl := (List.cons.inj hrest).2
      dsimp only
      rw [htake, hdrop, if_neg hne, Option.isSome_map, isSome_readExponent?_iff]
      exact hexponent
    · next hother => exact absurd rfl (hother _)

/-- A text is read as a number without sign exactly if it is one, whatever sign has been before it.
-/
theorem isSome_readUnsigned?_iff {negative : Bool} {cs : List Char} :
    (readUnsigned? negative cs).isSome ↔ IsUnsigned cs :=
  ⟨isUnsigned_of_readUnsigned?, isSome_readUnsigned?⟩

/-- Without a minus the number is read as it stands. -/
theorem read?_of_head?_ne {cs : List Char} (h : cs.head? ≠ some '-') :
    read? cs = readUnsigned? false cs := by
  unfold read?
  split
  next negative rest hsign =>
    split at hsign
    · exact absurd rfl h
    · obtain ⟨rfl, rfl⟩ := Prod.mk.inj hsign
      rfl

/-- A number without its sign does not begin with a minus. -/
theorem IsUnsigned.head?_ne_minus {cs : List Char} (h : IsUnsigned cs) : cs.head? ≠ some '-' := by
  obtain ⟨whole, fraction, exponent, ⟨⟨hne, hdigits⟩, -⟩, -, -, rfl⟩ := h
  obtain ⟨d, ds, rfl⟩ := List.exists_cons_of_ne_nil hne
  intro hminus
  obtain rfl : d = '-' := Option.some.inj hminus
  exact absurd (hdigits '-' List.mem_cons_self) (by decide)

/-- The reader takes what is written as a number, and nothing else. -/
theorem isSome_read?_iff {cs : List Char} : (read? cs).isSome ↔ IsNumber cs := by
  by_cases hminus : cs.head? = some '-'
  · obtain ⟨rest, rfl⟩ := List.head?_eq_some_iff.mp hminus
    have hread : read? ('-' :: rest) = readUnsigned? true rest := rfl
    rw [hread, isSome_readUnsigned?_iff]
    constructor
    · exact fun h => ⟨['-'], by simp, rest, h, rfl⟩
    · rintro ⟨sign, hsign, rest', h, hcs⟩
      simp only [List.mem_cons, List.not_mem_nil, or_false] at hsign
      rcases hsign with rfl | rfl
      · exact absurd (congrArg List.head? hcs.symm) h.head?_ne_minus
      · obtain rfl := (List.cons.inj hcs).2
        exact h
  · rw [read?_of_head?_ne hminus, isSome_readUnsigned?_iff]
    constructor
    · exact fun h => ⟨[], by simp, cs, h, rfl⟩
    · rintro ⟨sign, hsign, rest, h, rfl⟩
      simp only [List.mem_cons, List.not_mem_nil, or_false] at hsign
      rcases hsign with rfl | rfl
      · exact h
      · exact absurd rfl hminus

end VolumeBroker.Json.Number
