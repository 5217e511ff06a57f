import Mathlib.Data.List.TakeWhile
import VolumeBroker.Address.Ipv6
import VolumeBroker.Proofs.LeadingRuns

/-!
# Addresses are read back

Numbers, IPv4 addresses and IPv6 addresses are taken off the front of a text, so each of them is
read back with anything after it that does not go on with it.  Of an IPv6 address the groups before
and after the two colons are read by the same loop, which stops where `EndsGroups` says; what was
left out between them is as many zeros as are missing.
-/

set_option autoImplicit false

namespace VolumeBroker.Text

/-! ## Digits -/

/-- A digit is a digit of any greater base. -/
theorem isDigitOf_mono {base base' : Nat} (hle : base ≤ base') {c : Char}
    (h : isDigitOf base c = true) : isDigitOf base' c = true := by
  unfold isDigitOf digitValue? at *
  cases hvalue : hexValue? c with
  | none => rw [hvalue] at h; cases h
  | some d =>
    rw [hvalue] at h
    have hlt : d < base := by simpa using h
    have hlt' : d < base' := by omega
    simp [hlt']

/-- What no digit of the greater base goes on with, none of the lesser one does. -/
theorem stops_mono {base base' : Nat} (hle : base ≤ base') {rest : List Char}
    (h : Stops (isDigitOf base') rest) : Stops (isDigitOf base) rest := by
  intro c hc
  rw [Bool.eq_false_iff]
  intro hdigit
  have hdigit' := isDigitOf_mono hle hdigit
  rw [h c hc] at hdigit'
  cases hdigit'

/-- A number is not written with a zero in front. -/
theorem head?_toDigits {base n : Nat} (hb : 1 < base) (hb' : base ≤ 16) (hn : 0 < n) :
    (Nat.toDigits base n).head? ≠ some '0' := by
  induction n using Nat.strongRecOn with
  | ind n ih =>
    by_cases h : n < base
    · have hchars : ∀ m, m < 16 → 0 < m → m.digitChar ≠ '0' := by decide
      rw [Nat.toDigits_of_lt_base h]
      simpa using hchars n (by omega) hn
    · have hdiv : 0 < n / base := Nat.div_pos (by omega) (by omega)
      have hhead := ih (n / base) (Nat.div_lt_self (by omega) hb) hdiv
      obtain ⟨c, cs, hcs⟩ := List.exists_cons_of_length_pos
        (@Nat.length_toDigits_pos base (n / base))
      rw [hcs] at hhead
      rw [Nat.toDigits_of_base_le hb (by omega), hcs]
      exact hhead

end VolumeBroker.Text

namespace VolumeBroker.Address

open Text

/-! ## Numbers -/

/-- Digits that the shape admits are read as their number, if nothing goes on with them. -/
theorem readNumber_append {shape : NumberShape} {digits rest : List Char}
    (hdigits : ∀ c ∈ digits, isDigitOf shape.base c = true) (hadmits : shape.admits digits = true)
    (hrest : Stops (isDigitOf shape.base) rest) :
    readNumber shape (digits ++ rest) = some (digitsValue shape.base digits, rest) := by
  unfold readNumber
  rw [takeWhile_append hdigits hrest, dropWhile_append hdigits hrest, if_pos hadmits]

/-- The number of a base, a bound and a length fits every number up to the bound. -/
structure NumberShape.IsSound (shape : NumberShape) : Prop where
  base : 1 < shape.base ∧ shape.base ≤ 16
  room : ∀ k ∈ shape.maxDigits, 0 < k ∧ shape.bound < Nat.pow shape.base k

/-- The shape admits the digits of every number up to the bound. -/
theorem admits_toDigits {shape : NumberShape} (hshape : shape.IsSound) {n : Nat}
    (hn : n ≤ shape.bound) : shape.admits (Nat.toDigits shape.base n) = true := by
  obtain ⟨⟨hb, hb'⟩, hroom⟩ := hshape
  have hne : Nat.toDigits shape.base n ≠ [] := List.ne_nil_of_length_pos Nat.length_toDigits_pos
  have hlength : shape.maxDigits.all ((Nat.toDigits shape.base n).length ≤ ·) = true := by
    cases hmax : shape.maxDigits with
    | none => rfl
    | some k =>
      obtain ⟨hk, hbound⟩ := hroom k hmax
      have hlt : n < Nat.pow shape.base k := by omega
      simpa using (Nat.length_toDigits_le_iff hb hk).mpr hlt
  have hzero : ((Nat.toDigits shape.base n).length == 1 ||
      (Nat.toDigits shape.base n).head? != some '0') = true := by
    by_cases hn : n = 0
    · subst hn
      simp
    · simp [head?_toDigits hb hb' (by omega : 0 < n)]
  unfold NumberShape.admits
  rw [digitsValue_toDigits hb hb', hlength, Bool.or_assoc, hzero]
  simp [hne, hn]

/-- A number is read back where its digits end. -/
theorem readNumber_toDigits {shape : NumberShape} (hshape : shape.IsSound) {n : Nat}
    (hn : n ≤ shape.bound) {rest : List Char} (hrest : Stops (isDigitOf shape.base) rest) :
    readNumber shape (Nat.toDigits shape.base n ++ rest) = some (n, rest) := by
  obtain ⟨hb, hb'⟩ := hshape.base
  rw [readNumber_append (fun c hc => isDigitOf_of_mem_toDigits hb hb' hc)
    (admits_toDigits hshape hn) hrest, digitsValue_toDigits hb hb']

/-- Where there are no digits, there is no number. -/
theorem readNumber_of_stops {shape : NumberShape} {cs : List Char}
    (h : Stops (isDigitOf shape.base) cs) : readNumber shape cs = none := by
  unfold readNumber
  rw [takeWhile_of_stops h, if_neg (by simp [NumberShape.admits])]

/-- The parts of IPv4 addresses have room for their numbers. -/
theorem isSound_octetShape : octetShape.IsSound := ⟨by decide, by decide⟩

/-- The groups of IPv6 addresses have room for their numbers. -/
theorem isSound_groupShape : groupShape.IsSound := ⟨by decide, by decide⟩

/-- Ports may have any number of digits. -/
theorem isSound_portShape : portShape.IsSound := ⟨by decide, by simp [portShape]⟩

/-- Scopes may have any number of digits. -/
theorem isSound_scopeShape : scopeShape.IsSound := ⟨by decide, by simp [scopeShape]⟩

/-! ## IPv4 addresses -/

/-- A point goes on with no number. -/
theorem stops_point {base : Nat} (hb : base ≤ 16) (cs : List Char) :
    Stops (isDigitOf base) ('.' :: cs) :=
  stops_mono hb (stops_cons.mpr (by decide))

/-- A mark that stands there is read. -/
theorem readMark_cons (mark : Char) (cs : List Char) : readMark mark (mark :: cs) = some cs :=
  if_pos rfl

namespace Ipv4

/-- An IPv4 address that has been printed is read back. -/
theorem read_chars (ip : Ipv4) {rest : List Char} (hrest : Stops (isDigitOf 10) rest) :
    read (ip.chars ++ rest) = some (ip, rest) := by
  have hoctet : ∀ (n : UInt8) (cs : List Char), Stops (isDigitOf 10) cs →
      readNumber octetShape (Nat.toDigits 10 n.toNat ++ cs) = some (n.toNat, cs) := by
    intro n cs hcs
    have hn : n.toNat ≤ octetShape.bound := by
      have hlt := n.toNat_lt
      show n.toNat ≤ 255
      omega
    exact readNumber_toDigits isSound_octetShape hn hcs
  have hpoint : ∀ cs, Stops (isDigitOf 10) ('.' :: cs) := stops_point (by decide)
  have hchars : ip.chars ++ rest = Nat.toDigits 10 ip.a.toNat ++ '.' ::
      (Nat.toDigits 10 ip.b.toNat ++ '.' :: (Nat.toDigits 10 ip.c.toNat ++ '.' ::
        (Nat.toDigits 10 ip.d.toNat ++ rest))) := by
    simp [chars]
  unfold read
  rw [hchars, hoctet _ _ (hpoint _)]
  simp [readMark_cons, hoctet, hpoint, hrest]

/-- There is no address where no point follows the first number. -/
theorem read_eq_none {cs : List Char}
    (h : (cs.dropWhile (isDigitOf 10)).head? ≠ some '.') : read cs = none := by
  have hmark : readMark '.' (cs.dropWhile (isDigitOf 10)) = none := by
    cases hcs : cs.dropWhile (isDigitOf 10) with
    | nil => rfl
    | cons c rest =>
      rw [hcs] at h
      exact if_neg fun heq => h (congrArg some heq)
  unfold read
  cases hnumber : readNumber octetShape cs with
  | none => rfl
  | some found =>
    have hrest : found.2 = cs.dropWhile (isDigitOf 10) := by
      unfold readNumber at hnumber
      dsimp only at hnumber
      split at hnumber
      · exact (congrArg Prod.snd (Option.some.inj hnumber)).symm
      · cases hnumber
    obtain ⟨a, rest⟩ := found
    obtain rfl : rest = _ := hrest
    simp [hmark]

end Ipv4

namespace Ipv6

/-! ## Groups of an IPv6 address -/

/-- The digits of a group are no beginning of an IPv4 address. -/
theorem read_ipv4_group {digits rest : List Char} (hdigits : ∀ c ∈ digits, isDigitOf 16 c = true)
    (hrest : Stops (isDigitOf 16) rest) (hpoint : rest.head? ≠ some '.') :
    Ipv4.read (digits ++ rest) = none := by
  refine Ipv4.read_eq_none ?_
  induction digits with
  | nil =>
    have hstops : Stops (isDigitOf 10) rest := stops_mono (by decide) hrest
    have hdrop := @dropWhile_append (isDigitOf 10) [] rest (by simp) hstops
    rw [hdrop]
    exact hpoint
  | cons c digits ih =>
    obtain ⟨hc, hdigits⟩ := List.forall_mem_cons.mp hdigits
    cases hten : isDigitOf 10 c with
    | true =>
      rw [List.cons_append, List.dropWhile_cons_of_pos hten]
      exact ih hdigits
    | false =>
      rw [List.cons_append, List.dropWhile_cons_of_neg (by simp [hten])]
      rintro heq
      obtain rfl : c = '.' := Option.some.inj heq
      revert hc
      decide

/-- The text begins with no group, and with nothing that goes on with one. -/
structure EndsGroups (rest : List Char) : Prop where
  stops : Stops (isDigitOf 16) rest
  noPoint : rest.head? ≠ some '.'
  ends : ∀ first limit, readGroups first rest limit = ⟨[], false, rest⟩

/-- No group is read where none begins. -/
theorem readGroups_eq_nil {first : Bool} {cs : List Char}
    (h : ∀ rest, readColon first cs = some rest →
      Stops (isDigitOf 16) rest ∧ rest.head? ≠ some '.') (limit : Nat) :
    readGroups first cs limit = ⟨[], false, cs⟩ := by
  cases limit with
  | zero => rfl
  | succ limit =>
    cases hcolon : readColon first cs with
    | none => simp [readGroups, hcolon]
    | some rest =>
      obtain ⟨hstops, hpoint⟩ := h rest hcolon
      have hv4 : Ipv4.read rest = none := @read_ipv4_group [] rest (by simp) hstops hpoint
      have hnumber : readNumber groupShape rest = none := readNumber_of_stops hstops
      simp [readGroups, hcolon, hv4, hnumber]

/-- Two colons end the groups before them. -/
theorem endsGroups_colons (cs : List Char) : EndsGroups (':' :: ':' :: cs) := by
  have hcolon : Stops (isDigitOf 16) (':' :: cs) := stops_cons.mpr (by decide)
  refine ⟨stops_cons.mpr (by decide), by simp, fun first limit => readGroups_eq_nil ?_ limit⟩
  intro rest hrest
  cases first with
  | true =>
    obtain rfl := Option.some.inj hrest
    exact ⟨stops_cons.mpr (by decide), by simp⟩
  | false =>
    obtain rfl := Option.some.inj hrest
    exact ⟨hcolon, by simp⟩

/-- Groups end at a character that belongs to no address. -/
theorem endsGroups_cons {c : Char} (hdigit : isDigitOf 16 c = false) (hpoint : c ≠ '.')
    (hcolon : c ≠ ':') (cs : List Char) : EndsGroups (c :: cs) := by
  refine ⟨stops_cons.mpr hdigit, by simpa using hpoint,
    fun first limit => readGroups_eq_nil ?_ limit⟩
  intro rest hrest
  cases first with
  | true =>
    obtain rfl := Option.some.inj hrest
    exact ⟨stops_cons.mpr hdigit, by simpa using hpoint⟩
  | false =>
    have hnone : readColon false (c :: cs) = none := if_neg hcolon
    rw [hnone] at hrest
    cases hrest

/-- What stands in front of a group, the first one or another. -/
def leadChars (first : Bool) : List Char := if first then [] else [':']

/-- What stands in front of a group is read. -/
theorem readColon_leadChars (first : Bool) (cs : List Char) :
    readColon first (leadChars first ++ cs) = some cs := by
  cases first with
  | true => rfl
  | false => exact readMark_cons ':' cs

/-- One group is read, and the loop goes on after it. -/
theorem readGroups_group (first : Bool) (g : UInt16) (limit : Nat) {tail : List Char}
    (hstops : Stops (isDigitOf 16) tail) (hpoint : tail.head? ≠ some '.') :
    readGroups first (leadChars first ++ (Nat.toDigits 16 g.toNat ++ tail)) (limit + 1) =
      { readGroups false tail limit with groups := g :: (readGroups false tail limit).groups } := by
  have hv4 : Ipv4.read (Nat.toDigits 16 g.toNat ++ tail) = none :=
    read_ipv4_group (fun c hc => isDigitOf_of_mem_toDigits (by decide) (by decide) hc) hstops hpoint
  have hg : g.toNat ≤ groupShape.bound := by
    have hlt := g.toNat_lt
    show g.toNat ≤ 65535
    omega
  have hnumber : readNumber groupShape (Nat.toDigits 16 g.toNat ++ tail) = some (g.toNat, tail) :=
    readNumber_toDigits isSound_groupShape hg hstops
  simp [readGroups, readColon_leadChars, hv4, hnumber]

/-- Groups are read back, as long as no more are taken. -/
theorem readGroups_groupChars {gs : List UInt16} (hne : gs ≠ []) {rest : List Char}
    (hrest : EndsGroups rest) (first : Bool) {limit : Nat} (hlimit : gs.length ≤ limit) :
    readGroups first (leadChars first ++ (groupChars gs ++ rest)) limit = ⟨gs, false, rest⟩ := by
  induction gs generalizing first limit with
  | nil => exact absurd rfl hne
  | cons g more ih =>
    obtain ⟨limit, rfl⟩ : ∃ n, limit = n + 1 := ⟨limit - 1, by simp at hlimit; omega⟩
    cases more with
    | nil =>
      rw [groupChars, readGroups_group first g limit hrest.stops hrest.noPoint, hrest.ends]
    | cons g' more =>
      have hmore := ih (List.cons_ne_nil g' more) false (Nat.le_of_succ_le_succ hlimit)
      have hchars : groupChars (g :: g' :: more) ++ rest =
          Nat.toDigits 16 g.toNat ++ (leadChars false ++ (groupChars (g' :: more) ++ rest)) := by
        simp [groupChars, leadChars]
      have hstops : Stops (isDigitOf 16) (leadChars false ++ (groupChars (g' :: more) ++ rest)) :=
        stops_cons.mpr (by decide)
      rw [hchars, readGroups_group first g limit hstops (by simp [leadChars]), hmore]

/-- The same with no group at all, where the text begins with what is read. -/
theorem readGroups_chars (gs : List UInt16) {rest : List Char} (hrest : EndsGroups rest)
    {limit : Nat} (hlimit : gs.length ≤ limit) :
    readGroups true (groupChars gs ++ rest) limit = ⟨gs, false, rest⟩ := by
  by_cases hgs : gs = []
  · subst hgs
    exact hrest.ends true limit
  · exact readGroups_groupChars hgs hrest true hlimit

/-! ## Zeros that are left out -/

/-- The longest run of zeros is a run of zeros in the groups. -/
theorem longestZeros_spec (gs : List UInt16) :
    ∃ front back, gs = front ++ List.replicate (longestZeros gs).2 0 ++ back ∧
      front.length = (longestZeros gs).1 := by
  induction gs with
  | nil => exact ⟨[], [], rfl, rfl⟩
  | cons g rest ih =>
    obtain ⟨front, back, hrest, hfront⟩ := ih
    unfold longestZeros
    dsimp only
    split
    · -- the zeros in front are at least as many as any others
      refine ⟨[], (g :: rest).dropWhile (· == 0), ?_, rfl⟩
      have hzeros : (g :: rest).takeWhile (· == 0) =
          List.replicate ((g :: rest).takeWhile (· == 0)).length 0 := by
        refine List.eq_replicate_iff.mpr ⟨rfl, fun z hz => ?_⟩
        have hzero := List.mem_takeWhile_imp hz
        exact beq_iff_eq.mp hzero
      rw [List.nil_append, ← hzeros, List.takeWhile_append_dropWhile]
    · refine ⟨g :: front, back, ?_, by simp [hfront]⟩
      rw [List.cons_append, List.cons_append, ← hrest]

/-- The groups of an address make that address. -/
theorem ofGroups?_toList (ip : Ipv6) : ofGroups? ip.groups.toList = some ip := by
  have hlength : ip.groups.toList.length = 8 := ip.groups.length_toList
  unfold ofGroups?
  rw [dif_pos hlength]
  rfl

/-- An address with two colons is its groups before and after them, with as many zeros between as
are missing. -/
theorem read_of_colons {front : List UInt16} {tail : GroupsRead} {cs rest : List Char}
    (hhead : readGroups true cs 8 = ⟨front, false, ':' :: ':' :: rest⟩) (hfew : front.length ≠ 8)
    (htail : readGroups true rest (7 - front.length) = tail) :
    read cs = (ofGroups? (front ++ List.replicate (8 - front.length - tail.groups.length) 0 ++
      tail.groups)).map (·, tail.rest) := by
  subst htail
  unfold read
  rw [hhead]
  dsimp only
  rw [if_neg hfew, if_neg Bool.false_ne_true, Option.map_eq_bind]
  rfl

/-- Groups with two colons between them are read with zeros in place of the colons. -/
theorem read_colons {front back : List UInt16} {n : Nat} (hn : 0 < n)
    (hlength : front.length + n + back.length = 8) {rest : List Char} (hrest : EndsGroups rest) :
    read (groupChars front ++ ':' :: ':' :: (groupChars back ++ rest)) =
      (ofGroups? (front ++ List.replicate n 0 ++ back)).map (·, rest) := by
  have hhead := @readGroups_chars front _ (endsGroups_colons (groupChars back ++ rest)) 8 (by omega)
  have htail := @readGroups_chars back rest hrest (7 - front.length) (by omega)
  have hzeros : 8 - front.length - back.length = n := by omega
  rw [read_of_colons hhead (by omega) htail, hzeros]

/-- An address that is written with all its groups is read as they are. -/
theorem read_groups {gs : List UInt16} (hlength : gs.length = 8) {rest : List Char}
    (hrest : EndsGroups rest) :
    read (groupChars gs ++ rest) = (ofGroups? gs).map (·, rest) := by
  unfold read
  rw [readGroups_chars gs hrest (by omega)]
  simp only [hlength, if_true]
  cases ofGroups? gs <;> rfl

/-! ## Addresses that end in an IPv4 address -/

/-- An IPv4 address in the place of two groups is read as those groups. -/
theorem readGroups_ipv4 (first : Bool) (v4 : Ipv4) {rest : List Char}
    (hrest : Stops (isDigitOf 10) rest) (limit : Nat) :
    readGroups first (leadChars first ++ (v4.chars ++ rest)) (limit + 2) =
      ⟨ofEmbedded v4, true, rest⟩ := by
  simp [readGroups, readColon_leadChars, Ipv4.read_chars v4 hrest]

/-- The groups of an embedded address are those that it was made of. -/
theorem ofEmbedded_embedded (high low : UInt16) : ofEmbedded (embedded high low) = [high, low] := by
  have hgroup : ∀ g : UInt16, (g >>> 8).toUInt8.toUInt16 <<< 8 ||| g.toUInt8.toUInt16 = g := by
    intro g
    apply UInt16.toNat_inj.mp
    have hlt := g.toNat_lt
    have hhigh : g.toNat / 256 < 256 := by omega
    have hor := @Nat.shiftLeft_add_eq_or_of_lt 8 (g.toNat % 256) (by omega) (g.toNat / 256)
    simp [Nat.shiftRight_eq_div_pow, Nat.shiftLeft_eq] at hor ⊢
    rw [Nat.mod_eq_of_lt hhigh, Nat.mod_eq_of_lt (by omega), ← hor]
    omega
  show [(high >>> 8).toUInt8.toUInt16 <<< 8 ||| high.toUInt8.toUInt16,
    (low >>> 8).toUInt8.toUInt16 <<< 8 ||| low.toUInt8.toUInt16] = [high, low]
  rw [hgroup, hgroup]

/-- A mapped address has the groups of the prefix and of the IPv4 address. -/
theorem mapped?_eq_some {ip : Ipv6} {v4 : Ipv4} (h : ip.mapped? = some v4) :
    ip.groups.toList = [0, 0, 0, 0, 0, 0xFFFF] ++ ofEmbedded v4 := by
  unfold mapped? at h
  split at h
  · next high low hgroups =>
    obtain rfl := Option.some.inj h
    rw [hgroups, ofEmbedded_embedded]
    rfl
  · cases h

/-- A mapped address that is printed with its dotted end is read as its groups. -/
theorem read_mapped (v4 : Ipv4) {rest : List Char} (hrest : Stops (isDigitOf 10) rest) :
    read ("::ffff:".toList ++ (v4.chars ++ rest)) =
      (ofGroups? ([0, 0, 0, 0, 0, 0xFFFF] ++ ofEmbedded v4)).map (·, rest) := by
  have hhead := (endsGroups_colons ("ffff:".toList ++ (v4.chars ++ rest))).ends true 8
  have htail : readGroups true ("ffff:".toList ++ (v4.chars ++ rest)) 7 =
      ⟨0xFFFF :: ofEmbedded v4, true, rest⟩ := by
    have hgroup := @readGroups_group true 0xFFFF 6 (leadChars false ++ (v4.chars ++ rest))
      (stops_cons.mpr (by decide)) (by simp [leadChars])
    rw [readGroups_ipv4 false v4 hrest 4] at hgroup
    exact hgroup
  exact read_of_colons hhead (by decide) htail

/-- An address is read back where nothing follows that goes on with it. -/
theorem read_chars (ip : Ipv6) {rest : List Char} (hrest : EndsGroups rest) :
    read (ip.chars ++ rest) = some (ip, rest) := by
  have hip := ofGroups?_toList ip
  unfold chars
  cases hmapped : ip.mapped? with
  | some v4 =>
    rw [mapped?_eq_some hmapped] at hip
    rw [List.append_assoc, read_mapped v4 (stops_mono (by decide) hrest.stops), hip]
    rfl
  | none =>
    have hlength : ip.groups.toList.length = 8 := ip.groups.length_toList
    obtain ⟨front, back, hgroups, hfront⟩ := longestZeros_spec ip.groups.toList
    dsimp only
    generalize longestZeros ip.groups.toList = zeros at hgroups hfront ⊢
    obtain ⟨start, n⟩ := zeros
    dsimp only at hgroups hfront ⊢
    split
    · next hlong =>
      have htotal : front.length + n + back.length = 8 := by
        rw [hgroups] at hlength
        simp at hlength
        omega
      have htake : ip.groups.toList.take start = front := by
        rw [hgroups, ← hfront, List.append_assoc, List.take_left]
      have hdrop : ip.groups.toList.drop (start + n) = back := by
        rw [hgroups, ← hfront]
        exact List.drop_left' (by simp)
      rw [hgroups] at hip
      rw [htake, hdrop, List.append_assoc, List.cons_append, List.cons_append,
        read_colons (by omega) htotal hrest, hip]
      rfl
    · rw [read_groups hlength hrest, hip]
      rfl

end Ipv6

end VolumeBroker.Address
