import VolumeBroker.Snapshot

/-!
# The order of names

Records come in the order of their names, character by character.  A database keeps its keys as
bytes and orders them byte by byte.  The two orders agree: of two characters the lesser has the
lesser bytes, and neither is a beginning of the other, so the bytes of two names first differ where
the names do.
-/

set_option autoImplicit false

namespace VolumeBroker

/-- A map lists what it holds in the order of the names. -/
theorem pairwise_toList {α : Type} (m : Std.ExtTreeMap String α) :
    m.toList.Pairwise fun p q => p.1 < q.1 := by
  refine Std.ExtTreeMap.ordered_keys_toList.imp fun h => ?_
  exact compareOfLessAndEq_eq_lt.mp h

/-- The characters of a name as numbers. -/
def codePoints (s : String) : List Nat := s.toList.map Char.toNat

/-- The bytes of a name. -/
def utf8Bytes (s : String) : List UInt8 := s.toUTF8.data.toList

/-- The bytes of a text are those of its characters, one character after the other. -/
theorem utf8Bytes_eq (s : String) : utf8Bytes s = s.toList.flatMap String.utf8EncodeChar := by
  rw [utf8Bytes, String.toUTF8, ← String.utf8Encode_toList, List.utf8Encode,
    List.toList_data_toByteArray]

/-- The order of texts is that of their code points. -/
theorem codePoints_lt {s t : String} (h : s < t) : codePoints s < codePoints t := by
  have hchars : s.toList < t.toList := h
  exact List.map_lt (fun _ _ hlt => hlt) hchars

/-- Lists of bytes are compared by the numbers that their first bytes stand for, and by the rest if
these are equal. -/
theorem ofNat_cons_lt_iff {a b : Nat} (ha : a < 256) (hb : b < 256) (xs ys : List UInt8) :
    UInt8.ofNat a :: xs < UInt8.ofNat b :: ys ↔ a < b ∨ a = b ∧ xs < ys := by
  rw [List.cons_lt_cons_iff, UInt8.lt_iff_toNat_lt, ← UInt8.toNat_inj, UInt8.toNat_ofNat',
    UInt8.toNat_ofNat', Nat.mod_eq_of_lt ha, Nat.mod_eq_of_lt hb]

/-- A number is compared by its digits of base 64, the higher ones first: a byte of UTF-8 that
continues a character holds one such digit. -/
theorem lt_iff_digits {v w : Nat} :
    v < w ↔ v / 64 < w / 64 ∨ v / 64 = w / 64 ∧ v % 64 < w % 64 := by
  omega

/-- The bytes of a character are less than those of a greater one, whatever follows. -/
theorem utf8EncodeChar_append_lt {c d : Char} (h : c < d) (xs ys : List UInt8) :
    String.utf8EncodeChar c ++ xs < String.utf8EncodeChar d ++ ys := by
  have hlt : c.val.toNat < d.val.toNat := h
  have hd : d.val.toNat < 0x110000 := by
    have hvalid := d.valid
    rcases hvalid with hlow | hhigh <;> omega
  unfold String.utf8EncodeChar
  generalize c.val.toNat = v at hlt ⊢
  generalize d.val.toNat = w at hlt hd ⊢
  simp only
  -- The first byte tells how many there are, so only encodings of one length agree in it.
  by_cases h₁ : v ≤ 127
  · rw [if_pos h₁]
    repeat' split
    all_goals
      simp (disch := omega) only [List.cons_append, List.nil_append, ofNat_cons_lt_iff]
      omega
  rw [if_neg h₁, if_neg (by omega : ¬ w ≤ 127)]
  by_cases h₂ : v ≤ 2047
  · rw [if_pos h₂]
    repeat' split
    all_goals
      simp (disch := omega) only [List.cons_append, List.nil_append, ofNat_cons_lt_iff]
      omega
  rw [if_neg h₂, if_neg (by omega : ¬ w ≤ 2047)]
  by_cases h₃ : v ≤ 65535
  · rw [if_pos h₃]
    split
    all_goals
      simp (disch := omega) only [List.cons_append, List.nil_append, ofNat_cons_lt_iff]
      omega
  · rw [if_neg h₃, if_neg (by omega : ¬ w ≤ 65535)]
    have hdigits (n : Nat) : n / 4096 = n / 64 / 64 ∧ n / 262144 = n / 64 / 64 / 64 := by
      simp only [Nat.div_div_eq_div_mul, and_self]
    have hv : v / 64 / 64 / 64 < 8 := by omega
    have hw : w / 64 / 64 / 64 < 8 := by omega
    rw [lt_iff_digits, lt_iff_digits, lt_iff_digits] at hlt
    simp (disch := omega) only [List.cons_append, List.nil_append, ofNat_cons_lt_iff, hdigits,
      Nat.mod_eq_of_lt hv, Nat.mod_eq_of_lt hw]
    omega

/-- The order of names is the order of their bytes. -/
theorem utf8Bytes_lt {s t : String} (h : s < t) : utf8Bytes s < utf8Bytes t := by
  have hchars : s.toList < t.toList := h
  rw [utf8Bytes_eq, utf8Bytes_eq]
  generalize s.toList = cs at hchars ⊢
  generalize t.toList = ds at hchars ⊢
  induction cs generalizing ds with
  | nil =>
    cases ds with
    | nil => exact absurd hchars (List.lt_irrefl [])
    | cons d ds =>
      obtain ⟨b, bs, hbytes⟩ := List.exists_cons_of_ne_nil (String.utf8EncodeChar_ne_nil (c := d))
      rw [List.flatMap_nil, List.flatMap_cons, hbytes]
      exact List.nil_lt_cons b _
  | cons c cs ih =>
    cases ds with
    | nil => exact absurd hchars (List.not_lt_nil _)
    | cons d ds =>
      rw [List.flatMap_cons, List.flatMap_cons]
      rcases List.cons_lt_cons_iff.mp hchars with hlt | ⟨rfl, hrest⟩
      · exact utf8EncodeChar_append_lt hlt _ _
      · exact List.append_left_lt (ih ds hrest)

end VolumeBroker
