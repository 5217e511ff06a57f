import VolumeBroker.Text.Utf8
import VolumeBroker.Proofs.NameOrder

/-!
# Printed text is read back

The reader of bytes forgives whatever is not UTF-8, and changes nothing that is: the bytes of a text
are read as that text.  Each character is taken apart on its own.  Its first byte says how many
follow and leaves the reader with a character begun, and every further byte lies in the range that
the reader expects.  The ranges are narrower after four of the first bytes, where a shorter
encoding, a surrogate or a number beyond the last character would come out.
-/

set_option autoImplicit false

namespace VolumeBroker.Text

/-! ## Bytes -/

/-- The loop over the bytes adds what is left of them. -/
theorem bytes_loop (bytes : ByteArray) (i : Nat) (read : List UInt8) :
    ByteArray.toList.loop bytes i read = read.reverse ++ bytes.data.toList.drop i := by
  fun_induction ByteArray.toList.loop bytes i read with
  | case1 i read hi ih =>
    have hlength : i < bytes.data.toList.length := by simpa using hi
    have hget : bytes.get! i = bytes.data.toList[i] := by
      show bytes.data[i]! = _
      rw [getElem!_pos bytes.data i hi, Array.getElem_toList]
    rw [ih, List.drop_eq_getElem_cons hlength, hget, List.reverse_cons, List.append_assoc,
      List.singleton_append]
  | case2 i read hi =>
    have hlength : bytes.data.toList.length ≤ i := by simpa using hi
    rw [List.drop_eq_nil_of_le hlength, List.append_nil]

/-- The bytes are listed in their order. -/
theorem bytes_toList (bytes : ByteArray) : bytes.toList = bytes.data.toList := by
  rw [ByteArray.toList, bytes_loop]
  simp

/-! ## Characters -/

/-- One byte is read, and then the others. -/
theorem decodeFrom_cons (begun : Option Begun) (b : UInt8) (rest : List UInt8) :
    decodeFrom begun (b :: rest) =
      (nextByte begun b.toNat).1 ++ decodeFrom (nextByte begun b.toNat).2 rest := rfl

/-- A byte that begins a character prints nothing yet. -/
theorem decodeFrom_first {b : Nat} {p : Begun} (hb : b < 256) (h : firstByte b = ([], some p))
    (rest : List UInt8) :
    decodeFrom none (UInt8.ofNat b :: rest) = decodeFrom (some p) rest := by
  rw [decodeFrom_cons, UInt8.toNat_ofNat_of_lt' hb]
  simp only [nextByte, h, List.nil_append]

section

variable {b low high : Nat} (hb : b < 256) (hrange : low ≤ b ∧ b ≤ high)

include hb hrange

/-- A byte in the expected range is added to the character begun. -/
theorem decodeFrom_more (needed bits : Nat) (rest : List UInt8) :
    decodeFrom (some ⟨needed + 2, low, high, bits⟩) (UInt8.ofNat b :: rest) =
      decodeFrom (some ⟨needed + 1, 0x80, 0xBF, bits * 0x40 + (b - 0x80)⟩) rest := by
  rw [decodeFrom_cons, UInt8.toNat_ofNat_of_lt' hb]
  simp only [nextByte, if_pos hrange, if_neg (by omega : ¬ needed + 2 ≤ 1), List.nil_append,
    Nat.reduceSubDiff]

/-- The last byte completes it. -/
theorem decodeFrom_last (bits : Nat) (rest : List UInt8) :
    decodeFrom (some ⟨1, low, high, bits⟩) (UInt8.ofNat b :: rest) =
      Char.ofNat (bits * 0x40 + (b - 0x80)) :: decodeFrom none rest := by
  rw [decodeFrom_cons, UInt8.toNat_ofNat_of_lt' hb]
  simp only [nextByte, if_pos hrange, Nat.le_refl, if_true, List.singleton_append]

end

/-- A byte that begins a character of two bytes waits for one more. -/
theorem firstByte_two {b : Nat} (hb : 0xC2 ≤ b ∧ b ≤ 0xDF) :
    firstByte b = ([], some ⟨1, 0x80, 0xBF, b - 0xC0⟩) := by
  unfold firstByte
  rw [if_neg (by omega), if_neg (by omega), if_pos (by omega)]

/-- A first byte of three leaves out what would be shorter, and the surrogates. -/
theorem firstByte_three {b : Nat} (hb : 0xE0 ≤ b ∧ b ≤ 0xEF) :
    firstByte b = ([], some ⟨2, if b = 0xE0 then 0xA0 else 0x80, if b = 0xED then 0x9F else 0xBF,
      b - 0xE0⟩) := by
  unfold firstByte
  rw [if_neg (by omega), if_neg (by omega), if_neg (by omega)]
  by_cases hshort : b = 0xE0
  · simp [hshort]
  by_cases hsurrogate : b = 0xED
  · simp [hsurrogate]
  rw [if_neg hshort, if_neg hsurrogate, if_pos (by omega), if_neg hshort, if_neg hsurrogate]

/-- A first byte of four leaves out what would be shorter, and what is no character. -/
theorem firstByte_four {b : Nat} (hb : 0xF0 ≤ b ∧ b ≤ 0xF4) :
    firstByte b = ([], some ⟨3, if b = 0xF0 then 0x90 else 0x80, if b = 0xF4 then 0x8F else 0xBF,
      b - 0xF0⟩) := by
  unfold firstByte
  rw [if_neg (by omega), if_neg (by omega), if_neg (by omega), if_neg (by omega),
    if_neg (by omega), if_neg (by omega)]
  by_cases hshort : b = 0xF0
  · simp [hshort]
  by_cases hlast : b = 0xF4
  · simp [hlast]
  rw [if_neg hshort, if_pos (by omega), if_neg hshort, if_neg hlast]

/-! The bytes of a character with the number `v`, by how many there are. -/

section

variable {v : Nat} (rest : List UInt8)

/-- A character of one byte is printed. -/
theorem decodeFrom_one (hv : v ≤ 127) :
    decodeFrom none (UInt8.ofNat v :: rest) = Char.ofNat v :: decodeFrom none rest := by
  have hfirst : firstByte v = ([Char.ofNat v], none) := by
    rw [firstByte, if_pos (by omega)]
  rw [decodeFrom_cons, UInt8.toNat_ofNat_of_lt' (by omega : v < 256)]
  simp only [nextByte, hfirst, List.singleton_append]

/-- A character of two bytes is printed. -/
theorem decodeFrom_two (hv : 127 < v ∧ v ≤ 2047) :
    decodeFrom none (UInt8.ofNat (v / 64 % 32 + 192) :: UInt8.ofNat (v % 64 + 128) :: rest) =
      Char.ofNat v :: decodeFrom none rest := by
  have hbits : (v / 64 % 32 + 192 - 0xC0) * 0x40 + (v % 64 + 128 - 0x80) = v := by omega
  rw [decodeFrom_first (by omega) (firstByte_two (by omega)),
    decodeFrom_last (by omega) (by omega), hbits]

/-- A character of three bytes, which is no surrogate, is printed. -/
theorem decodeFrom_three (hv : 2047 < v ∧ v ≤ 65535) (hsurrogate : v < 0xD800 ∨ 0xDFFF < v) :
    decodeFrom none (UInt8.ofNat (v / 4096 % 16 + 224) :: UInt8.ofNat (v / 64 % 64 + 128) ::
      UInt8.ofNat (v % 64 + 128) :: rest) = Char.ofNat v :: decodeFrom none rest := by
  have hlow : (if v / 4096 % 16 + 224 = 0xE0 then 0xA0 else 0x80) ≤ v / 64 % 64 + 128 := by
    split <;> omega
  have hhigh : v / 64 % 64 + 128 ≤ if v / 4096 % 16 + 224 = 0xED then 0x9F else 0xBF := by
    split <;> omega
  have hbits : ((v / 4096 % 16 + 224 - 0xE0) * 0x40 + (v / 64 % 64 + 128 - 0x80)) * 0x40 +
      (v % 64 + 128 - 0x80) = v := by omega
  rw [decodeFrom_first (by omega) (firstByte_three (by omega)),
    decodeFrom_more (by omega) ⟨hlow, hhigh⟩, decodeFrom_last (by omega) (by omega), hbits]

/-- A character of four bytes is printed. -/
theorem decodeFrom_four (hv : 65535 < v ∧ v < 0x110000) :
    decodeFrom none (UInt8.ofNat (v / 262144 % 8 + 240) :: UInt8.ofNat (v / 4096 % 64 + 128) ::
      UInt8.ofNat (v / 64 % 64 + 128) :: UInt8.ofNat (v % 64 + 128) :: rest) =
      Char.ofNat v :: decodeFrom none rest := by
  have hlow : (if v / 262144 % 8 + 240 = 0xF0 then 0x90 else 0x80) ≤ v / 4096 % 64 + 128 := by
    split <;> omega
  have hhigh : v / 4096 % 64 + 128 ≤ if v / 262144 % 8 + 240 = 0xF4 then 0x8F else 0xBF := by
    split <;> omega
  have hbits : (((v / 262144 % 8 + 240 - 0xF0) * 0x40 + (v / 4096 % 64 + 128 - 0x80)) * 0x40 +
      (v / 64 % 64 + 128 - 0x80)) * 0x40 + (v % 64 + 128 - 0x80) = v := by omega
  rw [decodeFrom_first (by omega) (firstByte_four (by omega)),
    decodeFrom_more (by omega) ⟨hlow, hhigh⟩, decodeFrom_more (by omega) (by omega),
    decodeFrom_last (by omega) (by omega), hbits]

end

/-- The bytes of any character are read as that character. -/
theorem decodeFrom_utf8EncodeChar (c : Char) (rest : List UInt8) :
    decodeFrom none (String.utf8EncodeChar c ++ rest) = c :: decodeFrom none rest := by
  have hvalid : c.toNat < 0xD800 ∨ 0xDFFF < c.toNat ∧ c.toNat < 0x110000 := c.valid
  have hchar : Char.ofNat c.toNat = c := Char.ofNat_toNat c
  have hval : c.val.toNat = c.toNat := rfl
  unfold String.utf8EncodeChar
  dsimp only
  rw [hval]
  by_cases h₁ : c.toNat ≤ 127
  · rw [if_pos h₁, List.singleton_append, decodeFrom_one rest h₁, hchar]
  rw [if_neg h₁]
  by_cases h₂ : c.toNat ≤ 2047
  · rw [if_pos h₂, List.cons_append, List.singleton_append, decodeFrom_two rest (by omega), hchar]
  rw [if_neg h₂]
  by_cases h₃ : c.toNat ≤ 65535
  · rw [if_pos h₃, List.cons_append, List.cons_append, List.singleton_append,
      decodeFrom_three rest (by omega) (by omega), hchar]
  rw [if_neg h₃, List.cons_append, List.cons_append, List.cons_append, List.singleton_append,
    decodeFrom_four rest (by omega), hchar]

/-- The bytes of a text are read as that text. -/
theorem decodeLossy_toUTF8 (s : String) : decodeLossy s.toUTF8 = s := by
  have hchars (cs : List Char) : decodeFrom none (cs.flatMap String.utf8EncodeChar) = cs := by
    induction cs with
    | nil => rfl
    | cons c cs ih => rw [List.flatMap_cons, decodeFrom_utf8EncodeChar, ih]
  rw [decodeLossy, bytes_toList, ← utf8Bytes, utf8Bytes_eq, hchars, String.ofList_toList]

end VolumeBroker.Text
