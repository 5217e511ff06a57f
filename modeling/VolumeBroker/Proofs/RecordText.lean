import VolumeBroker.Proofs.TaggedRecords

/-!
# Records are read back

A store that keeps texts believes what it reads, so the text of a record must mean the allocation it
was written for, whatever the name of the owner.  `writtenAs_ofChar` says that what is written for a
character is a piece of a literal, `written_literal` that a text between its quotes is a token, and
from there on only a handful of tokens is left to be read.
-/

set_option autoImplicit false

namespace VolumeBroker.Json

/-- The digit that a number less than sixteen is printed with is read as the number. -/
theorem hexValue?_digitChar {n : Nat} (h : n < 0x10) : Text.hexValue? n.digitChar = some n := by
  have all : ∀ m, m < 0x10 → Text.hexValue? m.digitChar = some m := by decide
  exact all n h

/-- A unit is written as a backslash, a `u` and four digits. -/
theorem writtenAs_code {unit : Nat} (h : unit < 0x10000) :
    (Piece.code unit).WrittenAs (Literal.pieceChars (.code unit)) := by
  have digit (n : Nat) : Text.digitValue? 16 (n % 0x10).digitChar = some (n % 0x10) := by
    rw [digitValue?_sixteen]
    exact hexValue?_digitChar (Nat.mod_lt n (by omega))
  have hdigits : ∀ c ∈ Literal.unitDigits unit, Text.isDigitOf 16 c = true := by
    simp [Literal.unitDigits, Text.isDigitOf, digit]
  have hvalue : Text.digitsValue 16 (Literal.unitDigits unit) = unit := by
    simp only [Text.digitsValue, Text.valueAfter, Literal.unitDigits, List.map_cons, List.map_nil,
      List.foldl_cons, List.foldl_nil, digit, Option.getD_some]
    omega
  have hcode := Piece.WrittenAs.code (rfl : (Literal.unitDigits unit).length = 4) hdigits
  rw [hvalue] at hcode
  exact hcode

/-- A character is written as the piece that it is made into. -/
theorem writtenAs_ofChar (c : Char) :
    (Literal.ofChar c).WrittenAs (Literal.pieceChars (Literal.ofChar c)) := by
  unfold Literal.ofChar
  split
  case h_8 hquote hslash _ _ _ _ _ =>
    split
    · next hcontrol => exact writtenAs_code (by omega)
    · next hplain =>
      have hquote : c ≠ '"' := hquote
      have hslash : c ≠ '\\' := hslash
      exact .plain (by simp [isPlain, hquote, hslash]; omega)
  all_goals exact .escape rfl

/-- The characters of a text are written as the pieces that they are made into. -/
theorem writtenAs_pieces (cs : List Char) : Literal.WrittenAs (cs.map Literal.ofChar)
    ((cs.map Literal.ofChar).flatMap Literal.pieceChars) := by
  induction cs with
  | nil => exact .nil
  | cons c cs ih => exact .cons (writtenAs_ofChar c) ih

/-- A text that is written as a literal is one token. -/
theorem written_literal (s : String) :
    Written [.string (Literal.ofText s)] (Literal.ofText s).chars :=
  Written.concat .nil (.string (writtenAs_pieces s.toList))

end VolumeBroker.Json

namespace VolumeBroker.Allocation

open Json

/-- The tokens of a member of a record. -/
def memberTokens (key value : String) : List Token :=
  [.string (Literal.ofText key), .colon, .string (Literal.ofText value)]

/-- The tokens of a record. -/
def tokens (a : Allocation) : List Token :=
  .openBrace :: [.comma].intercalate (a.members.map fun (k, v) => memberTokens k v) ++ [.closeBrace]

/-- The tree of a record. -/
def tree (a : Allocation) : Value :=
  .object (a.members.map fun (k, v) => (Literal.ofText k, .string (Literal.ofText v)))

/-- The record is printed with the tokens of its tree. -/
theorem tokens_tree (a : Allocation) : a.tree.tokens = a.tokens := by
  cases a <;> rfl

/-- A member of a record is a text of its tokens. -/
theorem written_memberChars (key value : String) :
    Written (memberTokens key value) (memberChars key value) := by
  have hcolon : Written [.colon] [':'] := Written.concat .nil (.mark rfl)
  exact (written_literal key).append (hcolon.append (written_literal value))

/-- The text of a record is a text of its tokens. -/
theorem written_chars (a : Allocation) : Written a.tokens a.chars := by
  have hopen : Written [.openBrace] ['\x7b'] := Written.concat .nil (.mark rfl)
  have hclose : Written [.closeBrace] ['\x7d'] := Written.concat .nil (.mark rfl)
  have hcomma : Written [.comma] [','] := Written.concat .nil (.mark rfl)
  have htag := written_memberChars tagKey a.tag
  cases a with
  | free =>
    have hrecord := hopen.append (htag.append hclose)
    simpa [tokens, chars, members, owner?, List.intercalate] using hrecord
  | owned volume =>
    have howner := written_memberChars ownerKey volume
    have hrecord := hopen.append (htag.append (hcomma.append (howner.append hclose)))
    simpa [tokens, chars, members, owner?, List.intercalate] using hrecord

/-- The text of a record is a text of its tree. -/
theorem writtenAs_encode (a : Allocation) : a.tree.WrittenAs a.encode := by
  have hchars : a.encode.toList = a.chars := String.toList_ofList
  unfold Value.WrittenAs
  rw [hchars, tokens_tree]
  exact a.written_chars

/-- All tokens of a record mean something. -/
theorem isMeaningful_tokens (a : Allocation) : ∀ t ∈ a.tokens, t.isMeaningful = true := by
  cases a <;>
    simp [tokens, members, memberTokens, owner?, List.intercalate, Token.isMeaningful,
      Literal.decode?_ofText]

/-- A record nests no deeper than records may. -/
theorem nestsWithin_tokens (a : Allocation) : nestsWithin maxRecordDepth 0 a.tokens = true := by
  cases a <;>
    simp [tokens, members, memberTokens, owner?, List.intercalate, nestsWithin, maxRecordDepth]

/-- The members of a record give the allocation. -/
theorem ofMembers?_members (a : Allocation) :
    ofMembers? (a.members.map fun (k, v) => (k, .string (Literal.ofText v))) = some a := by
  have htext (s : String) : (Value.string (Literal.ofText s)).text? = some s := by
    simp [Value.text?, Literal.decode?_ofText]
  cases a with
  | free => rfl
  | owned volume =>
    -- Both members are found by their names; only their texts have to be decoded.
    refine Option.bind_eq_some_iff.mpr ⟨"allocated", htext "allocated", ?_⟩
    exact Option.bind_eq_some_iff.mpr ⟨volume, htext volume, rfl⟩

/-- The tree of a record is read as the record. -/
theorem ofValue?_tree (a : Allocation) : ofValue? a.tree = some a := by
  have hkeys : keyed? (a.members.map fun (k, v) =>
      (Literal.ofText k, .string (Literal.ofText v))) =
        some (a.members.map fun (k, v) => (k, .string (Literal.ofText v))) := by
    cases a <;> simp [keyed?, members, owner?, Literal.decode?_ofText]
  exact Option.bind_eq_some_iff.mpr ⟨_, hkeys, ofMembers?_members a⟩

/-- A record that is written is read back. -/
theorem decode?_encode (a : Allocation) : decode? a.encode = some a := by
  have hsound :
      (a.tree.tokens.all Token.isMeaningful && nestsWithin maxRecordDepth 0 a.tree.tokens) =
        true := by
    rw [tokens_tree, List.all_eq_true.mpr a.isMeaningful_tokens, nestsWithin_tokens, Bool.and_self]
  obtain ⟨hdecodable, hnests⟩ := (checks_iff a.tree).mp hsound
  exact decode?_eq_some_iff.mpr
    ⟨a.tree, a.writtenAs_encode, hdecodable, hnests, a.ofValue?_tree⟩

end VolumeBroker.Allocation
