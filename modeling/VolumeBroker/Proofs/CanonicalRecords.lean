import VolumeBroker.Proofs.StoreKinds

/-!
# Canonical records

The record of an allocation can be written in many ways: the members may stand in any order, there
may be others beside them, and a character of the owner may be escaped without need.  Whoever writes
a record here writes it in one way.  `Allocation.text` is that way, spelled out, and a text that can
be read at all becomes the canonical one when it is read and written again, with the same
allocation.
-/

set_option autoImplicit false

namespace VolumeBroker

/-- How a character is written within the quotes of a record: a quote, a backslash and the control
characters are escaped, and every other character stands for itself. -/
def quotedChar (c : Char) : List Char :=
  if c = '"' then ['\\', '"']
  else if c = '\\' then ['\\', '\\']
  else if c = '\x08' then ['\\', 'b']
  else if c = '\x0c' then ['\\', 'f']
  else if c = '\n' then ['\\', 'n']
  else if c = '\r' then ['\\', 'r']
  else if c = '\t' then ['\\', 't']
  else if c.toNat < 0x20 then
    ['\\', 'u', '0', '0', (c.toNat / 0x10).digitChar, (c.toNat % 0x10).digitChar]
  else [c]

/-- A character is printed as it is quoted. -/
theorem Json.Literal.pieceChars_ofChar (c : Char) : pieceChars (ofChar c) = quotedChar c := by
  unfold ofChar quotedChar
  split
  case h_8 hquote hslash hback hfeed hline hreturn htab =>
    rw [if_neg hquote, if_neg hslash, if_neg hback, if_neg hfeed, if_neg hline, if_neg hreturn,
      if_neg htab]
    split
    · next hcontrol =>
      -- The first two digits of a control character are zero.
      have hhigh : c.toNat / 0x1000 % 0x10 = 0 ∧ c.toNat / 0x100 % 0x10 = 0 ∧
          c.toNat / 0x10 % 0x10 = c.toNat / 0x10 := by omega
      obtain ⟨hfirst, hsecond, hthird⟩ := hhigh
      simp only [pieceChars, unitDigits, List.map_cons, List.map_nil, hfirst, hsecond, hthird]
      rfl
    · rfl
  all_goals rfl

namespace Allocation

/-- The text of the record of an allocation. -/
def text : Allocation → String
  | .free => "\x7b\"state\":\"free\"\x7d"
  | .owned volume => "\x7b\"state\":\"allocated\",\"owner_volume\":\"" ++
      String.ofList (volume.toList.flatMap quotedChar) ++ "\"\x7d"

/-- The characters of the record of a device that is bound. -/
theorem chars_owned (volume : String) :
    (owned volume).chars = "\x7b\"state\":\"allocated\",\"owner_volume\":\"".toList ++
      volume.toList.flatMap quotedChar ++ "\"\x7d".toList := by
  have hpieces : Json.Literal.pieceChars ∘ Json.Literal.ofChar = quotedChar :=
    funext Json.Literal.pieceChars_ofChar
  have hvolume : (Json.Literal.ofText volume).chars =
      '"' :: volume.toList.flatMap quotedChar ++ ['"'] := by
    rw [Json.Literal.chars, Json.Literal.ofText, List.flatMap_map, ← hpieces]
    rfl
  have htagKey : (Json.Literal.ofText tagKey).chars = "\"state\"".toList := rfl
  have htag : (Json.Literal.ofText "allocated").chars = "\"allocated\"".toList := rfl
  have hownerKey : (Json.Literal.ofText ownerKey).chars = "\"owner_volume\"".toList := rfl
  simp [chars, members, owner?, List.intercalate, memberChars, tag, htagKey, htag, hownerKey,
    hvolume]

/-- The characters of the canonical text of a device that is bound. -/
theorem toList_text_owned (volume : String) :
    (owned volume).text.toList = "\x7b\"state\":\"allocated\",\"owner_volume\":\"".toList ++
      volume.toList.flatMap quotedChar ++ "\"\x7d".toList := by
  have hvolume : (String.ofList (volume.toList.flatMap quotedChar)).toList =
      volume.toList.flatMap quotedChar := String.toList_ofList
  unfold text
  rw [String.toList_append, String.toList_append, hvolume]

/-- The record of every allocation is written as this text. -/
theorem encode_eq_text (a : Allocation) : a.encode = a.text := by
  cases a with
  | free => rfl
  | owned volume =>
    have hchars : (owned volume).encode.toList = (owned volume).chars := String.toList_ofList
    apply String.toList_injective
    exact hchars.trans ((chars_owned volume).trans (toList_text_owned volume).symm)

/-- What becomes of the text of a record that is read and written again. -/
def rewrite? (text : String) : Option String := (decode? text).map encode

/-- A record that is read and written again has the text of its allocation. -/
theorem rewrite?_of_decode? {text : String} {a : Allocation} (h : decode? text = some a) :
    rewrite? text = some a.encode := by
  rw [rewrite?, h, Option.map_some]

/-- Different allocations have different texts. -/
theorem encode_injective {a a' : Allocation} (h : a.encode = a'.encode) : a = a' := by
  have hread := a.decode?_encode
  rw [h, decode?_encode] at hread
  exact (Option.some.inj hread).symm

end Allocation

namespace Store

/-- What a database has been read as is written back as canonical texts, and nothing else is left.
-/
theorem save_of_load {texts : Std.ExtTreeMap String String} {snapshot : Snapshot}
    (h : (database texts).load = .ok snapshot) :
    (database texts).save snapshot = inDatabase snapshot := by
  obtain ⟨hall, rfl⟩ := load_database_eq_ok h
  refine congrArg database (Std.ExtTreeMap.ext_getElem? fun nqn => ?_)
  simp only [Std.ExtTreeMap.getElem?_union, Std.ExtTreeMap.getElem?_map,
    Std.ExtTreeMap.getElem?_filterMap]
  cases htext : texts[nqn]? with
  | none => rfl
  | some text =>
    obtain ⟨a, ha⟩ := Option.isSome_iff_exists.mp (hall nqn text htext)
    simp [ha]

end Store

namespace Allocation

/-- The record of an allocation, whatever the name of its owner, has the text that is spelled out
above, and is read back as it was written.  Every text that can be read becomes that text when it is
read and written again, and stays so; two texts become the same one exactly if they mean the same.
So a database that can be read holds canonical texts after all that it holds has been written back,
and is read as before. -/
theorem records_read_back :
    (∀ a : Allocation, a.encode = a.text ∧ decode? a.encode = some a) ∧
    (∀ (text : String) (a : Allocation), decode? text = some a →
      rewrite? text = some a.encode ∧ decode? a.encode = some a ∧
        rewrite? a.encode = some a.encode) ∧
    (∀ (text text' : String) (a a' : Allocation), decode? text = some a → decode? text' = some a' →
      (rewrite? text = rewrite? text' ↔ a = a')) ∧
    ∀ (texts : Std.ExtTreeMap String String) (snapshot : Snapshot),
      (Store.database texts).load = .ok snapshot →
      (Store.database texts).save snapshot = Store.inDatabase snapshot ∧
        (Store.inDatabase snapshot).load = .ok snapshot ∧
        (Store.inDatabase snapshot).save snapshot = Store.inDatabase snapshot := by
  refine ⟨fun a => ⟨a.encode_eq_text, a.decode?_encode⟩, fun text a h => ?_,
    fun text text' a a' h h' => ?_, fun texts snapshot h => ?_⟩
  · exact ⟨rewrite?_of_decode? h, a.decode?_encode, rewrite?_of_decode? a.decode?_encode⟩
  · rw [rewrite?_of_decode? h, rewrite?_of_decode? h', Option.some.injEq]
    exact ⟨encode_injective, congrArg encode⟩
  · have hread := Store.load_inDatabase snapshot
    exact ⟨Store.save_of_load h, hread, Store.save_of_load hread⟩

/-- A record that somebody else has written, with its members in another order, with one that means
nothing and with an escape that is not needed: read and written again it is the canonical one. -/
theorem foreign_record_rewritten :
    let foreign := "\x7b\"owner_volume\":\"a\\u0022\\n\",\"x\":[1],\"state\":\"allocated\"\x7d"
    rewrite? foreign = some "\x7b\"state\":\"allocated\",\"owner_volume\":\"a\\\"\\n\"\x7d" ∧
      decode? "\x7b\"state\":\"allocated\",\"owner_volume\":\"a\\\"\\n\"\x7d" =
        some (.owned "a\"\n") := by
  intro foreign
  have hread : decode? foreign = some (.owned "a\"\n") := by decide
  obtain ⟨hall, hrewrite, -⟩ := records_read_back
  have htext : (owned "a\"\n").encode = _ := (hall (.owned "a\"\n")).1
  obtain ⟨hcanonical, hagain, -⟩ := hrewrite foreign _ hread
  rw [htext] at hcanonical hagain
  exact ⟨hcanonical, hagain⟩

end Allocation

end VolumeBroker
