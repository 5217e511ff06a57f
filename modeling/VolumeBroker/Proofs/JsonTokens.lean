import Mathlib.Data.List.Chain
import VolumeBroker.Json.Token
import VolumeBroker.Proofs.JsonNumbers

/-!
# How tokens are written in JSON

`Written` says which texts a list of tokens has: each token may be written in several ways, and
blanks may stand anywhere.  A literal keeps its pieces as they are written, so what can differ is
the case of hexadecimal digits.

The scanner is followed in both directions.  `Scan.ReadFrom` says what has been read when a scan is
in a certain state; one character keeps it, and so a scan that ends has read a text of its tokens.
The other way round, a text is scanned token by token.  A word or a number ends where something
else begins, so two of them must not stand next to each other.
-/

set_option autoImplicit false

namespace VolumeBroker.Json

/-- The digits of a unit may be of either case. -/
inductive Piece.WrittenAs : Piece → List Char → Prop
  | plain {c : Char} : isPlain c = true → WrittenAs (.plain c) [c]
  | escape {letter : Char} : (escaped? letter).isSome → WrittenAs (.escape letter) ['\\', letter]
  | code {ds : List Char} : ds.length = 4 → (∀ c ∈ ds, Text.isDigitOf 16 c = true) →
      WrittenAs (.code (Text.digitsValue 16 ds)) ('\\' :: 'u' :: ds)

/-- The pieces of a string are written one after the other. -/
inductive Literal.WrittenAs : Literal → List Char → Prop
  | nil : WrittenAs [] []
  | cons {p : Piece} {l : Literal} {w cs : List Char} :
      p.WrittenAs w → WrittenAs l cs → WrittenAs (p :: l) (w ++ cs)

/-- What a token may be written as. -/
inductive Token.WrittenAs : Token → List Char → Prop
  | mark {c : Char} {t : Token} : ofMark? c = some t → WrittenAs t [c]
  | null : WrittenAs .null "null".toList
  | true : WrittenAs (.bool true) "true".toList
  | false : WrittenAs (.bool false) "false".toList
  | number {w : List Char} : Number.IsNumber w → WrittenAs (.number w) w
  | string {l : Literal} {w : List Char} : l.WrittenAs w → WrittenAs (.string l) ('"' :: w ++ ['"'])

/-- The text consists of the tokens, with blanks before, between and after them. -/
inductive Written : List Token → List Char → Prop
  | nil : Written [] []
  | space {c : Char} {ts : List Token} {cs : List Char} :
      isSpace c = true → Written ts cs → Written ts (c :: cs)
  | token {t : Token} {ts : List Token} {w cs : List Char} :
      t.WrittenAs w → Written ts cs → Written (t :: ts) (w ++ cs)

/-- What two strings are written as, one after the other, is a way to write both in one. -/
theorem Literal.WrittenAs.append {l l' : Literal} {cs cs' : List Char} (h : l.WrittenAs cs)
    (h' : l'.WrittenAs cs') : (l ++ l' : Literal).WrittenAs (cs ++ cs') := by
  induction h with
  | nil => exact h'
  | cons hp _ ih =>
    rw [List.append_assoc]
    exact .cons hp ih

/-- One more piece can be written at the end. -/
theorem Literal.WrittenAs.concat {l : Literal} {p : Piece} {cs w : List Char} (h : l.WrittenAs cs)
    (hp : p.WrittenAs w) : (l ++ [p] : Literal).WrittenAs (cs ++ w) := by
  have hlast : Literal.WrittenAs [p] (w ++ []) := .cons hp .nil
  rw [List.append_nil] at hlast
  exact h.append hlast

/-- Two texts of tokens make a text of all of them. -/
theorem Written.append {ts ts' : List Token} {cs cs' : List Char} (h : Written ts cs)
    (h' : Written ts' cs') : Written (ts ++ ts') (cs ++ cs') := by
  induction h with
  | nil => exact h'
  | space hc _ ih => exact .space hc ih
  | token ht _ ih =>
    rw [List.append_assoc]
    exact .token ht ih

/-- One more token can be written at the end. -/
theorem Written.concat {ts : List Token} {t : Token} {cs w : List Char} (h : Written ts cs)
    (ht : t.WrittenAs w) : Written (ts ++ [t]) (cs ++ w) := by
  have hlast : Written [t] (w ++ []) := .token ht .nil
  rw [List.append_nil] at hlast
  exact h.append hlast

/-! ## Hexadecimal digits -/

/-- Digits of base sixteen are less than sixteen. -/
theorem lt_of_hexValue? {c : Char} {d : Nat} (h : Text.hexValue? c = some d) : d < 16 := by
  unfold Text.hexValue? at h
  split at h
  · next hdigit =>
    have hle : c.toNat ≤ '9'.toNat := by
      simp only [Char.isDigit, Bool.and_eq_true, decide_eq_true_eq] at hdigit
      exact hdigit.2
    obtain rfl := Option.some.inj h
    have : '9'.toNat = 57 ∧ '0'.toNat = 48 := ⟨rfl, rfl⟩
    omega
  · split at h
    · next hlower =>
      have hle : c.toNat ≤ 'f'.toNat := hlower.2
      obtain rfl := Option.some.inj h
      have : 'f'.toNat = 102 ∧ 'a'.toNat = 97 := ⟨rfl, rfl⟩
      omega
    · split at h
      · next hupper =>
        have hle : c.toNat ≤ 'F'.toNat := hupper.2
        obtain rfl := Option.some.inj h
        have : 'F'.toNat = 70 ∧ 'A'.toNat = 65 := ⟨rfl, rfl⟩
        omega
      · cases h

/-- In base sixteen a digit is what it is in a unit. -/
theorem digitValue?_sixteen (c : Char) : Text.digitValue? 16 c = Text.hexValue? c := by
  unfold Text.digitValue?
  cases h : Text.hexValue? c with
  | none => rfl
  | some d => simp [lt_of_hexValue? h]

/-- One more digit shifts the others by one place. -/
theorem digitsValue_concat {ds : List Char} {c : Char} {d : Nat}
    (h : Text.hexValue? c = some d) :
    Text.digitsValue 16 (ds ++ [c]) = Text.digitsValue 16 ds * 16 + d := by
  unfold Text.digitsValue
  rw [Text.valueAfter_append]
  simp [Text.valueAfter, digitValue?_sixteen, h]

/-! ## What a scan has read -/

/-- What has been read of the token a scan is in the middle of. -/
inductive Pending.ReadFrom : Pending → List Char → Prop
  | nothing : ReadFrom .nothing []
  | word {letters : List Char} : ReadFrom (.word letters) letters.reverse
  | number {written : List Char} : ReadFrom (.number written) written.reverse
  | string {pieces : Literal} {cs : List Char} :
      Literal.WrittenAs pieces.reverse cs → ReadFrom (.string pieces) ('"' :: cs)
  | escape {pieces : Literal} {cs : List Char} :
      Literal.WrittenAs pieces.reverse cs → ReadFrom (.escape pieces) ('"' :: cs ++ ['\\'])
  | code {pieces : Literal} {cs ds : List Char} {missing : Nat} :
      Literal.WrittenAs pieces.reverse cs → (∀ c ∈ ds, Text.isDigitOf 16 c = true) →
      ds.length + missing = 4 → 0 < missing →
      ReadFrom (.code pieces missing (Text.digitsValue 16 ds)) ('"' :: cs ++ '\\' :: 'u' :: ds)

namespace Scan

/-- The scan has read this text: it has the tokens that have ended, and is in the middle of another
or between two. -/
def ReadFrom (s : Scan) (cs : List Char) : Prop :=
  ∃ front back, Written s.tokens.reverse front ∧ s.pending.ReadFrom back ∧ cs = front ++ back

/-- Letters that make a token are a way to write it. -/
theorem writtenAs_of_ofWord? {letters : List Char} {t : Token}
    (h : Token.ofWord? letters = some t) : t.WrittenAs letters := by
  unfold Token.ofWord? at h
  split at h
  · next hword =>
    obtain rfl := beq_iff_eq.mp hword
    obtain rfl := Option.some.inj h
    exact .null
  · split at h
    · next hword =>
      obtain rfl := beq_iff_eq.mp hword
      obtain rfl := Option.some.inj h
      exact .true
    · split at h
      · next hword =>
        obtain rfl := beq_iff_eq.mp hword
        obtain rfl := Option.some.inj h
        exact .false
      · cases h

/-- Characters that make a number are a way to write it. -/
theorem writtenAs_of_ofNumber? {written : List Char} {t : Token}
    (h : Token.ofNumber? written = some t) : t.WrittenAs written := by
  obtain ⟨n, hn, rfl⟩ := Option.map_eq_some_iff.mp h
  exact .number (Number.isSome_read?_iff.mp (by rw [hn]; rfl))

/-- When a scan ends, its tokens are those of the text that it has read. -/
theorem ReadFrom.flush {s s' : Scan} {cs : List Char} (h : s.ReadFrom cs)
    (hflush : s.flush = some s') : Written s'.tokens.reverse cs := by
  obtain ⟨front, back, hfront, hback, rfl⟩ := h
  unfold Scan.flush at hflush
  cases hpending : s.pending with
  | nothing =>
    rw [hpending] at hflush hback
    cases hback
    obtain rfl := Option.some.inj hflush
    rw [List.append_nil]
    exact hfront
  | word letters =>
    rw [hpending] at hflush hback
    cases hback
    obtain ⟨t, ht, rfl⟩ := Option.map_eq_some_iff.mp hflush
    rw [List.reverse_cons]
    exact hfront.concat (writtenAs_of_ofWord? ht)
  | number written =>
    rw [hpending] at hflush hback
    cases hback
    obtain ⟨t, ht, rfl⟩ := Option.map_eq_some_iff.mp hflush
    rw [List.reverse_cons]
    exact hfront.concat (writtenAs_of_ofNumber? ht)
  | string pieces => simp [hpending] at hflush
  | escape pieces => simp [hpending] at hflush
  | code pieces missing value => simp [hpending] at hflush

/-- A character that begins a token, or a blank, keeps the scan in step with the text. -/
theorem readFrom_start {tokens : List Token} {c : Char} {s : Scan} {cs : List Char}
    (h : Written tokens.reverse cs) (hstart : start tokens c = some s) :
    s.ReadFrom (cs ++ [c]) := by
  unfold start at hstart
  split at hstart
  · next hspace =>
    obtain rfl := Option.some.inj hstart
    refine ⟨cs ++ [c], [], ?_, .nothing, (List.append_nil _).symm⟩
    have hc : Written [] [c] := .space hspace .nil
    simpa using h.append hc
  · split at hstart
    · next hquote =>
      obtain rfl := Option.some.inj hstart
      obtain rfl := beq_iff_eq.mp hquote
      exact ⟨cs, ['"'], h, .string .nil, rfl⟩
    · split at hstart
      · obtain rfl := Option.some.inj hstart
        exact ⟨cs, [c], h, .number, rfl⟩
      · split at hstart
        · obtain rfl := Option.some.inj hstart
          exact ⟨cs, [c], h, .word, rfl⟩
        · obtain ⟨t, ht, rfl⟩ := Option.map_eq_some_iff.mp hstart
          refine ⟨cs ++ [c], [], ?_, .nothing, (List.append_nil _).symm⟩
          rw [List.reverse_cons]
          exact h.concat (.mark ht)

/-- A digit of a unit keeps the scan in step with the text, whether it is the last of the four or
not. -/
theorem readFrom_code {tokens : List Token} {pieces : Literal} {front cs ds : List Char} {c : Char}
    {missing d : Nat} (hfront : Written tokens.reverse front)
    (hpieces : Literal.WrittenAs pieces.reverse cs) (hds : ∀ c ∈ ds, Text.isDigitOf 16 c = true)
    (hlength : ds.length + missing = 4) (hmissing : 0 < missing)
    (hd : Text.hexValue? c = some d) :
    ReadFrom
      (if missing ≤ 1 then ⟨tokens, .string (.code (Text.digitsValue 16 ds * 16 + d) :: pieces)⟩
      else ⟨tokens, .code pieces (missing - 1) (Text.digitsValue 16 ds * 16 + d)⟩)
      (front ++ ('"' :: cs ++ '\\' :: 'u' :: ds) ++ [c]) := by
  have hc : Text.isDigitOf 16 c = true := by simp [Text.isDigitOf, digitValue?_sixteen, hd]
  have hall : ∀ b ∈ ds ++ [c], Text.isDigitOf 16 b = true := by
    intro b hb
    rcases List.mem_append.mp hb with hb | hb
    · exact hds b hb
    · rw [List.mem_singleton.mp hb]
      exact hc
  rw [← digitsValue_concat hd]
  split
  · next hlast =>
    have hfour : (ds ++ [c]).length = 4 := by
      rw [List.length_append, List.length_singleton]
      omega
    have hpiece : Piece.WrittenAs (.code (Text.digitsValue 16 (ds ++ [c])))
        ('\\' :: 'u' :: (ds ++ [c])) := .code hfour hall
    refine ⟨front, '"' :: (cs ++ '\\' :: 'u' :: (ds ++ [c])), hfront, .string ?_, by simp⟩
    rw [List.reverse_cons]
    exact hpieces.concat hpiece
  · next hmore =>
    have hfour : (ds ++ [c]).length + (missing - 1) = 4 := by
      rw [List.length_append, List.length_singleton]
      omega
    refine ⟨front, '"' :: cs ++ '\\' :: 'u' :: (ds ++ [c]), hfront, ?_, by simp⟩
    exact .code hpieces hall hfour (by omega)

/-- A character of a string keeps the scan in step with the text. -/
theorem readFrom_string {tokens : List Token} {pieces : Literal} {front cs : List Char} {c : Char}
    {s : Scan} (hfront : Written tokens.reverse front)
    (hpieces : Literal.WrittenAs pieces.reverse cs)
    (hstep : step ⟨tokens, .string pieces⟩ c = some s) :
    s.ReadFrom (front ++ ('"' :: cs) ++ [c]) := by
  dsimp only [step] at hstep
  split at hstep
  · next hquote =>
    obtain rfl := Option.some.inj hstep
    obtain rfl := beq_iff_eq.mp hquote
    refine ⟨front ++ ('"' :: cs ++ ['"']), [], ?_, .nothing, by simp⟩
    rw [List.reverse_cons]
    exact hfront.concat (.string hpieces)
  · split at hstep
    · next hslash =>
      obtain rfl := Option.some.inj hstep
      obtain rfl := beq_iff_eq.mp hslash
      exact ⟨front, '"' :: cs ++ ['\\'], hfront, .escape hpieces, by simp⟩
    · split at hstep
      · next hplain =>
        obtain rfl := Option.some.inj hstep
        refine ⟨front, '"' :: (cs ++ [c]), hfront, .string ?_, by simp⟩
        rw [List.reverse_cons]
        exact hpieces.concat (.plain hplain)
      · cases hstep

/-- The character after a backslash keeps the scan in step with the text. -/
theorem readFrom_escape {tokens : List Token} {pieces : Literal} {front cs : List Char} {c : Char}
    {s : Scan} (hfront : Written tokens.reverse front)
    (hpieces : Literal.WrittenAs pieces.reverse cs)
    (hstep : step ⟨tokens, .escape pieces⟩ c = some s) :
    s.ReadFrom (front ++ ('"' :: cs ++ ['\\']) ++ [c]) := by
  dsimp only [step] at hstep
  split at hstep
  · next hunit =>
    obtain rfl := Option.some.inj hstep
    obtain rfl := beq_iff_eq.mp hunit
    have hcode : Pending.ReadFrom (.code pieces 4 0) ('"' :: cs ++ ['\\', 'u']) :=
      @Pending.ReadFrom.code pieces cs [] 4 hpieces (by simp) rfl (by omega)
    exact ⟨front, _, hfront, hcode, by simp⟩
  · obtain ⟨b, hb, rfl⟩ := Option.map_eq_some_iff.mp hstep
    refine ⟨front, '"' :: (cs ++ ['\\', c]), hfront, .string ?_, by simp⟩
    rw [List.reverse_cons]
    exact hpieces.concat (.escape (by rw [hb]; rfl))

/-- One character more has been read after each step. -/
theorem ReadFrom.step {s s' : Scan} {c : Char} {cs : List Char} (h : s.ReadFrom cs)
    (hstep : s.step c = some s') : s'.ReadFrom (cs ++ [c]) := by
  obtain ⟨tokens, pending⟩ := s
  have hwhole := h
  obtain ⟨front, back, hfront, hback, rfl⟩ := h
  dsimp only at hfront hback
  cases hback with
  | nothing =>
    rw [List.append_nil]
    exact readFrom_start hfront hstep
  | @word letters =>
    dsimp only [Scan.step] at hstep
    split at hstep
    · obtain rfl := Option.some.inj hstep
      exact ⟨front, (c :: letters).reverse, hfront, .word, by simp⟩
    · obtain ⟨s₁, hflush, hstart⟩ := Option.bind_eq_some_iff.mp hstep
      exact readFrom_start (hwhole.flush hflush) hstart
  | @number written =>
    dsimp only [Scan.step] at hstep
    split at hstep
    · obtain rfl := Option.some.inj hstep
      exact ⟨front, (c :: written).reverse, hfront, .number, by simp⟩
    · obtain ⟨s₁, hflush, hstart⟩ := Option.bind_eq_some_iff.mp hstep
      exact readFrom_start (hwhole.flush hflush) hstart
  | string hpieces => exact readFrom_string hfront hpieces hstep
  | escape hpieces => exact readFrom_escape hfront hpieces hstep
  | code hpieces hds hlength hmissing =>
    obtain ⟨d, hd, rfl⟩ := Option.map_eq_some_iff.mp hstep
    exact readFrom_code hfront hpieces hds hlength hmissing hd

/-- A scan keeps in step with the text as long as it goes on. -/
theorem ReadFrom.run {s s' : Scan} {cs ds : List Char} (h : s.ReadFrom cs)
    (hrun : ds.foldlM Scan.step s = some s') : s'.ReadFrom (cs ++ ds) := by
  induction ds generalizing s cs with
  | nil =>
    obtain rfl := Option.some.inj hrun
    rw [List.append_nil]
    exact h
  | cons d ds ih =>
    rw [List.foldlM_cons] at hrun
    obtain ⟨s₁, hstep, hrest⟩ := Option.bind_eq_some_iff.mp hrun
    have hread := ih (h.step hstep) hrest
    rwa [List.append_assoc] at hread

end Scan

/-- A text that is scanned consists of the tokens. -/
theorem written_of_scan? {cs : List Char} {ts : List Token} (h : scan? cs = some ts) :
    Written ts cs := by
  obtain ⟨s, hrun, hfinish⟩ := Option.bind_eq_some_iff.mp h
  obtain ⟨s', hflush, rfl⟩ := Option.map_eq_some_iff.mp hfinish
  have hstart : Scan.ReadFrom {} [] := ⟨[], [], .nil, .nothing, rfl⟩
  exact (hstart.run hrun).flush hflush

/-! ## Scanning a text of given tokens -/

/-- A word or a number ends only where something else begins. -/
def Token.isOpenEnded : Token → Bool
  | .null => true
  | .bool _ => true
  | .number _ => true
  | _ => false

/-- No two words or numbers stand next to each other. -/
def Separated (ts : List Token) : Prop :=
  ts.IsChain fun t t' => t.isOpenEnded = false ∨ t'.isOpenEnded = false

/-- The character ends a word or a number before it. -/
def Ends (c : Char) : Prop := c.isLower = false ∧ isNumberChar c = false

namespace Scan

/-- A token that can end does so where another one begins. -/
theorem step_of_flush {s : Scan} {tokens : List Token} {c : Char}
    (hs : s.flush = some ⟨tokens, .nothing⟩) (hc : s.pending = .nothing ∨ Ends c) :
    s.step c = start tokens c := by
  obtain ⟨found, pending⟩ := s
  cases pending with
  | nothing =>
    have hsame : (⟨found, .nothing⟩ : Scan) = ⟨tokens, .nothing⟩ := Option.some.inj hs
    rw [hsame]
    rfl
  | word letters =>
    obtain hc | ⟨hlower, -⟩ := hc
    · cases hc
    · have hstep : Scan.step ⟨found, .word letters⟩ c = if c.isLower then
          some ⟨found, .word (c :: letters)⟩
        else (flush ⟨found, .word letters⟩).bind fun s => start s.tokens c := rfl
      rw [hstep, hlower, hs]
      rfl
  | number written =>
    obtain hc | ⟨-, hnumber⟩ := hc
    · cases hc
    · have hstep : Scan.step ⟨found, .number written⟩ c = if isNumberChar c then
          some ⟨found, .number (c :: written)⟩
        else (flush ⟨found, .number written⟩).bind fun s => start s.tokens c := rfl
      rw [hstep, hnumber, hs]
      rfl
  | string pieces => cases hs
  | escape pieces => cases hs
  | code pieces missing value => cases hs

/-- The scan of what follows does not depend on the token that has ended before it. -/
theorem run_of_flush {s : Scan} {tokens : List Token} {c : Char} {cs : List Char}
    (hs : s.flush = some ⟨tokens, .nothing⟩) (hc : s.pending = .nothing ∨ Ends c) :
    (c :: cs).foldlM Scan.step s = (c :: cs).foldlM Scan.step ⟨tokens, .nothing⟩ := by
  rw [List.foldlM_cons, List.foldlM_cons, step_of_flush hs hc]
  rfl

/-- The digits of a unit are read as its number. -/
theorem run_digits (tokens : List Token) (pieces : Literal) {ds : List Char} {value : Nat}
    (hne : ds ≠ []) (hds : ∀ c ∈ ds, Text.isDigitOf 16 c = true) :
    ds.foldlM Scan.step ⟨tokens, .code pieces ds.length value⟩ =
      some ⟨tokens, .string (.code (Text.valueAfter 16 value ds) :: pieces)⟩ := by
  induction ds generalizing value with
  | nil => exact absurd rfl hne
  | cons c ds ih =>
    obtain ⟨d, hd⟩ := Option.isSome_iff_exists.mp (hds c List.mem_cons_self)
    rw [digitValue?_sixteen] at hd
    have hstep : Scan.step ⟨tokens, .code pieces (c :: ds).length value⟩ c =
        some (if (c :: ds).length ≤ 1 then ⟨tokens, .string (.code (value * 16 + d) :: pieces)⟩
          else ⟨tokens, .code pieces ds.length (value * 16 + d)⟩) := by
      simp [Scan.step, hd]
    have hvalue : Text.valueAfter 16 value (c :: ds) = Text.valueAfter 16 (value * 16 + d) ds := by
      simp [Text.valueAfter, digitValue?_sixteen, hd]
    rw [List.foldlM_cons, hstep, hvalue]
    cases ds with
    | nil => rfl
    | cons c' ds =>
      rw [if_neg (by simp)]
      exact ih (List.cons_ne_nil c' ds) fun b hb => hds b (List.mem_cons_of_mem c hb)

/-- A piece of a string is read, whichever way it is written. -/
theorem run_piece (tokens : List Token) (pieces : Literal) {p : Piece} {w : List Char}
    (h : p.WrittenAs w) :
    w.foldlM Scan.step ⟨tokens, .string pieces⟩ = some ⟨tokens, .string (p :: pieces)⟩ := by
  cases h with
  | @plain c hplain =>
    have hother : c ≠ '"' ∧ c ≠ '\\' := by
      simp only [isPlain, Bool.and_eq_true, bne_iff_ne] at hplain
      exact hplain.1
    simp [Scan.step, hother, hplain]
  | @escape letter hletter =>
    have hunit : letter ≠ 'u' := by
      rintro rfl
      cases hletter
    obtain ⟨c, hc⟩ := Option.isSome_iff_exists.mp hletter
    simp [Scan.step, hunit, hc]
  | @code ds hlength hds =>
    have hopen : ['\\', 'u'].foldlM Scan.step ⟨tokens, .string pieces⟩ =
        some ⟨tokens, .code pieces 4 0⟩ := rfl
    have hne : ds ≠ [] := by
      rintro rfl
      cases hlength
    have hdigits := @run_digits tokens pieces ds 0 hne hds
    rw [hlength] at hdigits
    rw [show '\\' :: 'u' :: ds = ['\\', 'u'] ++ ds from rfl, List.foldlM_append, hopen]
    exact hdigits

/-- All pieces of a string are read, whichever way they are written. -/
theorem run_literal (tokens : List Token) (pieces : Literal) {l : Literal} {w : List Char}
    (h : l.WrittenAs w) :
    w.foldlM Scan.step ⟨tokens, .string pieces⟩ =
      some ⟨tokens, .string (l.reverse ++ pieces : Literal)⟩ := by
  induction h generalizing pieces with
  | nil => rfl
  | @cons p l w cs hp _ ih =>
    rw [List.foldlM_append, run_piece tokens pieces hp]
    have hrest := ih (p :: pieces)
    simpa using hrest

/-- Digits are characters of numbers. -/
theorem isNumberChar_of_isDigits {ds : List Char} (h : Text.IsDigits ds) :
    ∀ c ∈ ds, isNumberChar c = true := by
  intro c hc
  simp [isNumberChar, h.2 c hc]

/-- All characters that a number is written with are characters of numbers. -/
theorem isNumberChar_of_mem {w : List Char} (h : Number.IsNumber w) :
    ∀ c ∈ w, isNumberChar c = true := by
  obtain ⟨sign, hsign, rest, hrest, rfl⟩ := h
  obtain ⟨whole, fraction, exponent, hwhole, hfraction, hexponent, rfl⟩ := hrest
  have hsign : ∀ c ∈ sign, isNumberChar c = true := by
    simp only [List.mem_cons, List.not_mem_nil, or_false] at hsign
    rcases hsign with rfl | rfl <;> simp [isNumberChar]
  have hfraction : ∀ c ∈ fraction, isNumberChar c = true := by
    cases hfraction with
    | none => simp
    | digits hds => exact List.forall_mem_cons.mpr ⟨by decide, isNumberChar_of_isDigits hds⟩
  have hexponent : ∀ c ∈ exponent, isNumberChar c = true := by
    cases hexponent with
    | none => simp
    | @digits mark sign ds hmark hsign hds =>
      have hmark : isNumberChar mark = true := by
        simp only [List.mem_cons, List.not_mem_nil, or_false] at hmark
        rcases hmark with rfl | rfl <;> rfl
      have hsign : ∀ c ∈ sign, isNumberChar c = true := by
        simp only [List.mem_cons, List.not_mem_nil, or_false] at hsign
        rcases hsign with rfl | rfl | rfl <;> simp [isNumberChar]
      intro c hc
      rcases List.mem_append.mp hc with hc | hc
      · rcases List.mem_cons.mp hc with rfl | hc
        · exact hmark
        · exact hsign c hc
      · exact isNumberChar_of_isDigits hds c hc
  intro c hc
  simp only [List.mem_append] at hc
  rcases hc with hc | hc | hc | hc
  · exact hsign c hc
  · exact isNumberChar_of_isDigits hwhole.1 c hc
  · exact hfraction c hc
  · exact hexponent c hc

/-- A digit begins a number. -/
theorem start_of_isDigit (tokens : List Token) {c : Char} (h : c.isDigit = true) :
    start tokens c = some ⟨tokens, .number [c]⟩ := by
  have hspace : isSpace c = false := by
    simp only [isSpace, Bool.or_eq_false_iff, beq_eq_false_iff_ne]
    refine ⟨⟨⟨?_, ?_⟩, ?_⟩, ?_⟩ <;> (rintro rfl; revert h; decide)
  have hquote : (c == '"') = false := by
    rw [beq_eq_false_iff_ne]
    rintro rfl
    revert h
    decide
  simp [start, hspace, hquote, h]

/-- All characters of a number are taken into it. -/
theorem run_numberChars (tokens : List Token) {cs written : List Char}
    (h : ∀ c ∈ cs, isNumberChar c = true) :
    cs.foldlM Scan.step ⟨tokens, .number written⟩ =
      some ⟨tokens, .number (cs.reverse ++ written)⟩ := by
  induction cs generalizing written with
  | nil => rfl
  | cons c cs ih =>
    obtain ⟨hc, hcs⟩ := List.forall_mem_cons.mp h
    have hstep : Scan.step ⟨tokens, .number written⟩ c = some ⟨tokens, .number (c :: written)⟩ := by
      simp [Scan.step, hc]
    rw [List.foldlM_cons, hstep]
    have hrest := @ih (c :: written) hcs
    simpa using hrest

/-- The first character of a number begins it. -/
theorem start_number (tokens : List Token) {w : List Char} (h : Number.IsNumber w) :
    ∃ c cs, w = c :: cs ∧ start tokens c = some ⟨tokens, .number [c]⟩ := by
  obtain ⟨sign, hsign, rest, ⟨whole, fraction, exponent, ⟨⟨hne, hdigits⟩, -⟩, -, -, rfl⟩, rfl⟩ := h
  simp only [List.mem_cons, List.not_mem_nil, or_false] at hsign
  rcases hsign with rfl | rfl
  · obtain ⟨d, ds, rfl⟩ := List.exists_cons_of_ne_nil hne
    exact ⟨d, _, rfl, start_of_isDigit tokens (hdigits d List.mem_cons_self)⟩
  · exact ⟨'-', _, rfl, rfl⟩

/-- A number is read to its end. -/
theorem run_number (tokens : List Token) {w : List Char} (h : Number.IsNumber w) :
    w.foldlM Scan.step ⟨tokens, .nothing⟩ = some ⟨tokens, .number w.reverse⟩ := by
  have hall := isNumberChar_of_mem h
  obtain ⟨c, cs, rfl, hstart⟩ := start_number tokens h
  have hstep : Scan.step ⟨tokens, .nothing⟩ c = some ⟨tokens, .number [c]⟩ := hstart
  rw [List.foldlM_cons, hstep, List.reverse_cons]
  exact run_numberChars tokens (List.forall_mem_cons.mp hall).2

/-- A mark is read at once. -/
theorem run_mark (tokens : List Token) {c : Char} {t : Token} (h : Token.ofMark? c = some t) :
    [c].foldlM Scan.step ⟨tokens, .nothing⟩ = some ⟨t :: tokens, .nothing⟩ ∧ Ends c := by
  unfold Token.ofMark? at h
  split at h
  case h_7 => cases h
  all_goals
    obtain rfl := Option.some.inj h
    exact ⟨rfl, by decide, by decide⟩

/-- A token that is written somewhere is found, or is what is under way. -/
theorem run_token (tokens : List Token) {t : Token} {w : List Char} (h : t.WrittenAs w) :
    ∃ s : Scan, w.foldlM Scan.step ⟨tokens, .nothing⟩ = some s ∧
      s.flush = some ⟨t :: tokens, .nothing⟩ ∧ (t.isOpenEnded = false → s.pending = .nothing) := by
  cases h with
  | @mark c t hmark =>
    exact ⟨⟨t :: tokens, .nothing⟩, (run_mark tokens hmark).1, rfl, fun _ => rfl⟩
  | null => exact ⟨⟨tokens, .word "null".toList.reverse⟩, rfl, rfl, fun h => by cases h⟩
  | true => exact ⟨⟨tokens, .word "true".toList.reverse⟩, rfl, rfl, fun h => by cases h⟩
  | false => exact ⟨⟨tokens, .word "false".toList.reverse⟩, rfl, rfl, fun h => by cases h⟩
  | number hnumber =>
    refine ⟨⟨tokens, .number w.reverse⟩, run_number tokens hnumber, ?_, fun h => by cases h⟩
    obtain ⟨n, hn⟩ := Option.isSome_iff_exists.mp (Number.isSome_read?_iff.mpr hnumber)
    simp [Scan.flush, Token.ofNumber?, hn]
  | @string l w hl =>
    refine ⟨⟨.string l :: tokens, .nothing⟩, ?_, rfl, fun _ => rfl⟩
    have hopen : Scan.step ⟨tokens, .nothing⟩ '"' = some ⟨tokens, .string []⟩ := rfl
    have hclose : Scan.step ⟨tokens, .string l.reverse⟩ '"' =
        some ⟨.string l :: tokens, .nothing⟩ := by simp [Scan.step]
    have hpieces := run_literal tokens [] hl
    rw [List.append_nil] at hpieces
    rw [List.cons_append, List.foldlM_cons, hopen]
    show ((w ++ ['"']).foldlM Scan.step ⟨tokens, .string []⟩) = _
    rw [List.foldlM_append, hpieces]
    show (['"'].foldlM Scan.step ⟨tokens, .string l.reverse⟩) = _
    rw [List.foldlM_cons, hclose]
    rfl

/-- A token begins with a character that ends a word or a number before it, unless the token is one
itself. -/
theorem exists_first {t : Token} {w : List Char} (h : t.WrittenAs w) :
    ∃ c cs, w = c :: cs ∧ (t.isOpenEnded = false → Ends c) := by
  cases h with
  | mark hmark => exact ⟨_, [], rfl, fun _ => (run_mark [] hmark).2⟩
  | null => exact ⟨'n', _, rfl, fun h => by cases h⟩
  | true => exact ⟨'t', _, rfl, fun h => by cases h⟩
  | false => exact ⟨'f', _, rfl, fun h => by cases h⟩
  | number hnumber =>
    obtain ⟨c, cs, hw, -⟩ := start_number [] hnumber
    exact ⟨c, cs, hw, fun h => by cases h⟩
  | string _ => exact ⟨'"', _, rfl, fun _ => ⟨by decide, by decide⟩⟩

/-- A blank ends a word or a number before it. -/
theorem ends_of_isSpace {c : Char} (h : isSpace c = true) : Ends c := by
  simp only [isSpace, Bool.or_eq_true, beq_iff_eq] at h
  rcases h with ((rfl | rfl) | rfl) | rfl <;> exact ⟨by decide, by decide⟩

/-- Where no two words or numbers stand next to each other, every text of the tokens is scanned. -/
theorem run_written {ts : List Token} {cs : List Char} (h : Written ts cs) (hts : Separated ts)
    {s : Scan} {tokens : List Token} (hs : s.flush = some ⟨tokens, .nothing⟩)
    (hfirst : s.pending = .nothing ∨ ∀ t ∈ ts.head?, t.isOpenEnded = false) :
    ∃ s' : Scan, cs.foldlM Scan.step s = some s' ∧
      s'.flush = some ⟨ts.reverse ++ tokens, .nothing⟩ := by
  induction h generalizing s tokens with
  | nil => exact ⟨s, rfl, hs⟩
  | @space c ts cs hc _ ih =>
    have hstep : s.step c = some ⟨tokens, .nothing⟩ := by
      rw [step_of_flush hs (.inr (ends_of_isSpace hc))]
      simp [start, hc]
    rw [List.foldlM_cons, hstep]
    exact ih hts rfl (.inl rfl)
  | @token t ts w cs ht _ ih =>
    obtain ⟨c, w', rfl, hends⟩ := exists_first ht
    obtain ⟨hnext, hrest⟩ := List.isChain_cons.mp hts
    obtain ⟨s₁, hrun, hflush, hclosed⟩ := run_token tokens ht
    have hc : s.pending = .nothing ∨ Ends c := hfirst.imp id fun h => hends (h t rfl)
    rw [← run_of_flush hs hc] at hrun
    rw [List.foldlM_append, hrun]
    have hfirst' : s₁.pending = .nothing ∨ ∀ t' ∈ ts.head?, t'.isOpenEnded = false := by
      cases hopen : t.isOpenEnded with
      | false => exact .inl (hclosed hopen)
      | true =>
        right
        intro t' ht'
        simpa [hopen] using hnext t' ht'
    obtain ⟨s', hrun', hflush'⟩ := ih hrest hflush hfirst'
    refine ⟨s', hrun', ?_⟩
    rw [hflush', List.reverse_cons, List.append_assoc]
    rfl

end Scan

/-- A text that consists of the tokens is scanned as them, if words and numbers are kept apart. -/
theorem scan?_of_written {ts : List Token} {cs : List Char} (h : Written ts cs)
    (hts : Separated ts) : scan? cs = some ts := by
  obtain ⟨s, hrun, hflush⟩ := @Scan.run_written ts cs h hts {} [] rfl (.inl rfl)
  unfold scan? Scan.finish
  rw [hrun]
  show (s.flush.map fun s => s.tokens.reverse) = some ts
  rw [hflush, List.append_nil]
  exact congrArg some ts.reverse_reverse

end VolumeBroker.Json
