import Mathlib.Data.List.TakeWhile
import VolumeBroker.Discovery.Target
import VolumeBroker.Proofs.LeadingRuns

/-!
# What is read from the parameters of a discovery

A port is read digit by digit, with a bound that every step checks, and the first trouble ends the
reading.  What comes out can be said of the text as a whole.  The value of a run of digits only
grows as more of them are read, so the bound is exceeded somewhere exactly if the whole run that
stands in front exceeds it, however many zeros it begins with.  `readDigits_eq` says this by
induction on the text, with the value already read kept within the bound.

The three parameters of a target matter only without the blanks around them, and are complained
about in a fixed order: `DiscoveryTarget.Complains` has a constructor for each complaint, which says
that everything before it is in order.
-/

set_option autoImplicit false

namespace VolumeBroker

namespace Text

/-! ## Numerals -/

/-- What follows an optional plus. -/
def afterPlus : List Char → List Char
  | '+' :: rest => rest
  | cs => cs

/-- The value of the digits at the front of a text, after an optional plus. -/
def leadingValue (cs : List Char) : Nat :=
  Nat.ofDigitChars 10 ((afterPlus cs).takeWhile Char.isDigit) 0

/-- The text is the number in decimal: digits, as many as one likes, with or without a plus. -/
def Spells (cs : List Char) (n : Nat) : Prop :=
  ∃ digits : List Char, (cs = digits ∨ cs = '+' :: digits) ∧ IsDigits digits ∧
    Nat.ofDigitChars 10 digits 0 = n

/-- In base ten the digits are those of the text layer. -/
theorem digitValue?_ten (c : Char) :
    digitValue? 10 c = if c.isDigit then some (c.toNat - '0'.toNat) else none := by
  unfold digitValue? hexValue?
  by_cases hdigit : c.isDigit = true
  · have hlt : c.toNat - '0'.toNat < 10 := by
      have hrange : '0'.toNat ≤ c.toNat ∧ c.toNat ≤ '9'.toNat := Char.isDigit_iff_toNat.mp hdigit
      have hzero : '0'.toNat = 48 := rfl
      have hnine : '9'.toNat = 57 := rfl
      omega
    rw [if_pos hdigit, if_pos hdigit]
    simpa using hlt
  · rw [if_neg hdigit, if_neg hdigit]
    -- What is left are the letters, and the least of them has the value ten.
    repeat' split
    all_goals simp

/-- Further digits do not make a number smaller. -/
theorem le_ofDigitChars (digits : List Char) (value : Nat) :
    value ≤ Nat.ofDigitChars 10 digits value := by
  induction digits generalizing value with
  | nil => exact Nat.le_refl value
  | cons c digits ih =>
    rw [Nat.ofDigitChars_cons]
    have hstep := ih (10 * value + (c.toNat - '0'.toNat))
    omega

/-- The loop over the digits stops at the first that makes the number too large, or at the first
that is none: which of the two comes first is told by the value of the digits at the front. -/
theorem readDigits_eq {bound value : Nat} (hvalue : value ≤ bound) (cs : List Char) :
    readDigits bound value cs =
      if bound < Nat.ofDigitChars 10 (cs.takeWhile Char.isDigit) value then .error .tooLarge
      else if cs.all Char.isDigit then .ok (Nat.ofDigitChars 10 cs value)
      else .error .invalidDigit := by
  induction cs generalizing value with
  | nil => simp [readDigits, hvalue]
  | cons c rest ih =>
    rw [readDigits, digitValue?_ten]
    by_cases hdigit : c.isDigit = true
    · rw [if_pos hdigit, List.takeWhile_cons_of_pos hdigit, Nat.ofDigitChars_cons,
        Nat.ofDigitChars_cons, Nat.mul_comm 10 value]
      dsimp only
      by_cases hover : bound < value * 10 + (c.toNat - '0'.toNat)
      · have hgrows := le_ofDigitChars (rest.takeWhile Char.isDigit)
          (value * 10 + (c.toNat - '0'.toNat))
        rw [if_pos hover, if_pos (by omega)]
      · rw [if_neg hover, ih (by omega), List.all_cons, hdigit, Bool.true_and]
    · rw [if_neg hdigit, List.takeWhile_cons_of_neg hdigit, Nat.ofDigitChars_nil,
        if_neg (by omega), List.all_cons, if_neg (by simp [hdigit])]

/-- A numeral is read as the value of its digits, unless those at the front exceed the bound or
something else is among them. -/
theorem readBounded_eq (bound : Nat) (cs : List Char) :
    readBounded bound cs =
      if bound < leadingValue cs then .error .tooLarge
      else if (afterPlus cs).isEmpty || !(afterPlus cs).all Char.isDigit then .error .invalidDigit
      else .ok (Nat.ofDigitChars 10 (afterPlus cs) 0) := by
  have hread : readBounded bound cs = if (afterPlus cs).isEmpty then .error .invalidDigit
      else readDigits bound 0 (afterPlus cs) := by
    cases cs with
    | nil => rfl
    | cons c rest =>
      by_cases hplus : c = '+'
      · subst hplus
        rfl
      · simp [readBounded, afterPlus, hplus]
  rw [hread, leadingValue]
  by_cases hempty : (afterPlus cs).isEmpty = true
  · rw [List.isEmpty_iff.mp hempty]
    simp
  · rw [if_neg hempty, readDigits_eq (Nat.zero_le bound)]
    by_cases hall : (afterPlus cs).all Char.isDigit = true
    all_goals simp [hempty, hall]

/-- A text spells a number exactly if digits follow the optional plus, and have its value. -/
theorem spells_iff {cs : List Char} {n : Nat} :
    Spells cs n ↔ IsDigits (afterPlus cs) ∧
      Nat.ofDigitChars 10 (afterPlus cs) 0 = n := by
  constructor
  · rintro ⟨digits, rfl | rfl, hdigits, hvalue⟩
    · have hplain : afterPlus cs = cs := by
        unfold afterPlus
        split
        · exact absurd (hdigits.2 '+' List.mem_cons_self) (by decide)
        · rfl
      rw [hplain]
      exact ⟨hdigits, hvalue⟩
    · exact ⟨hdigits, hvalue⟩
  · rintro ⟨hdigits, hvalue⟩
    refine ⟨afterPlus cs, ?_, hdigits, hvalue⟩
    unfold afterPlus
    split <;> simp

/-- Of a numeral the digits at the front are all of them. -/
theorem Spells.leadingValue_eq {cs : List Char} {n : Nat} (h : Spells cs n) :
    leadingValue cs = n := by
  obtain ⟨⟨-, hall⟩, hvalue⟩ := spells_iff.mp h
  rw [leadingValue, List.takeWhile_eq_self_iff.mpr hall, hvalue]

/-- What is read are the numbers up to the bound. -/
theorem readBounded_eq_ok_iff {bound n : Nat} {cs : List Char} :
    readBounded bound cs = .ok n ↔ Spells cs n ∧ n ≤ bound := by
  rw [readBounded_eq]
  constructor
  · intro h
    split at h
    · cases h
    · next hbound =>
      split at h
      · cases h
      · next hdigits =>
        obtain rfl := Except.ok.inj h
        have hspells : Spells cs (Nat.ofDigitChars 10 (afterPlus cs) 0) :=
          spells_iff.mpr ⟨isDigits_iff.mpr hdigits, rfl⟩
        rw [hspells.leadingValue_eq] at hbound
        exact ⟨hspells, by omega⟩
  · rintro ⟨hspells, hbound⟩
    obtain ⟨hdigits, hvalue⟩ := spells_iff.mp hspells
    rw [hspells.leadingValue_eq, if_neg (by omega), if_neg (isDigits_iff.mp hdigits),
      hvalue]

/-- Of what is not read, the reason is the size exactly if the digits in front exceed the bound. -/
theorem readBounded_eq_error_iff {bound : Nat} {fault : NumeralFault} {cs : List Char} :
    readBounded bound cs = .error fault ↔ (¬ ∃ n ≤ bound, Spells cs n) ∧
      fault = if bound < leadingValue cs then .tooLarge else .invalidDigit := by
  have hnone : (∃ e, readBounded bound cs = .error e) ↔ ¬ ∃ n ≤ bound, Spells cs n := by
    constructor
    · rintro ⟨e, he⟩ ⟨n, hn, hspells⟩
      rw [readBounded_eq_ok_iff.mpr ⟨hspells, hn⟩] at he
      cases he
    · intro hnone
      cases hread : readBounded bound cs with
      | error e => exact ⟨e, rfl⟩
      | ok n =>
        obtain ⟨hspells, hn⟩ := readBounded_eq_ok_iff.mp hread
        exact absurd ⟨n, hn, hspells⟩ hnone
  rw [← hnone, readBounded_eq]
  by_cases hlarge : bound < leadingValue cs
  · simp [hlarge, @eq_comm _ fault]
  · by_cases hdigits : ((afterPlus cs).isEmpty || !(afterPlus cs).all Char.isDigit) = true
    · simp only [if_neg hlarge, if_pos hdigits]
      simp [@eq_comm _ fault]
    · simp only [if_neg hlarge, if_neg hdigits]
      simp

/-- The bound is exceeded before the letter is met, but not by zeros. -/
example : readBounded 65535 "65536x".toList = .error .tooLarge ∧
    readBounded 65535 "+000065535".toList = .ok 65535 := by decide

end Text

/-! ## Transports -/

namespace Transport

/-- A transport is parsed from its name in any case of its letters, with blanks around it or
without. -/
theorem parse_eq_ok_iff {value : String} {t : Transport} :
    parse value = .ok t ↔ Text.sameUpToCase (Text.trim value) t.name = true := by
  have hname : t.name.toLower = t.name := by cases t <;> decide +kernel
  rw [Text.sameUpToCase, hname, beq_iff_eq, ← ofName?_eq_some_iff, parse]
  cases ofName? (Text.trim value).toLower <;> simp

/-- Any other text is refused, and repeated as it was given. -/
theorem parse_eq_error_iff {value : String} {e : UnknownTransport} :
    parse value = .error e ↔
      (¬ ∃ t : Transport, Text.sameUpToCase (Text.trim value) t.name = true) ∧ e = ⟨value⟩ := by
  simp only [← parse_eq_ok_iff]
  unfold parse
  cases ofName? (Text.trim value).toLower with
  | some t => simp
  | none => simp [@eq_comm _ e]

end Transport

/-! ## Targets -/

/-- The complaint without the blanks around the text that it repeats. -/
def DiscoveryError.unpadded : DiscoveryError → DiscoveryError
  | .invalidParameter name (.transport e) => .invalidParameter name (.transport ⟨Text.trim e.text⟩)
  | e => e

namespace DiscoveryTarget

/-- The value of a parameter without the blanks around it; the empty text where the parameter is
missing. -/
def trimmed (params : Parameters) (name : String) : String := Text.trim (params.getD name "")

/-- A transport that can be used: none, or the name of one in any case of its letters. -/
def IsTransport (text : String) : Prop :=
  text = "" ∨ ∃ t : Transport, Text.sameUpToCase text t.name = true

/-- A port that can be used: none, or a number that is not too large. -/
def IsPort (text : String) : Prop := text = "" ∨ ∃ n ≤ 65535, Text.Spells text.toList n

/-- The text asks for this transport: it is empty and this is the default, or it names it. -/
def AsksForTransport (text : String) (default t : Transport) : Prop :=
  text = "" ∧ t = default ∨ Text.sameUpToCase text t.name = true

/-- The text asks for this port: it is empty and this is the default, or it spells it. -/
def AsksForPort (text : String) (default port : UInt16) : Prop :=
  text = "" ∧ port = default ∨ Text.Spells text.toList port.toNat

/-- What is complained about, in this order. -/
inductive Complains (params : Parameters) : DiscoveryError → Prop
  | address : trimmed params addressParameter = "" →
      Complains params (.missingParameter addressParameter)
  | transport : trimmed params addressParameter ≠ "" →
      ¬ IsTransport (trimmed params transportParameter) →
      Complains params (.invalidParameter transportParameter
        (.transport ⟨params.getD transportParameter ""⟩))
  /-- The reason is the size exactly if the digits at the front exceed it. -/
  | port {fault : Text.NumeralFault} : trimmed params addressParameter ≠ "" →
      IsTransport (trimmed params transportParameter) →
      ¬ IsPort (trimmed params portParameter) →
      fault.message = (if 65535 < Text.leadingValue (trimmed params portParameter).toList then
        "number too large to fit in target type" else "invalid digit found in string") →
      Complains params (.invalidParameter portParameter (.port fault))

variable {params : Parameters}

/-- A parameter is given exactly if there is something in it besides blanks. -/
theorem given?_eq (params : Parameters) (name : String) :
    given? params name = if trimmed params name = "" then none else some (trimmed params name) := by
  unfold given? trimmed
  rw [Std.ExtTreeMap.getD_eq_getD_getElem?]
  cases params[name]? with
  | none => rfl
  | some value =>
    by_cases hblank : Text.trim value = "" <;> simp [hblank]

/-- The transport is the default where none is given. -/
theorem readTransport_eq (params : Parameters) (default : Transport) :
    readTransport params default =
      if trimmed params transportParameter = "" then .ok default
      else (Transport.parse (params.getD transportParameter "")).mapError
        fun e => .invalidParameter transportParameter (.transport e) := by
  unfold readTransport
  rw [given?_eq]
  by_cases hblank : trimmed params transportParameter = "" <;> simp [hblank]

/-- The transport that is read is the one asked for. -/
theorem readTransport_eq_ok_iff {default t : Transport} :
    readTransport params default = .ok t ↔
      AsksForTransport (trimmed params transportParameter) default t := by
  rw [readTransport_eq, AsksForTransport]
  by_cases hblank : trimmed params transportParameter = ""
  · have hunnamed : Text.sameUpToCase "" t.name = false := by cases t <;> decide +kernel
    simp [hblank, hunnamed, @eq_comm _ t]
  · have hparse := @Transport.parse_eq_ok_iff (params.getD transportParameter "") t
    rw [← trimmed] at hparse
    rw [if_neg hblank, ← hparse]
    cases Transport.parse (params.getD transportParameter "") <;> simp [Except.mapError, hblank]

/-- Reading the transport fails exactly if no transport is asked for. -/
theorem readTransport_eq_error_iff {default : Transport} {e : DiscoveryError} :
    readTransport params default = .error e ↔
      ¬ IsTransport (trimmed params transportParameter) ∧
        e = .invalidParameter transportParameter
          (.transport ⟨params.getD transportParameter ""⟩) := by
  rw [readTransport_eq, IsTransport]
  by_cases hblank : trimmed params transportParameter = ""
  · simp [hblank]
  · rw [if_neg hblank]
    cases hread : Transport.parse (params.getD transportParameter "") with
    | ok t =>
      have hnamed := Transport.parse_eq_ok_iff.mp hread
      rw [← trimmed] at hnamed
      have husable : ∃ t : Transport,
          Text.sameUpToCase (trimmed params transportParameter) t.name = true := ⟨t, hnamed⟩
      simp only [Except.mapError, reduceCtorEq, hblank, husable, or_true, not_true, false_and]
    | error u =>
      obtain ⟨hunnamed, rfl⟩ := Transport.parse_eq_error_iff.mp hread
      rw [← trimmed] at hunnamed
      simp [Except.mapError, hblank, hunnamed, @eq_comm _ e]

/-- The port is the default where none is given. -/
theorem readPort_eq (params : Parameters) (default : UInt16) :
    readPort params default =
      if trimmed params portParameter = "" then .ok default
      else match Text.readBounded Text.maxPort (trimmed params portParameter).toList with
        | .ok n => .ok (.ofNat n)
        | .error fault => .error (.invalidParameter portParameter (.port fault)) := by
  unfold readPort
  rw [given?_eq]
  by_cases hblank : trimmed params portParameter = ""
  · rw [if_pos hblank, if_pos hblank]
  · cases hread : Text.readBounded Text.maxPort (trimmed params portParameter).toList <;>
      simp [hblank, hread]

/-- The port that is read is the one asked for. -/
theorem readPort_eq_ok_iff {default port : UInt16} :
    readPort params default = .ok port ↔
      AsksForPort (trimmed params portParameter) default port := by
  rw [readPort_eq, AsksForPort]
  by_cases hblank : trimmed params portParameter = ""
  · have hnone : ¬ Text.Spells [] port.toNat := by
      rintro ⟨digits, hdigits | hdigits, ⟨hne, -⟩, -⟩
      · exact hne hdigits.symm
      · cases hdigits
    simp [hblank, hnone, @eq_comm _ port]
  · rw [if_neg hblank, or_iff_right fun h => hblank h.1]
    constructor
    · intro h
      split at h
      · next n hread =>
        obtain ⟨hspells, hn⟩ := Text.readBounded_eq_ok_iff.mp hread
        obtain rfl := Except.ok.inj h
        rwa [UInt16.toNat_ofNat_of_lt' (Nat.lt_succ_of_le hn)]
      · cases h
    · intro hspells
      have hle : port.toNat ≤ Text.maxPort := Nat.le_of_lt_succ port.toNat_lt
      rw [Text.readBounded_eq_ok_iff.mpr ⟨hspells, hle⟩]
      exact congrArg Except.ok UInt16.ofNat_toNat

/-- Reading the port fails exactly if no port is asked for; it is too large if the digits at the
front exceed the ports. -/
theorem readPort_eq_error_iff {default : UInt16} {e : DiscoveryError} :
    readPort params default = .error e ↔
      ¬ IsPort (trimmed params portParameter) ∧
        ∃ fault, e = .invalidParameter portParameter (.port fault) ∧
          fault = if 65535 < Text.leadingValue (trimmed params portParameter).toList then .tooLarge
            else .invalidDigit := by
  rw [readPort_eq, IsPort]
  by_cases hblank : trimmed params portParameter = ""
  · simp [hblank]
  · rw [if_neg hblank, or_iff_right hblank]
    constructor
    · intro h
      split at h
      · cases h
      · next fault hread =>
        obtain ⟨hnone, hfault⟩ := Text.readBounded_eq_error_iff.mp hread
        exact ⟨hnone, fault, (Except.error.inj h).symm, hfault⟩
    · rintro ⟨hnone, fault, rfl, hfault⟩
      have hread : Text.readBounded Text.maxPort (trimmed params portParameter).toList =
          .error fault := Text.readBounded_eq_error_iff.mpr ⟨hnone, hfault⟩
      rw [hread]

/-- The address is looked at first, then the transport, then the port. -/
theorem ofParameters_eq (params : Parameters) (settings : DiscoverySettings) :
    ofParameters params settings =
      if trimmed params addressParameter = "" then .error (.missingParameter addressParameter)
      else (readTransport params settings.defaultTransport).bind fun transport =>
        (readPort params settings.defaultPort).map fun port =>
          ⟨transport, trimmed params addressParameter, port⟩ := by
  unfold ofParameters
  rw [given?_eq]
  by_cases hblank : trimmed params addressParameter = ""
  · rw [if_pos hblank, if_pos hblank]
    rfl
  · rw [if_neg hblank, if_neg hblank]
    rfl

/-- The target is the address, with the transport and the port that are asked for. -/
theorem ofParameters_eq_ok_iff {settings : DiscoverySettings} {target : DiscoveryTarget} :
    ofParameters params settings = .ok target ↔
      (trimmed params addressParameter ≠ "" ∧ target.address = trimmed params addressParameter) ∧
      AsksForTransport (trimmed params transportParameter) settings.defaultTransport
        target.transport ∧
      AsksForPort (trimmed params portParameter) settings.defaultPort target.port := by
  rw [ofParameters_eq, ← readTransport_eq_ok_iff, ← readPort_eq_ok_iff]
  by_cases hblank : trimmed params addressParameter = ""
  · simp [hblank]
  · obtain ⟨transport, address, port⟩ := target
    rw [if_neg hblank]
    cases readTransport params settings.defaultTransport with
    | error e => simp [Except.bind]
    | ok t =>
      cases readPort params settings.defaultPort with
      | error e => simp [Except.bind, Except.map]
      | ok p => simp [Except.bind, Except.map, hblank, @eq_comm _ address, and_left_comm]

/-- A transport can be used exactly if it asks for one. -/
theorem isTransport_iff {text : String} (default : Transport) :
    IsTransport text ↔ ∃ t : Transport, AsksForTransport text default t := by
  constructor
  · rintro (hblank | ⟨t, ht⟩)
    · exact ⟨default, .inl ⟨hblank, rfl⟩⟩
    · exact ⟨t, .inr ht⟩
  · rintro ⟨t, ⟨hblank, -⟩ | ht⟩
    · exact .inl hblank
    · exact .inr ⟨t, ht⟩

/-- A port can be used exactly if it asks for one. -/
theorem isPort_iff {text : String} (default : UInt16) :
    IsPort text ↔ ∃ port : UInt16, AsksForPort text default port := by
  constructor
  · rintro (hblank | ⟨n, hn, hspells⟩)
    · exact ⟨default, .inl ⟨hblank, rfl⟩⟩
    · refine ⟨.ofNat n, .inr ?_⟩
      rwa [UInt16.toNat_ofNat_of_lt' (Nat.lt_succ_of_le hn)]
  · rintro ⟨port, ⟨hblank, -⟩ | hspells⟩
    · exact .inl hblank
    · exact .inr ⟨port.toNat, Nat.le_of_lt_succ port.toNat_lt, hspells⟩

/-- The two faults of a numeral are told apart by their words. -/
theorem message_eq_iff {fault : Text.NumeralFault} {large : Prop} [Decidable large] :
    fault.message = (if large then "number too large to fit in target type"
        else "invalid digit found in string") ↔
      fault = if large then .tooLarge else .invalidDigit := by
  by_cases h : large
  · rw [if_pos h, if_pos h]
    cases fault <;> simp [Text.NumeralFault.message]
  · rw [if_neg h, if_neg h]
    cases fault <;> simp [Text.NumeralFault.message]

/-- The first of the three that cannot be read is complained about. -/
theorem ofParameters_eq_error_cases {settings : DiscoverySettings} {e : DiscoveryError} :
    ofParameters params settings = .error e ↔
      (trimmed params addressParameter = "" ∧ e = .missingParameter addressParameter) ∨
      trimmed params addressParameter ≠ "" ∧
        (readTransport params settings.defaultTransport = .error e ∨
          (∃ t, readTransport params settings.defaultTransport = .ok t) ∧
            readPort params settings.defaultPort = .error e) := by
  rw [ofParameters_eq]
  by_cases hblank : trimmed params addressParameter = ""
  · simp [hblank, @eq_comm _ e]
  · rw [if_neg hblank]
    cases readTransport params settings.defaultTransport with
    | error e' => simp [Except.bind, hblank]
    | ok t =>
      cases readPort params settings.defaultPort <;> simp [Except.bind, Except.map, hblank]

/-- The error is the first complaint. -/
theorem ofParameters_eq_error_iff {settings : DiscoverySettings} {e : DiscoveryError} :
    ofParameters params settings = .error e ↔ Complains params e := by
  have husable : IsTransport (trimmed params transportParameter) ↔
      ∃ t, readTransport params settings.defaultTransport = .ok t := by
    simp only [isTransport_iff settings.defaultTransport, readTransport_eq_ok_iff]
  rw [ofParameters_eq_error_cases, ← husable, readTransport_eq_error_iff, readPort_eq_error_iff]
  constructor
  · rintro (⟨hblank, rfl⟩ | ⟨hgiven, ⟨hunusable, rfl⟩ | ⟨hknown, hunusable, fault, rfl, hfault⟩⟩)
    · exact .address hblank
    · exact .transport hgiven hunusable
    · exact .port hgiven hknown hunusable (message_eq_iff.mpr hfault)
  · intro h
    cases h with
    | address hblank => exact .inl ⟨hblank, rfl⟩
    | transport hgiven hunusable => exact .inr ⟨hgiven, .inl ⟨hunusable, rfl⟩⟩
    | port hgiven hknown hunusable hfault =>
      exact .inr ⟨hgiven, .inr ⟨hknown, hunusable, _, rfl, message_eq_iff.mp hfault⟩⟩

/-- Parameters that agree but for blanks meet the same complaint, again but for blanks. -/
theorem Complains.unpadded {others : Parameters} {e : DiscoveryError} (h : Complains params e)
    (hsame : ∀ name ∈ [addressParameter, transportParameter, portParameter],
      trimmed others name = trimmed params name) :
    ∃ e', Complains others e' ∧ e'.unpadded = e.unpadded := by
  have haddress := hsame addressParameter (by simp)
  have htransport := hsame transportParameter (by simp)
  have hport := hsame portParameter (by simp)
  cases h with
  | address hblank => exact ⟨_, .address (haddress.trans hblank), rfl⟩
  | transport hgiven hunusable =>
    rw [← haddress] at hgiven
    rw [← htransport] at hunusable
    refine ⟨_, .transport hgiven hunusable, ?_⟩
    rw [trimmed, trimmed] at htransport
    simp only [DiscoveryError.unpadded, htransport]
  | port hgiven husable hunusable hfault =>
    rw [← haddress] at hgiven
    rw [← htransport] at husable
    rw [← hport] at hunusable hfault
    exact ⟨_, .port hgiven husable hunusable hfault, rfl⟩

/-- A target can be read from the parameters of a request exactly if an address is given, the
transport is one of those there are, and the port is a number that is not too large; the latter two
may be missing.  It then has what is asked for, without blanks, and otherwise the defaults.  What is
in the way is complained about in the order of address, transport and port, and of a port the
reason is its size exactly if the digits at its front exceed it.  Blanks around the three parameters
do not matter, but for the repetition of a transport that is not known. -/
theorem parameters_read_in_order (params : Parameters) (settings : DiscoverySettings) :
    ((∃ target, ofParameters params settings = .ok target) ↔
      trimmed params addressParameter ≠ "" ∧ IsTransport (trimmed params transportParameter) ∧
        IsPort (trimmed params portParameter)) ∧
    (∀ target, ofParameters params settings = .ok target ↔
      (trimmed params addressParameter ≠ "" ∧
        target.address = trimmed params addressParameter) ∧
      AsksForTransport (trimmed params transportParameter) settings.defaultTransport
        target.transport ∧
      AsksForPort (trimmed params portParameter) settings.defaultPort target.port) ∧
    (∀ e, ofParameters params settings = .error e ↔ Complains params e) ∧
    ∀ others : Parameters,
      (∀ name ∈ [addressParameter, transportParameter, portParameter],
        trimmed others name = trimmed params name) →
      (ofParameters others settings).mapError DiscoveryError.unpadded =
        (ofParameters params settings).mapError DiscoveryError.unpadded := by
  refine ⟨?_, fun _ => ofParameters_eq_ok_iff, fun _ => ofParameters_eq_error_iff,
    fun others hsame => ?_⟩
  · rw [isTransport_iff settings.defaultTransport, isPort_iff settings.defaultPort]
    simp only [ofParameters_eq_ok_iff]
    constructor
    · rintro ⟨target, ⟨haddress, -⟩, htransport, hport⟩
      exact ⟨haddress, ⟨_, htransport⟩, _, hport⟩
    · rintro ⟨haddress, ⟨t, htransport⟩, port, hport⟩
      exact ⟨⟨t, _, port⟩, ⟨haddress, rfl⟩, htransport, hport⟩
  · cases hread : ofParameters params settings with
    | ok target =>
      have hother : ofParameters others settings = .ok target := by
        rw [ofParameters_eq_ok_iff] at hread ⊢
        rwa [hsame addressParameter (by simp), hsame transportParameter (by simp),
          hsame portParameter (by simp)]
      rw [hother]
    | error e =>
      obtain ⟨e', hcomplains, hunpadded⟩ := (ofParameters_eq_error_iff.mp hread).unpadded hsame
      rw [ofParameters_eq_error_iff.mpr hcomplains]
      exact congrArg Except.error hunpadded

end DiscoveryTarget

end VolumeBroker
