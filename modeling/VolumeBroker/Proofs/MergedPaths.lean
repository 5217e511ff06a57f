import Mathlib.Data.List.TakeWhile
import Mathlib.Data.Set.Function
import VolumeBroker.Proofs.LeadingRuns
import VolumeBroker.Proofs.PathTransports

/-!
# Paths that a merge keeps apart

An endpoint is the host of a path, a colon and the service.  A host may have colons and brackets of
its own, so the text says where the host ends only if the service has no colon: the last colon is
then the one between the two.  Such a path is read off its endpoint, two of them are never written
alike, and a merge that compares endpoints passes over no path but one that it has already.

Whatever the services are, two different paths are written alike only if the service of one begins
with what ends the host of the other (`FabricPath.text_eq_iff`).  That no service has a colon is all
that it takes to rule this out.
-/

set_option autoImplicit false

namespace VolumeBroker

/-- A way to a subsystem: a host and a service there. -/
structure FabricPath where
  host : String
  service : String
  deriving DecidableEq

namespace FabricPath

/-- The path as an endpoint. -/
def text (p : FabricPath) : String := p.host ++ ":" ++ p.service

/-- The service has no colon. -/
def IsPlain (p : FabricPath) : Prop := ':' ∉ p.service.toList

/-- Whether a path is plain can be seen from its service. -/
instance (p : FabricPath) : Decidable p.IsPlain :=
  inferInstanceAs (Decidable (':' ∉ p.service.toList))

/-- Splits a text at its last colon; `none` where it has no colon. -/
def ofText? (text : String) : Option FabricPath :=
  let reversed := text.toList.reverse
  match reversed.dropWhile (· != ':') with
  | [] => none
  | _ :: host => some ⟨.ofList host.reverse, .ofList (reversed.takeWhile (· != ':')).reverse⟩

/-- The service of the first path begins with what ends the host of the second. -/
def Overlaps (p q : FabricPath) : Prop :=
  ∃ part : String, q.host = p.host ++ ":" ++ part ∧ p.service = part ++ ":" ++ q.service

variable {p q : FabricPath}

/-- The characters of a path: its host, a colon, its service. -/
theorem toList_text (p : FabricPath) :
    p.text.toList = p.host.toList ++ ':' :: p.service.toList := by
  simp [text]

/-! ## The last colon -/

/-- A plain path is got back from its text. -/
theorem ofText?_text (hp : p.IsPlain) : ofText? p.text = some p := by
  have hrun : ∀ c ∈ p.service.toList.reverse, (c != ':') = true := by
    intro c hc
    rw [bne_iff_ne]
    rintro rfl
    exact hp (List.mem_reverse.mp hc)
  have hstops : Text.Stops (· != ':') (':' :: p.host.toList.reverse) := Text.stops_cons.mpr rfl
  have hreversed :
      p.text.toList.reverse = p.service.toList.reverse ++ ':' :: p.host.toList.reverse := by
    rw [toList_text]
    simp
  unfold ofText?
  simp only [hreversed, Text.dropWhile_append hrun hstops, Text.takeWhile_append hrun hstops,
    List.reverse_reverse, String.ofList_toList]

/-- What a text is split into is plain, and has this text. -/
theorem eq_text_of_ofText? {s : String} (h : ofText? s = some p) : s = p.text ∧ p.IsPlain := by
  simp only [ofText?] at h
  split at h
  · cases h
  · next c host hrest =>
    obtain rfl := Option.some.inj h
    obtain rfl : c = ':' := by
      have hfirst := List.head?_dropWhile_not (· != ':') s.toList.reverse
      rw [hrest] at hfirst
      simpa using hfirst
    have hreversed : s.toList.reverse.takeWhile (· != ':') ++ ':' :: host = s.toList.reverse := by
      rw [← hrest, List.takeWhile_append_dropWhile]
    constructor
    · apply String.toList_injective
      calc s.toList
          = (s.toList.reverse.takeWhile (· != ':') ++ ':' :: host).reverse := by
            rw [hreversed, List.reverse_reverse]
        _ = _ := by
            rw [toList_text]
            simp
    · intro hcolon
      rw [String.toList_ofList, List.mem_reverse] at hcolon
      simpa using List.mem_takeWhile_imp hcolon

/-- A text is split into the path whose endpoint it is and whose service has no colon. -/
theorem ofText?_eq_some_iff {s : String} : ofText? s = some p ↔ s = p.text ∧ p.IsPlain := by
  constructor
  · exact eq_text_of_ofText?
  · rintro ⟨rfl, hp⟩
    exact ofText?_text hp

/-! ## Paths that are written alike -/

/-- Paths that overlap have one text. -/
theorem text_eq_of_overlaps (h : p.Overlaps q) : p.text = q.text := by
  obtain ⟨part, hhost, hservice⟩ := h
  simp only [text, hhost, hservice, String.append_assoc]

/-- A path that overlaps another is not plain. -/
theorem not_isPlain_of_overlaps (h : p.Overlaps q) : ¬ p.IsPlain := by
  obtain ⟨part, -, hservice⟩ := h
  intro hp
  apply hp
  simp [hservice]

/-- The colon behind the host stands at one place in both endpoints, or later in the second. -/
theorem eq_or_overlaps {part : List Char} (hhost : q.host.toList = p.host.toList ++ part)
    (hservice : ':' :: p.service.toList = part ++ ':' :: q.service.toList) :
    p = q ∨ p.Overlaps q := by
  cases part with
  | nil =>
    left
    have hhosts : p.host = q.host := by
      apply String.toList_injective
      rw [hhost, List.append_nil]
    have hservices : p.service = q.service := by
      apply String.toList_injective
      exact (List.cons.inj hservice).2
    exact congrArg₂ FabricPath.mk hhosts hservices
  | cons c part =>
    right
    obtain ⟨rfl, hrest⟩ := List.cons.inj hservice
    refine ⟨String.ofList part, ?_, ?_⟩
    · apply String.toList_injective
      simp [hhost]
    · apply String.toList_injective
      simp [hrest]

/-- Two paths have one endpoint exactly if they are the same, or the service of one begins with what
ends the host of the other. -/
theorem text_eq_iff (p q : FabricPath) :
    p.text = q.text ↔ p = q ∨ p.Overlaps q ∨ q.Overlaps p := by
  constructor
  · intro h
    have hchars := congrArg String.toList h
    rw [toList_text, toList_text, List.append_eq_append_iff] at hchars
    rcases hchars with ⟨part, hhost, hservice⟩ | ⟨part, hhost, hservice⟩
    · exact (eq_or_overlaps hhost hservice).imp_right .inl
    · exact (eq_or_overlaps hhost hservice).imp Eq.symm .inr
  · rintro (rfl | h | h)
    · rfl
    · exact text_eq_of_overlaps h
    · exact (text_eq_of_overlaps h).symm

example : (⟨"a", "b:1"⟩ : FabricPath).text = (⟨"a:b", "1"⟩ : FabricPath).text := by decide

/-- Plain paths with one text are one path. -/
theorem text_inj (hp : p.IsPlain) (hq : q.IsPlain) : p.text = q.text ↔ p = q := by
  rw [text_eq_iff]
  constructor
  · rintro (h | h | h)
    · exact h
    · exact absurd hp (not_isPlain_of_overlaps h)
    · exact absurd hq (not_isPlain_of_overlaps h)
  · exact .inl

end FabricPath

/-! ## The case of a letter -/

namespace Text

/-- The small letter of a capital is 32 further on. -/
theorem toNat_toLower (c : Char) :
    c.toLower.toNat = if 65 ≤ c.toNat ∧ c.toNat ≤ 90 then c.toNat + 32 else c.toNat := by
  by_cases h : 65 ≤ c.toNat ∧ c.toNat ≤ 90
  · have hcapital : c.val ≥ 'A'.val ∧ c.val ≤ 'Z'.val := h
    have hlower : c.toLower = ⟨c.val + 32, _⟩ := dif_pos hcapital
    have hvalue : c.toLower.toNat = (c.toNat + 32) % 2 ^ 32 := congrArg Char.toNat hlower
    rw [if_pos h, hvalue]
    omega
  · have hcapital : ¬ (c.val ≥ 'A'.val ∧ c.val ≤ 'Z'.val) := h
    have hlower : c.toLower = c := dif_neg hcapital
    rw [if_neg h, hlower]

/-- Texts that differ in case only have the same small letters. -/
theorem sameUpToCase_iff {s t : String} :
    sameUpToCase s t = true ↔ s.toList.map Char.toLower = t.toList.map Char.toLower := by
  rw [sameUpToCase, beq_iff_eq, ← String.toList_map, ← String.toList_map, String.toList_inj]
  exact Iff.rfl

/-- A small letter comes from itself and from its capital. -/
theorem toLower_eq_letter_iff {c small capital : Char}
    (hcapital : 65 ≤ capital.toNat ∧ capital.toNat ≤ 90)
    (hsmall : small.toNat = capital.toNat + 32) :
    c.toLower = small ↔ c = small ∨ c = capital := by
  simp only [← Char.toNat_inj, toNat_toLower]
  split <;> omega

/-- A digit comes from itself only. -/
theorem toLower_eq_digit_iff {c digit : Char} (hdigit : digit.toNat < 65) :
    c.toLower = digit ↔ c = digit := by
  simp only [← Char.toNat_inj, toNat_toLower]
  split <;> omega

end Text

/-! ## The path of a record -/

namespace LogRecord

/-- The name of the family of IPv6 addresses, with each letter in either case. -/
def ipv6Spellings : List String :=
  ["ipv6", "ipV6", "iPv6", "iPV6", "Ipv6", "IpV6", "IPv6", "IPV6"]

/-- The list has all spellings of the name. -/
theorem mem_ipv6Spellings_iff {family : String} :
    family ∈ ipv6Spellings ↔ Text.sameUpToCase family "ipv6" = true := by
  have hname : "ipv6".toList.map Char.toLower = ['i', 'p', 'v', '6'] := by decide
  rw [Text.sameUpToCase_iff, hname]
  constructor
  · have hall : ∀ s ∈ ipv6Spellings, s.toList.map Char.toLower = ['i', 'p', 'v', '6'] := by
      decide
    exact hall family
  · intro h
    have hi (c : Char) : c.toLower = 'i' ↔ c = 'i' ∨ c = 'I' :=
      Text.toLower_eq_letter_iff (by decide) (by decide)
    have hp (c : Char) : c.toLower = 'p' ↔ c = 'p' ∨ c = 'P' :=
      Text.toLower_eq_letter_iff (by decide) (by decide)
    have hv (c : Char) : c.toLower = 'v' ↔ c = 'v' ∨ c = 'V' :=
      Text.toLower_eq_letter_iff (by decide) (by decide)
    have hsix (c : Char) : c.toLower = '6' ↔ c = '6' := Text.toLower_eq_digit_iff (by decide)
    simp only [List.map_eq_cons_iff, List.map_eq_nil_iff, hi, hp, hv, hsix] at h
    obtain ⟨i, _, hchars, hi, p, _, rfl, hp, v, _, rfl, hv, six, _, rfl, rfl, rfl⟩ := h
    obtain rfl : family = String.ofList [i, p, v, '6'] := by
      rw [← hchars, String.ofList_toList]
    rcases hi with rfl | rfl <;> rcases hp with rfl | rfl <;> rcases hv with rfl | rfl <;> decide

/-- A host is put into brackets if its family is that of IPv6 and it does not begin with one
already. -/
theorem host_eq (r : LogRecord) : r.host =
    if r.adrfam ∈ ipv6Spellings ∧ ¬ ['['] <+: (Text.trim r.traddr).toList then
      "[" ++ Text.trim r.traddr ++ "]"
    else Text.trim r.traddr := by
  have hbracket : ['['] <+: (Text.trim r.traddr).toList ↔
      (Text.trim r.traddr).toList.head? = some '[' := by
    cases (Text.trim r.traddr).toList <;> simp [List.cons_prefix_cons, eq_comm]
  simp only [host, mem_ipv6Spellings_iff, hbracket, Bool.and_eq_true, bne_iff_ne, ne_eq]

/-- What the record says of the way to its subsystem. -/
def path (r : LogRecord) : FabricPath := ⟨r.host, r.service⟩

/-- The text of the path is the endpoint. -/
theorem text_path (r : LogRecord) : r.path.text = r.endpoint := rfl

/-- Records with plain paths have one endpoint exactly if they have one host and one service. -/
theorem endpoint_eq_iff_of_isPlain {r q : LogRecord} (hr : r.path.IsPlain) (hq : q.path.IsPlain) :
    r.endpoint = q.endpoint ↔ r.service = q.service ∧ r.host = q.host := by
  rw [← text_path, ← text_path, FabricPath.text_inj hr hq, path, path, FabricPath.mk.injEq,
    and_comm]

end LogRecord

namespace Descriptor

/-! ## What a merge passes over -/

variable {found : List Descriptor} {r : LogRecord} {transport : Transport}

/-- An endpoint adds nothing exactly if it is there already. -/
theorem addEndpoint_eq_self_iff {d : Descriptor} {endpoint : String} :
    d.addEndpoint endpoint = d ↔ endpoint ∈ d.endpoints := by
  constructor
  · intro h
    have hendpoints := congrArg Descriptor.endpoints h
    rw [endpoints_addEndpoint] at hendpoints
    by_contra hnew
    rw [if_neg hnew] at hendpoints
    simp at hendpoints
  · intro h
    exact if_pos h

/-- A path adds nothing exactly if its endpoint is there already, under its name. -/
theorem addPath_eq_self_iff (hnames : (found.map (·.nqn)).Nodup) :
    addPath found r transport = found ↔
      ∃ d ∈ found, d.nqn = r.subnqn ∧ r.endpoint ∈ d.endpoints := by
  induction found with
  | nil => simp [addPath]
  | cons d rest ih =>
    rw [List.map_cons, List.nodup_cons] at hnames
    simp only [addPath, List.mem_cons, exists_eq_or_imp]
    by_cases hd : d.nqn = r.subnqn
    · -- No descriptor behind this one has its name.
      have hrest : ¬ ∃ e ∈ rest, e.nqn = r.subnqn ∧ r.endpoint ∈ e.endpoints := by
        rintro ⟨e, he, hname, -⟩
        apply hnames.1
        rw [hd, ← hname]
        exact List.mem_map_of_mem he
      simp only [hd, ↓reduceIte, List.cons.injEq, and_true, addEndpoint_eq_self_iff, true_and,
        hrest, or_false]
    · simp only [hd, ↓reduceIte, List.cons.injEq, true_and, false_and, false_or, ih hnames.2]

/-- A record that counts is passed over exactly if one before it has its name and its endpoint. -/
theorem ofLog_concat_eq_self_iff {before : List LogRecord} (hr : r.isAccepted = true) :
    ofLog (before ++ [r]) = ofLog before ↔
      ∃ q ∈ before, q.isAccepted = true ∧ q.subnqn = r.subnqn ∧ q.endpoint = r.endpoint := by
  obtain ⟨transport, haccepted⟩ := LogRecord.isAccepted_iff.mp hr
  have hlast : ofLog (before ++ [r]) = addPath (ofLog before) r transport := by
    simp only [ofLog_concat, addRecord, haccepted]
  have hgroups := groups_ofLog before
  rw [hlast, addPath_eq_self_iff hgroups.nodup]
  constructor
  · rintro ⟨d, hd, hname, hendpoint⟩
    obtain ⟨q, hq, t, hcounts, hqname, hqendpoint⟩ := (mem_endpoints_iff hd).mp hendpoint
    exact ⟨q, hq, LogRecord.isAccepted_iff.mpr ⟨t, hcounts⟩, hqname.trans hname, hqendpoint⟩
  · rintro ⟨q, hq, hcounts, hqname, hqendpoint⟩
    obtain ⟨t, ht⟩ := LogRecord.isAccepted_iff.mp hcounts
    have hknown : r.subnqn ∈ (ofLog before).map (·.nqn) :=
      hgroups.mem_names_iff.mpr ⟨q, List.mem_filter.mpr ⟨hq, hcounts⟩, hqname⟩
    obtain ⟨d, hd, hname⟩ := List.mem_map.mp hknown
    have hreports : q.Reports d.nqn t r.endpoint := ⟨ht, hqname.trans hname.symm, hqendpoint⟩
    exact ⟨d, hd, hname, (mem_endpoints_iff hd).mpr ⟨q, hq, t, hreports⟩⟩

/-! ## All paths of a subsystem -/

/-- A function that tells the items apart can be applied before or after duplicates are removed. -/
theorem eraseDups_map {α β : Type} [DecidableEq α] [DecidableEq β] {f : α → β} {l : List α}
    (hf : Set.InjOn f {a | a ∈ l}) : (l.map f).eraseDups = l.eraseDups.map f := by
  induction l using List.reverseRecOn with
  | nil => rfl
  | append_singleton l a ih =>
    have hinit : {b | b ∈ l} ⊆ {b | b ∈ l ++ [a]} := fun b hb => List.mem_append_left _ hb
    have hlast : a ∈ {b | b ∈ l ++ [a]} := List.mem_append_right _ (List.mem_singleton_self a)
    have hmem : f a ∈ l.map f ↔ a ∈ l := by
      rw [List.mem_map]
      constructor
      · rintro ⟨b, hb, heq⟩
        exact hf (hinit hb) hlast heq ▸ hb
      · intro ha
        exact ⟨a, ha, rfl⟩
    rw [List.map_append, List.map_singleton, eraseDups_concat, eraseDups_concat,
      ih (hf.mono hinit)]
    by_cases h : a ∈ l
    · rw [if_pos h, if_pos (hmem.mpr h)]
    · rw [if_neg h, if_neg (mt hmem.mp h), List.map_append, List.map_singleton]

/-- The services under which a log reports the subsystem have no colons. -/
def ReportsPlainly (records : List LogRecord) (nqn : String) : Prop :=
  ∀ r ∈ records, r.isAccepted = true → r.subnqn = nqn → ':' ∉ r.service.toList

/-- Where all services are plain, the endpoints of a descriptor are the paths of its records, each
once. -/
theorem map_ofText?_endpoints {records : List LogRecord} {d : Descriptor} (hd : d ∈ ofLog records)
    (hplain : ReportsPlainly records d.nqn) :
    d.endpoints.map FabricPath.ofText? =
      (((records.filter (·.isAccepted)).filter (·.subnqn == d.nqn)).map
        (·.path)).eraseDups.map some := by
  set paths := ((records.filter (·.isAccepted)).filter (·.subnqn == d.nqn)).map (·.path) with hpaths
  have hall : ∀ p ∈ paths, p.IsPlain := by
    intro p hp
    obtain ⟨r, hr, rfl⟩ := List.mem_map.mp hp
    obtain ⟨hr, hname⟩ := List.mem_filter.mp hr
    obtain ⟨hr, hcounts⟩ := List.mem_filter.mp hr
    exact hplain r hr hcounts (beq_iff_eq.mp hname)
  have hinj : Set.InjOn FabricPath.text {p | p ∈ paths} := by
    intro p hp q hq h
    exact (FabricPath.text_inj (hall p hp) (hall q hq)).mp h
  have hendpoints : d.endpoints = (paths.map FabricPath.text).eraseDups := by
    rw [(groups_ofLog records).endpoints d hd, hpaths, List.map_map]
    rfl
  rw [hendpoints, eraseDups_map hinj, List.map_map]
  apply List.map_congr_left
  intro p hp
  exact FabricPath.ofText?_text (hall p (List.mem_eraseDups.mp hp))

/-- Take the host of a record to be its address without the blanks around it, in brackets exactly if
the family is IPv6, in whatever case of its letters, and the address does not begin with a bracket.
An endpoint is split at its last colon into the host and the service exactly if the service has no
colon.  So two records without such a colon have one endpoint exactly if they have one service and
one host.  Two records in general have one endpoint exactly if they name one path, or the service of
one begins with what ends the host of the other.

A record that counts is passed over, in whatever log, exactly if one before it has its name and its
endpoint; and where the services of the subsystem have no colons, exactly if one before it has its
name and names the same host and the same service.  The endpoints of the subsystem are then split
into the different paths that the records of its name give, in the order in which these first
appear. -/
theorem merging_loses_no_path :
    (∀ r : LogRecord, r.host =
      if r.adrfam ∈ LogRecord.ipv6Spellings ∧ ¬ ['['] <+: (Text.trim r.traddr).toList then
        "[" ++ Text.trim r.traddr ++ "]"
      else Text.trim r.traddr) ∧
    (∀ r : LogRecord, FabricPath.ofText? r.endpoint = some ⟨r.host, Text.trim r.trsvcid⟩ ↔
      ':' ∉ (Text.trim r.trsvcid).toList) ∧
    (∀ r q : LogRecord,
      ':' ∉ (Text.trim r.trsvcid).toList → ':' ∉ (Text.trim q.trsvcid).toList →
      (r.endpoint = q.endpoint ↔ Text.trim r.trsvcid = Text.trim q.trsvcid ∧ r.host = q.host)) ∧
    (∀ r q : LogRecord, r.endpoint = q.endpoint ↔
      r.path = q.path ∨ r.path.Overlaps q.path ∨ q.path.Overlaps r.path) ∧
    (∀ (before : List LogRecord) (r : LogRecord), r.isAccepted = true →
      (ofLog (before ++ [r]) = ofLog before ↔
        ∃ q ∈ before, q.isAccepted = true ∧ q.subnqn = r.subnqn ∧ q.endpoint = r.endpoint) ∧
      (ReportsPlainly (before ++ [r]) r.subnqn →
        (ofLog (before ++ [r]) = ofLog before ↔
          ∃ q ∈ before, q.isAccepted = true ∧ q.subnqn = r.subnqn ∧
            q.service = r.service ∧ q.host = r.host))) ∧
    ∀ (records : List LogRecord), ∀ d ∈ ofLog records, ReportsPlainly records d.nqn →
      d.endpoints.map FabricPath.ofText? =
        (((records.filter (·.isAccepted)).filter (·.subnqn == d.nqn)).map
          (·.path)).eraseDups.map some := by
  refine ⟨LogRecord.host_eq, fun r => ?_, fun r q hr hq => ?_, fun r q => ?_,
    fun before r hr => ⟨ofLog_concat_eq_self_iff hr, fun hplain => ?_⟩,
    fun records d hd hplain => map_ofText?_endpoints hd hplain⟩
  · exact FabricPath.ofText?_eq_some_iff.trans (and_iff_right rfl)
  · exact LogRecord.endpoint_eq_iff_of_isPlain hr hq
  · exact FabricPath.text_eq_iff r.path q.path
  · have hlast : r.path.IsPlain :=
      hplain r (List.mem_append_right _ (List.mem_singleton_self r)) hr rfl
    rw [ofLog_concat_eq_self_iff hr]
    constructor
    · rintro ⟨q, hq, hcounts, hname, hendpoint⟩
      have hfirst : q.path.IsPlain := hplain q (List.mem_append_left _ hq) hcounts hname
      have hsame := (LogRecord.endpoint_eq_iff_of_isPlain hfirst hlast).mp hendpoint
      exact ⟨q, hq, hcounts, hname, hsame⟩
    · rintro ⟨q, hq, hcounts, hname, hsame⟩
      have hfirst : q.path.IsPlain := hplain q (List.mem_append_left _ hq) hcounts hname
      have hendpoint := (LogRecord.endpoint_eq_iff_of_isPlain hfirst hlast).mpr hsame
      exact ⟨q, hq, hcounts, hname, hendpoint⟩

/-- A path to an IPv6 address without brackets. -/
def bareRecord : LogRecord := ⟨"tcp", "IPv6", "", "4420", "fd00::5", "nqn-a"⟩

/-- A path to the same address in brackets, with blanks. -/
def bracketedRecord : LogRecord := ⟨"tcp", "ipv6", "", " 4420", "[fd00::5] ", "nqn-a"⟩

/-- A path to a host with a colon that is no address. -/
def portRecord : LogRecord := ⟨"fc", "fc", "", "none", "nn-0x20:pn-0x10", "nqn-a"⟩

/-- A host with colons that is given without its brackets and with them, and another such host. -/
def colonHosts : List LogRecord := [bareRecord, bracketedRecord, portRecord]

/-- All of these records count, for one subsystem. -/
theorem counts_of_mem_colonHosts :
    ∀ r ∈ colonHosts, r.isAccepted = true ∧ r.subnqn = "nqn-a" := by
  decide +kernel

/-- Two of them have one path. -/
theorem map_path_colonHosts : colonHosts.map (·.path) =
    [⟨"[fd00::5]", "4420"⟩, ⟨"[fd00::5]", "4420"⟩, ⟨"nn-0x20:pn-0x10", "none"⟩] := by
  simp only [colonHosts, bareRecord, bracketedRecord, portRecord, List.map_cons, List.map_nil,
    LogRecord.path, LogRecord.host_eq]
  decide +kernel

/-- Their services are plain, whatever their hosts are. -/
theorem reportsPlainly_colonHosts : ReportsPlainly colonHosts "nqn-a" := by
  have hall : ∀ p ∈ colonHosts.map (·.path), p.IsPlain := by
    rw [map_path_colonHosts]
    decide
  intro r hr _ _
  exact hall r.path (List.mem_map_of_mem hr)

/-- The host in brackets is known from the one without, and the endpoints give both hosts back. -/
theorem bracketed_host_passed_over :
    ofLog [bareRecord, bracketedRecord] = ofLog [bareRecord] ∧
    ∃ d ∈ ofLog colonHosts, d.endpoints.map FabricPath.ofText? =
      [some ⟨"[fd00::5]", "4420"⟩, some ⟨"nn-0x20:pn-0x10", "none"⟩] := by
  obtain ⟨-, -, -, -, hmerge, hpaths⟩ := merging_loses_no_path
  have hcounts := counts_of_mem_colonHosts
  constructor
  · have hsub : ∀ r ∈ [bareRecord] ++ [bracketedRecord], r ∈ colonHosts := by decide +kernel
    have hplain : ReportsPlainly ([bareRecord] ++ [bracketedRecord]) bracketedRecord.subnqn := by
      intro r hr
      exact reportsPlainly_colonHosts r (hsub r hr)
    have hsame : bareRecord.path = bracketedRecord.path := by
      have hmap := map_path_colonHosts
      simp only [colonHosts, List.map_cons, List.cons.injEq] at hmap
      exact hmap.1.trans hmap.2.1.symm
    have hbare := hcounts bareRecord (by decide)
    have hbracketed := hcounts bracketedRecord (by decide)
    refine ((hmerge [bareRecord] bracketedRecord hbracketed.1).2 hplain).mpr ?_
    exact ⟨bareRecord, List.mem_singleton_self _, hbare.1, hbare.2.trans hbracketed.2.symm,
      congrArg FabricPath.service hsame, congrArg FabricPath.host hsame⟩
  · have hknown : "nqn-a" ∈ (ofLog colonHosts).map (·.nqn) := by
      refine (groups_ofLog colonHosts).mem_names_iff.mpr ⟨bareRecord, ?_, rfl⟩
      exact List.mem_filter.mpr ⟨by decide, (hcounts bareRecord (by decide)).1⟩
    obtain ⟨d, hd, hname⟩ := List.mem_map.mp hknown
    have hall : (colonHosts.filter (·.isAccepted)).filter (·.subnqn == d.nqn) = colonHosts := by
      rw [List.filter_eq_self.mpr fun r hr => (hcounts r hr).1, hname]
      exact List.filter_eq_self.mpr fun r hr => beq_iff_eq.mpr (hcounts r hr).2
    refine ⟨d, hd, ?_⟩
    rw [hpaths colonHosts d hd (hname ▸ reportsPlainly_colonHosts), hall, map_path_colonHosts]
    decide

end Descriptor

end VolumeBroker
