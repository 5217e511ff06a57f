import VolumeBroker.Endpoint
import VolumeBroker.Proofs.AddressText

/-!
# Endpoints are read back

An endpoint that is written down is read as itself.  Since whatever is read can be written, writing
and reading a text that is an endpoint changes nothing but its spelling, and of the path of a socket
not even that.
-/

set_option autoImplicit false

namespace VolumeBroker.Endpoint

open Address Text

/-- A driver can listen there: a socket has a path. -/
def IsListenable : Endpoint → Prop
  | .unix path => path ≠ ""
  | _ => True

/-! ## Parts of an address -/

/-- A port that has been printed is read back. -/
theorem readPort?_portChars (port : UInt16) : readPort? (portChars port) = some port := by
  have hport : port.toNat ≤ portShape.bound := by
    have hlt := port.toNat_lt
    show port.toNat ≤ 65535
    omega
  have hread := @readNumber_toDigits portShape isSound_portShape _ hport [] stops_nil
  rw [List.append_nil] at hread
  have hread' : readNumber portShape (Nat.toDigits 10 port.toNat) = some (port.toNat, []) := hread
  unfold readPort? portChars
  simp [readMark_cons, hread']

/-- A scope that has been printed is read back; zero is not printed. -/
theorem readScope_scopeChars (scope : UInt32) (rest : List Char) :
    readScope (scopeChars scope ++ ']' :: rest) = (scope, ']' :: rest) := by
  unfold scopeChars
  split
  · next hzero =>
    subst hzero
    rfl
  · have hscope : scope.toNat ≤ scopeShape.bound := by
      have hlt := scope.toNat_lt
      show scope.toNat ≤ 4294967295
      omega
    have hstops : Stops (isDigitOf scopeShape.base) (']' :: rest) := stops_cons.mpr (by decide)
    have hread : readNumber scopeShape (Nat.toDigits 10 scope.toNat ++ ']' :: rest) =
        some (scope.toNat, ']' :: rest) := readNumber_toDigits isSound_scopeShape hscope hstops
    unfold readScope
    rw [List.cons_append, readMark_cons, Option.bind_some, hread]
    simp

/-- What follows an address in brackets ends it. -/
theorem endsGroups_scopeChars (scope : UInt32) (rest : List Char) :
    Ipv6.EndsGroups (scopeChars scope ++ ']' :: rest) := by
  unfold scopeChars
  split
  · exact Ipv6.endsGroups_cons (by decide) (by decide) (by decide) _
  · exact Ipv6.endsGroups_cons (by decide) (by decide) (by decide) _

/-- An IPv4 address that has been printed with its port is read back. -/
theorem readTcp4?_chars (ip : Ipv4) (port : UInt16) :
    readTcp4? (ip.chars ++ portChars port) = some (.tcp4 ip port) := by
  have hstops : Stops (isDigitOf 10) (portChars port) := stops_cons.mpr (by decide)
  unfold readTcp4?
  simp [Ipv4.read_chars ip hstops, readPort?_portChars]

/-- An IPv6 address that has been printed with its scope and its port is read back. -/
theorem readTcp6?_chars (ip : Ipv6) (scope : UInt32) (port : UInt16) :
    readTcp6? ('[' :: ip.chars ++ scopeChars scope ++ ']' :: portChars port) =
      some (.tcp6 ip scope port) := by
  have hread := ip.read_chars (endsGroups_scopeChars scope (portChars port))
  unfold readTcp6?
  simp [readMark_cons, hread, readScope_scopeChars, readPort?_portChars]

/-- No IPv4 address begins with a bracket. -/
theorem readTcp4?_bracket (cs : List Char) : readTcp4? ('[' :: cs) = none := by
  have hread : Ipv4.read ('[' :: cs) = none := Ipv4.read_eq_none (by
    rw [List.dropWhile_cons_of_neg (by decide)]
    simp)
  unfold readTcp4?
  rw [hread]
  rfl

/-! ## Schemes -/

/-- What follows a scheme is found. -/
theorem afterScheme?_append (scheme cs : List Char) :
    afterScheme? scheme (scheme ++ cs) = some cs := by
  have hprefix : scheme.isPrefixOf (scheme ++ cs) = true := by
    rw [List.isPrefixOf_iff_prefix]
    exact List.prefix_append scheme cs
  unfold afterScheme?
  rw [if_pos hprefix, List.drop_left]

/-- Where a scheme has been found, the text begins with it. -/
theorem eq_of_afterScheme? {scheme cs rest : List Char} (h : afterScheme? scheme cs = some rest) :
    cs = scheme ++ rest := by
  unfold afterScheme? at h
  split at h
  · next hprefix =>
    obtain ⟨after, rfl⟩ := List.isPrefixOf_iff_prefix.mp hprefix
    obtain rfl := Option.some.inj h
    rw [List.drop_left]
  · cases h

/-- The one scheme is not taken for the other. -/
theorem afterScheme?_unix_tcp (cs : List Char) : afterScheme? unixScheme (tcpScheme ++ cs) = none :=
  rfl

/-- After the scheme of sockets, an IPv4 address is tried first and then an IPv6 address. -/
theorem parse_tcp {s : String} {address : List Char} {e : Endpoint}
    (hs : s.toList = tcpScheme ++ address)
    (he : (readTcp4? address).or (readTcp6? address) = some e) : parse s = .ok e := by
  unfold parse
  simp only [hs, afterScheme?_unix_tcp, afterScheme?_append, he]

/-! ## Reading what is written -/

/-- The text of an endpoint where a driver can listen is parsed as that endpoint. -/
theorem parse_text_eq {e : Endpoint} (he : e.IsListenable) : parse e.text = .ok e := by
  have htext : e.text.toList = e.chars := String.toList_ofList
  cases e with
  | unix path =>
    have hpath : path.toList ≠ [] := fun hempty => he (String.toList_eq_nil_iff.mp hempty)
    unfold parse
    rw [htext, chars, afterScheme?_append]
    simp [hpath]
  | tcp4 ip port =>
    rw [chars, List.append_assoc] at htext
    exact parse_tcp htext (by rw [readTcp4?_chars, Option.some_or])
  | tcp6 ip scope port =>
    have haddress : (tcp6 ip scope port).text.toList =
        tcpScheme ++ ('[' :: (ip.chars ++ (scopeChars scope ++ ']' :: portChars port))) := by
      rw [htext, chars]
      simp
    have hread := readTcp6?_chars ip scope port
    rw [List.append_assoc, List.cons_append] at hread
    exact parse_tcp haddress (by rw [readTcp4?_bracket, Option.none_or, hread])

/-- No address is read as a path. -/
theorem ne_unix_of_readTcp {address : List Char} {e : Endpoint}
    (h : (readTcp4? address).or (readTcp6? address) = some e) :
    (∀ path, e ≠ .unix path) := by
  rintro path rfl
  rcases Option.or_eq_some_iff.mp h with h | ⟨-, h⟩
  · obtain ⟨found, -, h⟩ := Option.bind_eq_some_iff.mp h
    obtain ⟨port, -, h⟩ := Option.bind_eq_some_iff.mp h
    cases h
  · obtain ⟨opened, -, h⟩ := Option.bind_eq_some_iff.mp h
    obtain ⟨found, -, h⟩ := Option.bind_eq_some_iff.mp h
    obtain ⟨closed, -, h⟩ := Option.bind_eq_some_iff.mp h
    obtain ⟨port, -, h⟩ := Option.bind_eq_some_iff.mp h
    cases h

/-- The path of a socket is not empty, and is all that follows its scheme. -/
theorem parse_eq_unix {s path : String} (h : parse s = .ok (.unix path)) :
    path ≠ "" ∧ (unix path).text = s := by
  unfold parse at h
  split at h
  · next cs hcs =>
    split at h
    · cases h
    · next hne =>
      obtain rfl : String.ofList cs = path := by simpa using h
      refine ⟨?_, ?_⟩
      · intro hempty
        apply hne
        have hnil := congrArg String.toList hempty
        rw [String.toList_ofList] at hnil
        simp [hnil]
      · apply String.toList_injective
        rw [eq_of_afterScheme? hcs, text, String.toList_ofList, chars, String.toList_ofList]
  · split at h
    · cases h
    · split at h
      · next e he =>
        obtain rfl : e = .unix path := Except.ok.inj h
        exact absurd rfl (ne_unix_of_readTcp he path)
      · cases h

/-- Where a text is parsed, a driver can listen at the endpoint. -/
theorem isListenable_of_parse {s : String} {e : Endpoint} (h : parse s = .ok e) :
    e.IsListenable := by
  cases e with
  | unix path => exact (parse_eq_unix h).1
  | tcp4 ip port => trivial
  | tcp6 ip scope port => trivial

/-- Every endpoint is read back as it was written, if it is one at which a driver can listen, and
only such endpoints are ever read.  So what has been read and written is read as the same endpoint
again, and the path of a socket is written exactly as it was read. -/
theorem endpoints_read_back :
    (∀ e : Endpoint, e.IsListenable → parse e.text = .ok e) ∧
    (∀ (s : String) (e : Endpoint), parse s = .ok e → e.IsListenable ∧ parse e.text = parse s) ∧
    ∀ s path : String, parse s = .ok (.unix path) → (unix path).text = s := by
  refine ⟨fun e he => parse_text_eq he, fun s e h => ?_, fun s path h => (parse_eq_unix h).2⟩
  have he := isListenable_of_parse h
  refine ⟨he, ?_⟩
  rw [h]
  exact parse_text_eq he

/-- Zeros at the front and at the end of an address, with the number of an interface. -/
theorem endpoint_with_zeros_read_back :
    let e : Endpoint := .tcp6 ⟨#v[0, 0, 1, 0, 0, 0, 0xAB, 0]⟩ 7 4420
    e.text = "tcp://[0:0:1::ab:0%7]:4420" ∧ parse e.text = .ok e ∧
      (unix "csi.sock").text = "unix://csi.sock" := by
  intro e
  obtain ⟨hread, -, hpath⟩ := endpoints_read_back
  have hparse : parse "unix://csi.sock" = .ok (.unix "csi.sock") := by decide
  exact ⟨by decide, hread e trivial, hpath _ _ hparse⟩

end VolumeBroker.Endpoint
