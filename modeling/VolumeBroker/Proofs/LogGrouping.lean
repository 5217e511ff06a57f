import Mathlib.Data.List.Induction
import VolumeBroker.Discovery.LogText

/-!
# How a discovery log is grouped

The records of a log are taken one after the other.  A record that does not count is passed over,
and any other either starts a new descriptor at the end of the list or adds its path to the one
that is there under its name.  That one is looked up by its position, but a search through the list
would find the same (`Findings.descriptors_addPath`), so here the list is all there is
(`ofLog_eq_foldl`).

What comes out can be said of the log as a whole: the descriptors have the distinct names of the
records that count, in the order in which these first appear, each has the transport of the first
record of its name, and its endpoints are the distinct endpoints of all of them, again in the order
of first appearance.

`Descriptor.Groups` says this of the records that have been taken so far, `Groups.addPath` that one
more record keeps it, and `groups_ofLog` follows by induction from the end of the log.  The first of
several equal elements is the one that `List.eraseDups` keeps.
-/

set_option autoImplicit false

namespace VolumeBroker

namespace LogRecord

/-- A record that counts describes no discovery controller, names a subsystem, and is understood. -/
theorem accepted?_eq_some_iff {r : LogRecord} {transport : Transport} :
    r.accepted? = some transport ↔
      ¬ "discovery".toList <:+: r.subtype.toList ∧ r.subnqn ≠ "" ∧ r.subnqn ≠ discoveryNqn ∧
        Transport.parse r.trtype = .ok transport := by
  have hdiscovery : r.isDiscovery = true ↔
      "discovery".toList <:+: r.subtype.toList ∨ r.subnqn = discoveryNqn := by
    rw [isDiscovery, Bool.or_eq_true, Text.hasInfix_iff, beq_iff_eq]
  have hparse : (Transport.parse r.trtype).toOption = some transport ↔
      Transport.parse r.trtype = .ok transport := by
    cases Transport.parse r.trtype <;> simp [Except.toOption]
  unfold accepted?
  by_cases hskip : (r.isDiscovery || r.subnqn.isEmpty) = true
  · rw [if_pos hskip]
    rw [Bool.or_eq_true, hdiscovery, String.isEmpty_iff] at hskip
    simp only [reduceCtorEq, false_iff]
    rintro ⟨hsubtype, hnamed, hnqn, -⟩
    rcases hskip with (hcontained | hcontroller) | hempty
    · exact hsubtype hcontained
    · exact hnqn hcontroller
    · exact hnamed hempty
  · rw [if_neg hskip, hparse]
    rw [Bool.or_eq_true, hdiscovery, String.isEmpty_iff, not_or, not_or] at hskip
    obtain ⟨⟨hsubtype, hnqn⟩, hnamed⟩ := hskip
    exact ⟨fun h => ⟨hsubtype, hnamed, hnqn, h⟩, fun h => h.2.2.2⟩

/-- A record is accepted exactly if it has a transport to go by. -/
theorem isAccepted_iff {r : LogRecord} :
    r.isAccepted = true ↔ ∃ transport : Transport, r.accepted? = some transport :=
  Option.isSome_iff_exists

end LogRecord

namespace Descriptor

/-! ## First appearances -/

/-- An item at the end is kept exactly if it has not come before. -/
theorem eraseDups_concat {α : Type} [BEq α] [LawfulBEq α] (l : List α) (a : α) [Decidable (a ∈ l)] :
    (l ++ [a]).eraseDups = if a ∈ l then l.eraseDups else l.eraseDups ++ [a] := by
  rw [List.eraseDups_append]
  by_cases h : a ∈ l <;> simp [List.removeAll, h, List.eraseDups_cons]

/-- Without duplicates, nothing is there twice. -/
theorem nodup_eraseDups {α : Type} [BEq α] [LawfulBEq α] [DecidableEq α] (l : List α) :
    l.eraseDups.Nodup := by
  induction l using List.reverseRecOn with
  | nil => simp
  | append_singleton l a ih =>
    rw [eraseDups_concat]
    split
    · exact ih
    · next hnew =>
      refine List.nodup_append.mpr ⟨ih, by simp, ?_⟩
      rintro b hb c hc rfl
      obtain rfl : b = a := List.mem_singleton.mp hc
      exact hnew (List.mem_eraseDups.mp hb)

/-! ## One path -/

/-- Another endpoint leaves the transport as it is. -/
@[simp] theorem transport_addEndpoint (d : Descriptor) (endpoint : String) :
    (d.addEndpoint endpoint).transport = d.transport := by
  unfold addEndpoint
  split <;> rfl

/-- An endpoint is added at the end, unless it is there. -/
theorem endpoints_addEndpoint (d : Descriptor) (endpoint : String) :
    (d.addEndpoint endpoint).endpoints =
      if endpoint ∈ d.endpoints then d.endpoints else d.endpoints ++ [endpoint] := by
  unfold addEndpoint
  split <;> rfl

/-- Adds a path to the first descriptor with its name, or a new descriptor at the end. -/
def addPath (found : List Descriptor) (r : LogRecord) (transport : Transport) : List Descriptor :=
  match found with
  | [] => [⟨r.subnqn, transport, [r.endpoint]⟩]
  | d :: rest =>
    if d.nqn = r.subnqn then d.addEndpoint r.endpoint :: rest else d :: addPath rest r transport

/-- Takes a record into a list of descriptors. -/
def addRecord (found : List Descriptor) (r : LogRecord) : List Descriptor :=
  match r.accepted? with
  | some transport => addPath found r transport
  | none => found

variable {found : List Descriptor} {r : LogRecord} {transport : Transport}

/-- The descriptor that a path is added to is the one at the first position with its name. -/
theorem addPath_eq_modify {i : Nat} (hi : (found.map (·.nqn))[i]? = some r.subnqn)
    (hfirst : ∀ j : Nat, (found.map (·.nqn))[j]? = some r.subnqn → j = i) :
    addPath found r transport = found.modify i (·.addEndpoint r.endpoint) := by
  induction found generalizing i with
  | nil => cases hi
  | cons d rest ih =>
    cases i with
    | zero =>
      have hd : d.nqn = r.subnqn := Option.some.inj hi
      rw [addPath, if_pos hd, List.modify_zero_cons]
    | succ i =>
      have hd : d.nqn ≠ r.subnqn := by
        intro hsame
        have hzero : 0 = i + 1 := hfirst 0 (congrArg some hsame)
        omega
      have hrest : addPath rest r transport = rest.modify i (·.addEndpoint r.endpoint) := by
        refine ih hi fun j hj => ?_
        have hsucc : j + 1 = i + 1 := hfirst (j + 1) hj
        omega
      rw [addPath, if_neg hd, hrest, List.modify_succ_cons]

/-- A path to a subsystem that is not known makes a descriptor of its own, at the end. -/
theorem addPath_of_notMem (h : r.subnqn ∉ found.map (·.nqn)) :
    addPath found r transport = found ++ [⟨r.subnqn, transport, [r.endpoint]⟩] := by
  induction found with
  | nil => rfl
  | cons d rest ih =>
    rw [List.map_cons, List.mem_cons, not_or] at h
    rw [addPath, if_neg (Ne.symm h.1), ih h.2, List.cons_append]

/-- A path to a subsystem that is known adds an endpoint to its descriptor, and changes no other. -/
theorem addPath_of_mem (hnames : (found.map (·.nqn)).Nodup) (h : r.subnqn ∈ found.map (·.nqn)) :
    addPath found r transport =
      found.map fun d => if d.nqn = r.subnqn then d.addEndpoint r.endpoint else d := by
  induction found with
  | nil => cases h
  | cons d rest ih =>
    rw [List.map_cons, List.nodup_cons] at hnames
    rw [addPath, List.map_cons]
    by_cases hd : d.nqn = r.subnqn
    · -- The other descriptors have other names, so they stay as they are.
      have hrest : ∀ e ∈ rest, (if e.nqn = r.subnqn then e.addEndpoint r.endpoint else e) = e := by
        intro e he
        refine if_neg fun hsame => hnames.1 ?_
        rw [hd, ← hsame]
        exact List.mem_map_of_mem he
      rw [if_pos hd, if_pos hd, List.map_congr_left hrest, List.map_id']
    · rw [List.map_cons, List.mem_cons] at h
      rw [if_neg hd, if_neg hd, ih hnames.2 (h.resolve_left (Ne.symm hd))]

end Descriptor

/-! ## Positions -/

namespace Findings

open Descriptor

/-- The position that is kept for a name leads to the descriptor that a search finds. -/
theorem descriptors_addPath (found : Findings) (r : LogRecord) (transport : Transport) :
    (found.addPath r transport).descriptors =
      Descriptor.addPath found.descriptors r transport := by
  unfold addPath
  split
  · next i hposition =>
    refine (addPath_eq_modify ((found.position_iff _ _).mp hposition) fun j hj => ?_).symm
    have hj : found.positions[r.subnqn]? = some j := (found.position_iff _ _).mpr hj
    exact Option.some.inj (hj.symm.trans hposition)
  · next hnone => exact (addPath_of_notMem (found.notMem_of_position hnone)).symm

/-- The index makes no difference to what a record does to the descriptors. -/
theorem descriptors_addRecord (found : Findings) (r : LogRecord) :
    (found.addRecord r).descriptors = Descriptor.addRecord found.descriptors r := by
  unfold addRecord Descriptor.addRecord
  cases r.accepted? with
  | none => rfl
  | some transport => exact found.descriptors_addPath r transport

/-- Records leave the descriptors as if there were no positions. -/
theorem descriptors_foldl (found : Findings) (records : List LogRecord) :
    (records.foldl addRecord found).descriptors =
      records.foldl Descriptor.addRecord found.descriptors := by
  induction records generalizing found with
  | nil => rfl
  | cons r records ih => rw [List.foldl_cons, ih, descriptors_addRecord, List.foldl_cons]

end Findings

namespace Descriptor

variable {found : List Descriptor} {r : LogRecord} {transport : Transport}

/-! ## The whole log -/

/-- The descriptors are the groups of the paths. -/
structure Groups (paths : List LogRecord) (found : List Descriptor) : Prop where
  /-- There is one for every name, in the order in which the names first appear. -/
  names : found.map (·.nqn) = (paths.map (·.subnqn)).eraseDups
  /-- Each has the transport of the first path of its name. -/
  transport : ∀ d ∈ found, ∃ r : LogRecord, paths.find? (·.subnqn == d.nqn) = some r ∧
    r.accepted? = some d.transport
  /-- Its endpoints are those of the paths of its name, in the order in which they first appear. -/
  endpoints : ∀ d ∈ found, d.endpoints =
    ((paths.filter (·.subnqn == d.nqn)).map (·.endpoint)).eraseDups

/-- No two groups have one name. -/
theorem Groups.nodup {paths : List LogRecord} (h : Groups paths found) :
    (found.map (·.nqn)).Nodup := by
  rw [h.names]
  exact nodup_eraseDups _

/-- The names of the groups are those of the paths. -/
theorem Groups.mem_names_iff {paths : List LogRecord} (h : Groups paths found) {nqn : String} :
    nqn ∈ found.map (·.nqn) ↔ ∃ r ∈ paths, r.subnqn = nqn := by
  rw [h.names, List.mem_eraseDups, List.mem_map]

/-- The first path of a name stays the first. -/
theorem find?_append_of_eq_some {paths : List LogRecord} {nqn : String} {first : LogRecord}
    (hfirst : paths.find? (·.subnqn == nqn) = some first) (r : LogRecord) :
    (paths ++ [r]).find? (·.subnqn == nqn) = some first := by
  rw [List.find?_append, hfirst, Option.some_or]

/-- A path does not count among those of other names. -/
theorem filter_append_of_ne {nqn : String} (h : nqn ≠ r.subnqn) (paths : List LogRecord) :
    (paths ++ [r]).filter (·.subnqn == nqn) = paths.filter (·.subnqn == nqn) := by
  simp [List.filter_append, Ne.symm h]

/-- A path comes last among those of its own name. -/
theorem filter_append_self (paths : List LogRecord) (r : LogRecord) :
    (paths ++ [r]).filter (·.subnqn == r.subnqn) = paths.filter (·.subnqn == r.subnqn) ++ [r] := by
  simp [List.filter_append]

/-- One more path of a known name goes to the group of the name. -/
theorem Groups.addPath_of_mem {paths : List LogRecord} (h : Groups paths found)
    (hmem : r.subnqn ∈ found.map (·.nqn)) : Groups (paths ++ [r]) (addPath found r transport) := by
  rw [Descriptor.addPath_of_mem h.nodup hmem]
  refine ⟨?_, fun d' hd' => ?_, fun d' hd' => ?_⟩
  · rw [List.map_append, List.map_singleton, eraseDups_concat, if_pos, ← h.names, List.map_map]
    · refine List.map_congr_left fun d _ => ?_
      simp only [Function.comp_apply]
      split <;> simp
    · rwa [h.names, List.mem_eraseDups] at hmem
  · obtain ⟨d, hd, rfl⟩ := List.mem_map.mp hd'
    obtain ⟨first, hfirst, htransport⟩ := h.transport d hd
    refine ⟨first, ?_, ?_⟩
    · have hname : (if d.nqn = r.subnqn then d.addEndpoint r.endpoint else d).nqn = d.nqn := by
        split <;> simp
      rw [hname]
      exact find?_append_of_eq_some hfirst r
    · split
      · rw [transport_addEndpoint]
        exact htransport
      · exact htransport
  · obtain ⟨d, hd, rfl⟩ := List.mem_map.mp hd'
    have hendpoints := h.endpoints d hd
    split
    · next hname =>
      have hknown : r.endpoint ∈ d.endpoints ↔
          r.endpoint ∈ (paths.filter (·.subnqn == r.subnqn)).map (·.endpoint) := by
        rw [hendpoints, List.mem_eraseDups, hname]
      rw [nqn_addEndpoint, endpoints_addEndpoint, hname, filter_append_self, List.map_append,
        List.map_singleton, eraseDups_concat, ← hname, ← hendpoints, hname]
      simp only [hknown]
    · next hname => rw [filter_append_of_ne hname, hendpoints]

/-- One more path of a new name makes a group. -/
theorem Groups.addPath_of_notMem {paths : List LogRecord} (h : Groups paths found)
    (haccepted : r.accepted? = some transport) (hmem : r.subnqn ∉ found.map (·.nqn)) :
    Groups (paths ++ [r]) (addPath found r transport) := by
  have hfresh : ∀ q ∈ paths, ¬ (q.subnqn == r.subnqn) = true := by
    intro q hq hsame
    exact hmem (h.mem_names_iff.mpr ⟨q, hq, beq_iff_eq.mp hsame⟩)
  rw [Descriptor.addPath_of_notMem hmem]
  refine ⟨?_, fun d hd => ?_, fun d hd => ?_⟩
  · rw [List.map_append, List.map_append, List.map_singleton, List.map_singleton,
      eraseDups_concat, if_neg, h.names]
    rwa [h.names, List.mem_eraseDups] at hmem
  · rcases List.mem_append.mp hd with hold | hnew
    · obtain ⟨first, hfirst, htransport⟩ := h.transport d hold
      exact ⟨first, find?_append_of_eq_some hfirst r, htransport⟩
    · obtain rfl := List.mem_singleton.mp hnew
      refine ⟨r, ?_, haccepted⟩
      have hnone : paths.find? (·.subnqn == r.subnqn) = none := List.find?_eq_none.mpr hfresh
      simp [List.find?_append, hnone]
  · rcases List.mem_append.mp hd with hold | hnew
    · have hname : d.nqn ≠ r.subnqn := fun hsame => hmem (hsame ▸ List.mem_map_of_mem hold)
      rw [filter_append_of_ne hname]
      exact h.endpoints d hold
    · obtain rfl := List.mem_singleton.mp hnew
      have hnone : paths.filter (·.subnqn == r.subnqn) = [] := List.filter_eq_nil_iff.mpr hfresh
      rw [filter_append_self, hnone]
      simp [List.eraseDups_cons]

/-- After one more path the descriptors are the groups of the paths. -/
theorem Groups.addPath {paths : List LogRecord} (h : Groups paths found)
    (haccepted : r.accepted? = some transport) :
    Groups (paths ++ [r]) (addPath found r transport) := by
  by_cases hmem : r.subnqn ∈ found.map (·.nqn)
  · exact h.addPath_of_mem hmem
  · exact h.addPath_of_notMem haccepted hmem

/-- The log is grouped as the plain list of descriptors would be, record by record. -/
theorem ofLog_eq_foldl (records : List LogRecord) : ofLog records = records.foldl addRecord [] :=
  Findings.descriptors_foldl {} records

/-- A log can be read record by record. -/
theorem ofLog_concat (records : List LogRecord) (r : LogRecord) :
    ofLog (records ++ [r]) = addRecord (ofLog records) r := by
  simp [ofLog_eq_foldl, List.foldl_append]

/-- What a log is grouped into are the groups of the records that count. -/
theorem groups_ofLog (records : List LogRecord) :
    Groups (records.filter (·.isAccepted)) (ofLog records) := by
  induction records using List.reverseRecOn with
  | nil => exact ⟨rfl, by simp [ofLog_eq_foldl], by simp [ofLog_eq_foldl]⟩
  | append_singleton records r ih =>
    rw [ofLog_concat, List.filter_append]
    unfold addRecord
    cases haccepted : r.accepted? with
    | none =>
      have hskip : [r].filter (·.isAccepted) = [] := by simp [LogRecord.isAccepted, haccepted]
      rw [hskip, List.append_nil]
      exact ih
    | some transport =>
      have hkeep : [r].filter (·.isAccepted) = [r] := by simp [LogRecord.isAccepted, haccepted]
      rw [hkeep]
      exact ih.addPath haccepted

/-- Records that are not accepted have no influence. -/
theorem ofLog_filter (records : List LogRecord) :
    ofLog (records.filter (·.isAccepted)) = ofLog records := by
  have hskip : (fun (found : List Descriptor) (r : LogRecord) =>
      if r.isAccepted then addRecord found r else found) = addRecord := by
    funext found r
    split
    · rfl
    · next hrejected =>
      have hnone : r.accepted? = none := by simpa [LogRecord.isAccepted] using hrejected
      simp only [addRecord, hnone]
  rw [ofLog_eq_foldl, List.foldl_filter, hskip, ofLog_eq_foldl]

/-- Every descriptor has the path that started it, with its transport and its first endpoint. -/
theorem exists_first_path {records : List LogRecord} {d : Descriptor} (hd : d ∈ ofLog records) :
    ∃ r ∈ records, r.accepted? = some d.transport ∧ r.subnqn = d.nqn ∧
      (records.filter (·.isAccepted)).find? (·.subnqn == d.nqn) = some r ∧
      d.endpoints.head? = some r.endpoint := by
  obtain ⟨first, hfirst, htransport⟩ := (groups_ofLog records).transport d hd
  have hname : first.subnqn = d.nqn := by simpa using List.find?_some hfirst
  have hmem := List.mem_filter.mp (List.mem_of_find?_eq_some hfirst)
  refine ⟨first, hmem.1, htransport, hname, hfirst, ?_⟩
  have hhead : ((records.filter (·.isAccepted)).filter (·.subnqn == d.nqn)).head? = some first := by
    rw [List.head?_filter, hfirst]
  obtain ⟨rest, hpaths⟩ := List.head?_eq_some_iff.mp hhead
  rw [(groups_ofLog records).endpoints d hd, hpaths, List.map_cons, List.eraseDups_cons,
    List.head?_cons]

/-- Whatever the records of a log are, those that count are the ones that describe no discovery
controller, name a subsystem and are understood, and the others have no influence.  There is one
descriptor for each name among those that count, in the order in which the names first appear.  It
has the transport of the first record of its name, and as its endpoints the different endpoints of
all the records of its name, in the order in which these first appear; and it has at least one. -/
theorem ofLog_groups_exactly (records : List LogRecord) :
    let paths := records.filter (·.isAccepted)
    (∀ r : LogRecord, r ∈ paths ↔ r ∈ records ∧ ¬ "discovery".toList <:+: r.subtype.toList ∧
      r.subnqn ≠ "" ∧ r.subnqn ≠ discoveryNqn ∧
      ∃ transport : Transport, Transport.parse r.trtype = .ok transport) ∧
    (∀ others : List LogRecord, others.filter (·.isAccepted) = paths →
      ofLog others = ofLog records) ∧
    (ofLog records).map (·.nqn) = (paths.map (·.subnqn)).eraseDups ∧
    ((ofLog records).map (·.nqn)).Nodup ∧
    (∀ d ∈ ofLog records,
      (∃ first : LogRecord, paths.find? (·.subnqn == d.nqn) = some first ∧
        Transport.parse first.trtype = .ok d.transport) ∧
      d.endpoints = ((paths.filter (·.subnqn == d.nqn)).map (·.endpoint)).eraseDups ∧
      d.endpoints.Nodup ∧ d.endpoints ≠ []) ∧
    ∀ text : String, LogRecord.parseLog? text = some records →
      parseLog text = .ok (ofLog records) := by
  intro paths
  have h : Groups paths (ofLog records) := groups_ofLog records
  refine ⟨fun r => ?_, fun others hothers => ?_, h.names, h.nodup, fun d hd => ⟨?_, ?_, ?_, ?_⟩,
    fun text htext => ?_⟩
  · simp only [paths, List.mem_filter, LogRecord.isAccepted_iff, LogRecord.accepted?_eq_some_iff,
      exists_and_left]
  · rw [← ofLog_filter others, hothers, ofLog_filter]
  · obtain ⟨first, -, haccepted, -, hfirst, -⟩ := exists_first_path hd
    exact ⟨first, hfirst, (LogRecord.accepted?_eq_some_iff.mp haccepted).2.2.2⟩
  · exact h.endpoints d hd
  · rw [h.endpoints d hd]
    exact nodup_eraseDups _
  · obtain ⟨first, -, -, -, -, hhead⟩ := exists_first_path hd
    rintro hempty
    rw [hempty] at hhead
    cases hhead
  · simp only [parseLog, htext]

end Descriptor

end VolumeBroker
