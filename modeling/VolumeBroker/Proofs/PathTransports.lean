import VolumeBroker.Lifecycle
import VolumeBroker.Proofs.LogGrouping

/-!
# Paths over several transports

The paths of a subsystem are merged by its name alone, and the first of them gives the descriptor
its transport.  So the first endpoint is always one that this transport reaches, and where all the
paths of the subsystem use one transport, every endpoint is.  If they do not, an endpoint that is
only reported over another transport stands beside the transport of the first one, and a consumer
of the volume is told the two together.
-/

set_option autoImplicit false

namespace VolumeBroker

namespace LogRecord

/-- The record counts, and says that the subsystem is reached at the endpoint over the transport. -/
def Reports (r : LogRecord) (nqn : String) (transport : Transport) (endpoint : String) : Prop :=
  r.accepted? = some transport ∧ r.subnqn = nqn ∧ r.endpoint = endpoint

/-- Whether a record reports a path can be read off its fields. -/
instance (r : LogRecord) (nqn : String) (transport : Transport) (endpoint : String) :
    Decidable (r.Reports nqn transport endpoint) :=
  inferInstanceAs (Decidable (_ ∧ _ ∧ _))

end LogRecord

namespace Descriptor

variable {records : List LogRecord} {d : Descriptor}

/-- A descriptor has the endpoints that records of its subsystem report, over whatever transport. -/
theorem mem_endpoints_iff (hd : d ∈ ofLog records) {endpoint : String} :
    endpoint ∈ d.endpoints ↔
      ∃ r ∈ records, ∃ transport : Transport, r.Reports d.nqn transport endpoint := by
  rw [(groups_ofLog records).endpoints d hd, List.mem_eraseDups, List.mem_map]
  constructor
  · rintro ⟨r, hr, hendpoint⟩
    obtain ⟨hcounts, hname⟩ := List.mem_filter.mp hr
    obtain ⟨hmem, haccepted⟩ := List.mem_filter.mp hcounts
    obtain ⟨transport, htransport⟩ := LogRecord.isAccepted_iff.mp haccepted
    exact ⟨r, hmem, transport, htransport, beq_iff_eq.mp hname, hendpoint⟩
  · rintro ⟨r, hmem, transport, htransport, hname, hendpoint⟩
    have hcounts : r ∈ records.filter (·.isAccepted) :=
      List.mem_filter.mpr ⟨hmem, LogRecord.isAccepted_iff.mpr ⟨transport, htransport⟩⟩
    exact ⟨r, List.mem_filter.mpr ⟨hcounts, beq_iff_eq.mpr hname⟩, hendpoint⟩

/-- The transport of a descriptor reaches all its endpoints exactly if no record reports an endpoint
over another transport that none reports over this one. -/
theorem reaches_endpoints_iff (hd : d ∈ ofLog records) :
    (∀ endpoint ∈ d.endpoints, ∃ r ∈ records, r.Reports d.nqn d.transport endpoint) ↔
      ¬ ∃ r ∈ records, ∃ (transport : Transport) (endpoint : String),
        transport ≠ d.transport ∧ r.Reports d.nqn transport endpoint ∧
          ∀ q ∈ records, ¬ q.Reports d.nqn d.transport endpoint := by
  constructor
  · rintro hall ⟨r, hr, transport, endpoint, -, hreports, hnone⟩
    obtain ⟨q, hq, hown⟩ := hall endpoint ((mem_endpoints_iff hd).mpr ⟨r, hr, transport, hreports⟩)
    exact hnone q hq hown
  · intro hnone endpoint hendpoint
    obtain ⟨r, hr, transport, hreports⟩ := (mem_endpoints_iff hd).mp hendpoint
    by_cases hsame : transport = d.transport
    · exact ⟨r, hr, hsame ▸ hreports⟩
    · by_contra hunreached
      refine hnone ⟨r, hr, transport, endpoint, hsame, hreports, fun q hq hown => ?_⟩
      exact hunreached ⟨q, hq, hown⟩

/-- Let a log be read.  Every endpoint of a descriptor has been reported by a record of its name,
and the first one by the record that has given it its transport.  The transport reaches every
endpoint exactly if no record of the name reports an endpoint over another transport that none
reports over this one, so always where the records of the name agree on the transport.  The
context of a volume on the device names this transport, and the endpoints where there are several.
-/
theorem endpoints_over_transport (text : String) (found : List Descriptor)
    (h : parseLog text = .ok found) :
    ∃ records : List LogRecord, LogRecord.parseLog? text = some records ∧ ∀ d ∈ found,
      (∀ endpoint : String, endpoint ∈ d.endpoints ↔
        ∃ r ∈ records, ∃ transport : Transport, r.Reports d.nqn transport endpoint) ∧
      (∃ r ∈ records, d.endpoints.head? = some r.endpoint ∧
        r.Reports d.nqn d.transport r.endpoint) ∧
      ((∀ endpoint ∈ d.endpoints, ∃ r ∈ records, r.Reports d.nqn d.transport endpoint) ↔
        ¬ ∃ r ∈ records, ∃ (transport : Transport) (endpoint : String),
          transport ≠ d.transport ∧ r.Reports d.nqn transport endpoint ∧
            ∀ q ∈ records, ¬ q.Reports d.nqn d.transport endpoint) ∧
      ((∀ r ∈ records, ∀ (transport : Transport) (endpoint : String),
          r.Reports d.nqn transport endpoint → transport = d.transport) →
        ∀ endpoint ∈ d.endpoints, ∃ r ∈ records, r.Reports d.nqn d.transport endpoint) ∧
      (Device.ofDescriptor d).volumeContext[transportParameter]? = some d.transport.name ∧
      (Device.ofDescriptor d).volumeContext[endpointsKey]? =
        if 1 < d.endpoints.length then some (joinEndpoints d.endpoints) else none := by
  unfold parseLog at h
  cases hrecords : LogRecord.parseLog? text with
  | none => simp [hrecords] at h
  | some records =>
    obtain rfl : ofLog records = found := by simpa [hrecords] using h
    refine ⟨records, rfl, fun d hd => ⟨fun _ => mem_endpoints_iff hd, ?_, reaches_endpoints_iff hd,
      fun hagree => ?_, ?_, ?_⟩⟩
    · obtain ⟨r, hr, haccepted, hname, -, hhead⟩ := exists_first_path hd
      exact ⟨r, hr, hhead, haccepted, hname, rfl⟩
    · refine (reaches_endpoints_iff hd).mpr ?_
      rintro ⟨r, hr, transport, endpoint, hother, hreports, -⟩
      exact hother (hagree r hr transport endpoint hreports)
    · exact Device.getElem?_transport_volumeContext (.ofDescriptor d)
    · exact Device.getElem?_endpoints_volumeContext (.ofDescriptor d)

/-- Two paths of a subsystem over one transport, and between them a path of another subsystem. -/
def agreeingLog : String :=
  "[[[\"tcp\",\"\",\"\",\"4420\",\"10.0.0.1\",\"nqn-a\"]," ++
    "[\"rdma\",\"\",\"\",\"4420\",\"10.0.0.3\",\"nqn-b\"]," ++
    "[\"tcp\",\"\",\"\",\"4420\",\"10.0.0.2\",\"nqn-a\"]]]"

/-- The records of this log. -/
def agreeingRecords : List LogRecord :=
  [⟨"tcp", "", "", "4420", "10.0.0.1", "nqn-a"⟩, ⟨"rdma", "", "", "4420", "10.0.0.3", "nqn-b"⟩,
    ⟨"tcp", "", "", "4420", "10.0.0.2", "nqn-a"⟩]

/-- Where all paths use one transport, each endpoint is reported over the transport of the
descriptor. -/
theorem agreeing_paths_reached :
    parseLog agreeingLog = .ok [⟨"nqn-a", .tcp, ["10.0.0.1:4420", "10.0.0.2:4420"]⟩,
      ⟨"nqn-b", .rdma, ["10.0.0.3:4420"]⟩] ∧
    ∃ records : List LogRecord, LogRecord.parseLog? agreeingLog = some records ∧
      ∀ endpoint ∈ ["10.0.0.1:4420", "10.0.0.2:4420"],
        ∃ r ∈ records, r.Reports "nqn-a" .tcp endpoint := by
  have hrecords : LogRecord.parseLog? agreeingLog = some agreeingRecords := by decide +kernel
  have hfound : parseLog agreeingLog = .ok [⟨"nqn-a", .tcp, ["10.0.0.1:4420", "10.0.0.2:4420"]⟩,
      ⟨"nqn-b", .rdma, ["10.0.0.3:4420"]⟩] := by
    simp only [parseLog, hrecords]
    decide +kernel
  have htcp : ∀ r ∈ agreeingRecords, r.subnqn = "nqn-a" → r.accepted? = some .tcp := by
    decide +kernel
  obtain ⟨records, hread, hall⟩ := endpoints_over_transport agreeingLog _ hfound
  obtain rfl : agreeingRecords = records := Option.some.inj (hrecords.symm.trans hread)
  obtain ⟨-, -, -, hagree, -⟩ := hall ⟨"nqn-a", .tcp, ["10.0.0.1:4420", "10.0.0.2:4420"]⟩
    List.mem_cons_self
  refine ⟨hfound, agreeingRecords, hrecords, hagree fun r hr transport endpoint hreports => ?_⟩
  obtain ⟨haccepted, hname, -⟩ := hreports
  rw [htcp r hr hname] at haccepted
  exact (Option.some.inj haccepted).symm

/-- Two paths of a subsystem over two transports. -/
def mixedLog : String :=
  "[[[\"tcp\",\"\",\"\",\"4420\",\"10.0.0.1\",\"nqn-a\"]," ++
    "[\"rdma\",\"\",\"\",\"4420\",\"10.0.0.2\",\"nqn-a\"]]]"

/-- The records of this log. -/
def mixedRecords : List LogRecord :=
  [⟨"tcp", "", "", "4420", "10.0.0.1", "nqn-a"⟩, ⟨"rdma", "", "", "4420", "10.0.0.2", "nqn-a"⟩]

/-- The endpoint that is only reported over the second transport stands beside the first one. -/
theorem mixed_paths_share_descriptor :
    parseLog mixedLog = .ok [⟨"nqn-a", .tcp, ["10.0.0.1:4420", "10.0.0.2:4420"]⟩] ∧
      ∃ records : List LogRecord, LogRecord.parseLog? mixedLog = some records ∧
        ∀ r ∈ records, ¬ r.Reports "nqn-a" .tcp "10.0.0.2:4420" := by
  have hrecords : LogRecord.parseLog? mixedLog = some mixedRecords := by decide +kernel
  refine ⟨?_, mixedRecords, hrecords, by decide +kernel⟩
  simp only [parseLog, hrecords]
  decide +kernel

end Descriptor

end VolumeBroker
