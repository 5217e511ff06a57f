import Std.Data.ExtTreeMap
import VolumeBroker.Device
import VolumeBroker.Text.Blank

/-!
# Discovery logs

A discovery log lists paths, one record each.  `Descriptor.ofLog` turns it into one descriptor for
each subsystem: records that do not describe a subsystem, or describe it in terms that are not
understood, are passed over, and the records of one subsystem become the endpoints of one
descriptor.  Order is that of first appearance throughout.

The descriptor of a subsystem is found again by its position, which is kept under the name.
`Findings` holds the two together, and with them that they agree.
-/

set_option autoImplicit false

namespace VolumeBroker

/-- A record of a discovery log, with the fields as they are named there. -/
structure LogRecord where
  trtype : String := ""
  adrfam : String := ""
  subtype : String := ""
  trsvcid : String := ""
  traddr : String := ""
  subnqn : String := ""
  deriving DecidableEq, Repr, Inhabited

/-- The name under which every discovery controller goes. -/
def discoveryNqn : String := "nqn.2014-08.org.nvmexpress.discovery"

namespace LogRecord

/-- Whether the record describes a discovery controller and no subsystem with devices. -/
def isDiscovery (r : LogRecord) : Bool :=
  Text.hasInfix "discovery".toList r.subtype.toList || r.subnqn == discoveryNqn

/-- The transport of a record that describes a subsystem; `none` for a record to pass over. -/
def accepted? (r : LogRecord) : Option Transport :=
  if r.isDiscovery || r.subnqn.isEmpty then none else (Transport.parse r.trtype).toOption

/-- Whether the record is one that counts. -/
def isAccepted (r : LogRecord) : Bool := r.accepted?.isSome

/-- The host of the path.  An address of IPv6 stands in brackets. -/
def host (r : LogRecord) : String :=
  let address := Text.trim r.traddr
  if Text.sameUpToCase r.adrfam "ipv6" && address.toList.head? != some '[' then
    "[" ++ address ++ "]"
  else address

/-- The service of the path, without the blanks around it. -/
def service (r : LogRecord) : String := Text.trim r.trsvcid

/-- The path as it is written in a descriptor. -/
def endpoint (r : LogRecord) : String := r.host ++ ":" ++ r.service

end LogRecord

namespace Descriptor

/-- The descriptor with one more endpoint, unless it has it already. -/
def addEndpoint (d : Descriptor) (endpoint : String) : Descriptor :=
  if endpoint ∈ d.endpoints then d else { d with endpoints := d.endpoints ++ [endpoint] }

/-- A further endpoint leaves the name as it is. -/
@[simp] theorem nqn_addEndpoint (d : Descriptor) (endpoint : String) :
    (d.addEndpoint endpoint).nqn = d.nqn := by
  unfold addEndpoint
  split <;> rfl

/-- A further endpoint of a descriptor leaves the names where they are. -/
theorem map_nqn_modify (found : List Descriptor) (i : Nat) (endpoint : String) :
    (found.modify i (·.addEndpoint endpoint)).map (·.nqn) = found.map (·.nqn) := by
  apply List.ext_getElem?
  intro k
  rw [List.getElem?_map, List.getElem?_modify, List.getElem?_map]
  cases found[k]? with
  | none => rfl
  | some d => by_cases hk : i = k <;> simp [hk]

end Descriptor

/-- What has been found so far: the descriptors, and where among them the one of each subsystem
stands. -/
structure Findings where
  descriptors : List Descriptor := []
  positions : Std.ExtTreeMap String Nat := ∅
  /-- The position of a name is that of the descriptor with the name. -/
  position_iff : ∀ (nqn : String) (i : Nat),
    positions[nqn]? = some i ↔ (descriptors.map (·.nqn))[i]? = some nqn := by simp

namespace Findings

/-- A name that has no position is the name of no descriptor. -/
theorem notMem_of_position (found : Findings) {nqn : String} (h : found.positions[nqn]? = none) :
    nqn ∉ found.descriptors.map (·.nqn) := by
  intro hmem
  obtain ⟨i, hi⟩ := List.mem_iff_getElem?.mp hmem
  rw [(found.position_iff nqn i).mpr hi] at h
  cases h

/-- The positions when a new descriptor has come to the end. -/
theorem position_iff_concat (found : Findings) (d : Descriptor)
    (hnew : found.positions[d.nqn]? = none) (nqn : String) (i : Nat) :
    (found.positions.insert d.nqn found.descriptors.length)[nqn]? = some i ↔
      ((found.descriptors ++ [d]).map (·.nqn))[i]? = some nqn := by
  have hfresh := found.notMem_of_position hnew
  have hlast : ((found.descriptors ++ [d]).map (·.nqn))[i]? = some nqn ↔
      (found.descriptors.map (·.nqn))[i]? = some nqn ∨
        i = found.descriptors.length ∧ d.nqn = nqn := by
    rw [List.map_append, List.map_singleton, List.getElem?_append, List.length_map]
    split
    · next hlt => simp [Nat.ne_of_lt hlt]
    · next hge =>
      have hnone : (found.descriptors.map (·.nqn))[i]? = none := by
        rw [List.getElem?_eq_none_iff, List.length_map]
        omega
      have hi : i - found.descriptors.length = 0 ↔ i = found.descriptors.length := by omega
      rw [hnone, List.getElem?_singleton]
      simp [hi]
  rw [hlast]
  by_cases hname : d.nqn = nqn
  · subst hname
    have hold : ¬ (found.descriptors.map (·.nqn))[i]? = some d.nqn :=
      fun hi => hfresh (List.mem_of_getElem? hi)
    rw [Std.ExtTreeMap.getElem?_insert_self, Option.some_inj, or_iff_right hold,
      and_iff_left rfl, eq_comm]
  · have hother : ¬ compare d.nqn nqn = .eq := by simpa using hname
    rw [Std.ExtTreeMap.getElem?_insert, if_neg hother, found.position_iff]
    simp [hname]

/-- Adds a path to the descriptor of its subsystem, or a new descriptor at the end. -/
def addPath (found : Findings) (r : LogRecord) (transport : Transport) : Findings :=
  match h : found.positions[r.subnqn]? with
  | some i =>
    { descriptors := found.descriptors.modify i (·.addEndpoint r.endpoint)
      positions := found.positions
      position_iff := by
        intro nqn k
        rw [Descriptor.map_nqn_modify]
        exact found.position_iff nqn k }
  | none =>
    { descriptors := found.descriptors ++ [⟨r.subnqn, transport, [r.endpoint]⟩]
      positions := found.positions.insert r.subnqn found.descriptors.length
      position_iff := found.position_iff_concat ⟨r.subnqn, transport, [r.endpoint]⟩ h }

/-- Takes a record into what has been found so far. -/
def addRecord (found : Findings) (r : LogRecord) : Findings :=
  match r.accepted? with
  | some transport => found.addPath r transport
  | none => found

end Findings

/-- The subsystems that a log describes. -/
def Descriptor.ofLog (records : List LogRecord) : List Descriptor :=
  (records.foldl Findings.addRecord {}).descriptors

end VolumeBroker
