import VolumeBroker.Address.Ipv4

/-!
# IPv6 addresses

Eight groups of 16 bits, in hexadecimal, with colons between them.  In writing, the first of the
longest runs of at least two zero groups is left out, and an address that stands for an IPv4 address
ends in that.  Reading takes every way in which groups may be left out, and an IPv4 address in place
of the last two groups of any address.
-/

set_option autoImplicit false

namespace VolumeBroker.Address

/-- An IPv6 address. -/
structure Ipv6 where
  groups : Vector UInt16 8
  deriving DecidableEq, Repr

namespace Ipv6

/-! ## Writing -/

/-- The first of the longest runs of zeros: where it begins, and how long it is. -/
def longestZeros : List UInt16 → Nat × Nat
  | [] => (0, 0)
  | g :: rest =>
    let here := ((g :: rest).takeWhile (· == 0)).length
    let (start, length) := longestZeros rest
    if length ≤ here then (0, here) else (start + 1, length)

/-- Groups in hexadecimal, with colons between them. -/
def groupChars : List UInt16 → List Char
  | [] => []
  | [g] => Nat.toDigits 16 g.toNat
  | g :: rest => Nat.toDigits 16 g.toNat ++ ':' :: groupChars rest

/-- The IPv4 address whose octets are those of two groups. -/
def embedded (high low : UInt16) : Ipv4 :=
  ⟨(high >>> 8).toUInt8, high.toUInt8, (low >>> 8).toUInt8, low.toUInt8⟩

/-- The IPv4 address an address stands for. -/
def mapped? (ip : Ipv6) : Option Ipv4 :=
  match ip.groups.toList with
  | [0, 0, 0, 0, 0, 0xFFFF, high, low] => some (embedded high low)
  | _ => none

/-- The address as it is printed: a mapped address keeps its dotted end, and otherwise the longest
run of zero groups, if it has more than one, is written as two colons. -/
def chars (ip : Ipv6) : List Char :=
  match ip.mapped? with
  | some v4 => "::ffff:".toList ++ v4.chars
  | none =>
    let groups := ip.groups.toList
    let (start, length) := longestZeros groups
    if 1 < length then
      groupChars (groups.take start) ++ ':' :: ':' :: groupChars (groups.drop (start + length))
    else groupChars groups

/-! ## Reading -/

/-- The two groups that hold an IPv4 address. -/
def ofEmbedded (v4 : Ipv4) : List UInt16 :=
  [v4.a.toUInt16 <<< 8 ||| v4.b.toUInt16, v4.c.toUInt16 <<< 8 ||| v4.d.toUInt16]

/-- Takes the colon in front of a group off a text; the first group has none. -/
def readColon (first : Bool) (cs : List Char) : Option (List Char) :=
  if first then some cs else readMark ':' cs

/-- Groups that have been read. -/
structure GroupsRead where
  groups : List UInt16
  /-- Whether the last two of them were written as an IPv4 address. -/
  endsInIpv4 : Bool
  rest : List Char

/-- Takes groups off the front of a text, as many as there are but at most `limit`. -/
def readGroups (first : Bool) (cs : List Char) : Nat → GroupsRead
  | 0 => ⟨[], false, cs⟩
  | limit + 1 =>
    let v4 := if 0 < limit then (readColon first cs).bind Ipv4.read else none
    match v4 with
    | some (v4, rest) => ⟨ofEmbedded v4, true, rest⟩
    | none =>
      match (readColon first cs).bind (readNumber groupShape) with
      | none => ⟨[], false, cs⟩
      | some (g, rest) =>
        let more := readGroups false rest limit
        { more with groups := .ofNat g :: more.groups }

/-- The address of eight groups; `none` for any other number of them. -/
def ofGroups? (groups : List UInt16) : Option Ipv6 :=
  if h : groups.length = 8 then some ⟨⟨groups.toArray, h⟩⟩ else none

/-- Takes an address off the front of a text.  Two colons stand for at least one group. -/
def read (cs : List Char) : Option (Ipv6 × List Char) := do
  let head := readGroups true cs 8
  if head.groups.length = 8 then return (← ofGroups? head.groups, head.rest)
  if head.endsInIpv4 then none
  let rest ← readMark ':' (← readMark ':' head.rest)
  let tail := readGroups true rest (7 - head.groups.length)
  let zeros := List.replicate (8 - head.groups.length - tail.groups.length) 0
  return (← ofGroups? (head.groups ++ zeros ++ tail.groups), tail.rest)

end Ipv6

end VolumeBroker.Address
