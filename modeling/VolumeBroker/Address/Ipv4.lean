import VolumeBroker.Address.Number

/-!
# IPv4 addresses

Four numbers below 256, in decimal, with points between them and no superfluous zeros.
-/

set_option autoImplicit false

namespace VolumeBroker.Address

/-- An IPv4 address. -/
structure Ipv4 where
  a : UInt8
  b : UInt8
  c : UInt8
  d : UInt8
  deriving DecidableEq, Repr, Inhabited

namespace Ipv4

/-- The address in dotted decimal. -/
def chars (ip : Ipv4) : List Char :=
  Nat.toDigits 10 ip.a.toNat ++ '.' :: Nat.toDigits 10 ip.b.toNat ++
    '.' :: Nat.toDigits 10 ip.c.toNat ++ '.' :: Nat.toDigits 10 ip.d.toNat

/-- Takes an address off the front of a text. -/
def read (cs : List Char) : Option (Ipv4 × List Char) := do
  let (a, cs) ← readNumber octetShape cs
  let (b, cs) ← readNumber octetShape (← readMark '.' cs)
  let (c, cs) ← readNumber octetShape (← readMark '.' cs)
  let (d, cs) ← readNumber octetShape (← readMark '.' cs)
  return (⟨.ofNat a, .ofNat b, .ofNat c, .ofNat d⟩, cs)

end Ipv4

end VolumeBroker.Address
