import Mathlib.Data.Nat.Notation
/-!
# Matcher — the `Matcher` vocabulary (`matcher.rs`)

Protocol, address, port and interface matchers, with the two relations the lint pass reads off them:
`isSupersetOf` and `overlaps`, arm by arm as the source has them.  Addresses are 32- and 128-bit words
(`u32::from`, `u128::from`), ports and prefix lengths the source's own fixed-width integers.
-/
namespace Portcullis

inductive Protocol where
  | any
  | tcp
  | udp
  | icmp
  | icmpv6
  | number (n : UInt8)
  deriving DecidableEq, Repr

/-- `std::net::IpAddr`, by its numeric value. -/
inductive IpAddr where
  | v4 (a : BitVec 32)
  | v6 (a : BitVec 128)
  deriving DecidableEq, Repr

inductive AddressMatcher where
  | any
  | single (a : IpAddr)
  | cidr (addr : IpAddr) (prefixLen : UInt8)
  | range (start end_ : IpAddr)
  deriving DecidableEq, Repr

structure PortRange where
  start : UInt16
  end_ : UInt16
  deriving DecidableEq, Repr

inductive PortMatcher where
  | any
  | single (p : UInt16)
  | range (r : PortRange)
  deriving DecidableEq, Repr

inductive InterfaceMatcher where
  | any
  | name (n : String)
  deriving DecidableEq, Repr

/-- Conditions a packet must satisfy for a rule to fire: all fields are AND-ed, `any` is the wildcard every
field defaults to. -/
structure Matcher where
  protocol : Protocol := .any
  srcAddr : AddressMatcher := .any
  dstAddr : AddressMatcher := .any
  srcPort : PortMatcher := .any
  dstPort : PortMatcher := .any
  inInterface : InterfaceMatcher := .any
  outInterface : InterfaceMatcher := .any
  deriving DecidableEq, Repr

def Matcher.any : Matcher := {}

/-! ## Addresses -/

def IpAddr.isIpv4 : IpAddr → Bool
  | .v4 _ => true
  | .v6 _ => false

def sameFamily (a b : IpAddr) : Bool := a.isIpv4 == b.isIpv4

/-- Order two addresses; different families compare v4 below v6. -/
def cmpAddr : IpAddr → IpAddr → Ordering
  | .v4 x, .v4 y => compare x.toNat y.toNat
  | .v6 x, .v6 y => compare x.toNat y.toNat
  | .v4 _, .v6 _ => .lt
  | .v6 _, .v4 _ => .gt

def inRange (a start end_ : IpAddr) : Bool :=
  sameFamily a start && sameFamily a end_ && (cmpAddr a start).isGE && (cmpAddr a end_).isLE

/-- The mask of a prefix length on a `w`-bit word, `width` being `w` as the source's `u8`: the expression both
families of `in_cidr` and `cidr_bounds` write out, `width - prefix` in `u8` arithmetic. -/
def cidrMask (w : Nat) (width prefixLen : UInt8) : BitVec w :=
  if prefixLen = 0 then 0 else BitVec.allOnes w <<< (width - prefixLen).toNat

def inCidr (a net : IpAddr) (prefixLen : UInt8) : Bool :=
  match a, net with
  | .v4 a, .v4 n =>
    if prefixLen > 32 then false
    else (a &&& cidrMask 32 32 prefixLen) == (n &&& cidrMask 32 32 prefixLen)
  | .v6 a, .v6 n =>
    if prefixLen > 128 then false
    else (a &&& cidrMask 128 128 prefixLen) == (n &&& cidrMask 128 128 prefixLen)
  | _, _ => false

def cidrBounds (net : IpAddr) (prefixLen : UInt8) : Option (IpAddr × IpAddr) :=
  match net with
  | .v4 n =>
    if prefixLen > 32 then none
    else
      let mask := cidrMask 32 32 prefixLen
      let base := n &&& mask
      let broadcast := base ||| ~~~mask
      some (.v4 base, .v4 broadcast)
  | .v6 n =>
    if prefixLen > 128 then none
    else
      let mask := cidrMask 128 128 prefixLen
      let base := n &&& mask
      let broadcast := base ||| ~~~mask
      some (.v6 base, .v6 broadcast)

/-- The addresses that appear in a matcher. -/
def AddressMatcher.addresses : AddressMatcher → List IpAddr
  | .any => []
  | .single a => [a]
  | .cidr addr _ => [addr]
  | .range start end_ => [start, end_]

def AddressMatcher.isSupersetOf : AddressMatcher → AddressMatcher → Bool
  | .any, _ => true
  | .single a, .single b => a == b
  | .single a, .range start end_ => inRange a start end_
  | .single a, .cidr addr prefixLen => inCidr a addr prefixLen
  | .cidr a1 p1, .cidr a2 p2 => decide (p1 ≤ p2) && inCidr a2 a1 p1
  | .cidr addr prefixLen, .single a => inCidr a addr prefixLen
  | .cidr addr prefixLen, .range start end_ => inCidr start addr prefixLen && inCidr end_ addr prefixLen
  | .range s1 e1, .range s2 e2 => (cmpAddr s2 s1).isGE && (cmpAddr e2 e1).isLE
  | .range start end_, .single a => inRange a start end_
  | .range start end_, .cidr addr prefixLen =>
    match cidrBounds addr prefixLen with
    | some (lo, hi) => inRange lo start end_ && inRange hi start end_
    | none => false
  | .single _, .any => false
  | .cidr _ _, .any => false
  | .range _ _, .any => false

def AddressMatcher.overlaps : AddressMatcher → AddressMatcher → Bool
  | .any, _ => true
  | _, .any => true
  | .single a, .single b => a == b
  | .single a, .range start end_ => inRange a start end_
  | .range start end_, .single a => inRange a start end_
  | .single a, .cidr addr prefixLen => inCidr a addr prefixLen
  | .cidr addr prefixLen, .single a => inCidr a addr prefixLen
  | .cidr a1 p1, .cidr a2 p2 =>
    (AddressMatcher.cidr a1 p1).isSupersetOf (.cidr a2 p2) || (AddressMatcher.cidr a2 p2).isSupersetOf (.cidr a1 p1)
  | .range s1 e1, .range s2 e2 => (cmpAddr s1 e2).isLE && (cmpAddr s2 e1).isLE
  | .cidr addr prefixLen, .range start end_ =>
    match cidrBounds addr prefixLen with
    | some (lo, hi) => (cmpAddr lo end_).isLE && (cmpAddr start hi).isLE
    | none => false
  | .range start end_, .cidr addr prefixLen =>
    match cidrBounds addr prefixLen with
    | some (lo, hi) => (cmpAddr lo end_).isLE && (cmpAddr start hi).isLE
    | none => false

/-! ## Ports, interfaces, protocols -/

def PortRange.new (start end_ : UInt16) : Option PortRange :=
  if start ≤ end_ then some ⟨start, end_⟩ else none

def PortMatcher.isSupersetOf : PortMatcher → PortMatcher → Bool
  | .any, _ => true
  | .single a, .single b => a == b
  | .single a, .range r => decide (r.start ≤ a) && decide (a ≤ r.end_)
  | .range r1, .range r2 => decide (r1.start ≤ r2.start) && decide (r2.end_ ≤ r1.end_)
  | .range r, .single a => decide (r.start ≤ a) && decide (a ≤ r.end_)
  | .single _, .any => false
  | .range _, .any => false

def PortMatcher.overlaps : PortMatcher → PortMatcher → Bool
  | .any, _ => true
  | _, .any => true
  | .single a, .single b => a == b
  | .single a, .range r => decide (r.start ≤ a) && decide (a ≤ r.end_)
  | .range r, .single a => decide (r.start ≤ a) && decide (a ≤ r.end_)
  | .range r1, .range r2 => decide (r1.start ≤ r2.end_) && decide (r2.start ≤ r1.end_)

def InterfaceMatcher.isSupersetOf : InterfaceMatcher → InterfaceMatcher → Bool
  | .any, _ => true
  | .name a, .name b => a == b
  | .name _, .any => false

def InterfaceMatcher.overlaps : InterfaceMatcher → InterfaceMatcher → Bool
  | .any, _ => true
  | _, .any => true
  | .name a, .name b => a == b

def Protocol.allowsAll : Protocol → Protocol → Bool
  | .any, _ => true
  | .number _, .any => false
  | a, b => a == b

/-- `Protocol::overlaps`: constructors are compared, so `tcp` and `number 6` do not overlap. -/
def Protocol.overlaps : Protocol → Protocol → Bool
  | .any, _ => true
  | _, .any => true
  | a, b => a == b

/-! ## Matchers -/

def Matcher.isSupersetOf (self other : Matcher) : Bool :=
  self.protocol.allowsAll other.protocol &&
  self.srcAddr.isSupersetOf other.srcAddr &&
  self.dstAddr.isSupersetOf other.dstAddr &&
  self.srcPort.isSupersetOf other.srcPort &&
  self.dstPort.isSupersetOf other.dstPort &&
  self.inInterface.isSupersetOf other.inInterface &&
  self.outInterface.isSupersetOf other.outInterface

def Matcher.overlaps (self other : Matcher) : Bool :=
  self.protocol.overlaps other.protocol &&
  self.srcAddr.overlaps other.srcAddr &&
  self.dstAddr.overlaps other.dstAddr &&
  self.srcPort.overlaps other.srcPort &&
  self.dstPort.overlaps other.dstPort &&
  self.inInterface.overlaps other.inInterface &&
  self.outInterface.overlaps other.outInterface

end Portcullis
