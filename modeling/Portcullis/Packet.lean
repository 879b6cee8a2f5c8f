import Portcullis.Spans
/-!
# Packet — what a matcher matches

The meaning `Matcher` documents: a packet fits when every field fits.  Against it `isSupersetOf` is containment except
on the arms `overreaches` names (`Matcher.isSupersetOf_sound`), and `overlaps` misses no common packet except between
two spellings of one protocol (`Matcher.overlaps_of_common`).
-/
namespace Portcullis

def Protocol.ipNumber : Protocol → Option UInt8
  | .any => none
  | .tcp => some 6
  | .udp => some 17
  | .icmp => some 1
  | .icmpv6 => some 58
  | .number n => some n

def Protocol.matchesNumber (m : Protocol) (n : UInt8) : Bool :=
  match m.ipNumber with
  | none => true
  | some k => n == k

def PortMatcher.matchesPort (m : PortMatcher) (p : UInt16) : Bool :=
  match m with
  | .any => true
  | .single q => p == q
  | .range r => decide (r.start ≤ p) && decide (p ≤ r.end_)

def InterfaceMatcher.matchesName (m : InterfaceMatcher) (s : String) : Bool :=
  match m with
  | .any => true
  | .name n => s == n

structure Packet where
  protocol : UInt8
  srcAddr : IpAddr
  dstAddr : IpAddr
  srcPort : UInt16
  dstPort : UInt16
  inInterface : String
  outInterface : String
  deriving DecidableEq, Repr

def Matcher.matchesPacket (m : Matcher) (p : Packet) : Bool :=
  m.protocol.matchesNumber p.protocol &&
  m.srcAddr.matchesAddr p.srcAddr &&
  m.dstAddr.matchesAddr p.dstAddr &&
  m.srcPort.matchesPort p.srcPort &&
  m.dstPort.matchesPort p.dstPort &&
  m.inInterface.matchesName p.inInterface &&
  m.outInterface.matchesName p.outInterface

/-! ## Containment -/

def PortMatcher.overreaches : PortMatcher → PortMatcher → Bool
  | .single _, .range r => r.start != r.end_
  | _, _ => false

def Matcher.overreaches (self other : Matcher) : Bool :=
  self.srcAddr.overreaches other.srcAddr || self.dstAddr.overreaches other.dstAddr ||
  self.srcPort.overreaches other.srcPort || self.dstPort.overreaches other.dstPort

theorem PortMatcher.isSupersetOf_sound {m n : PortMatcher} (h : m.isSupersetOf n = true)
    (ho : m.overreaches n = false) {x : UInt16} (hx : n.matchesPort x = true) : m.matchesPort x = true := by
  cases m <;> cases n <;>
    simp only [isSupersetOf, overreaches, matchesPort, Bool.and_eq_true, decide_eq_true_eq, beq_iff_eq,
      bne_eq_false_iff_eq, Bool.false_eq_true] at * <;> grind

theorem InterfaceMatcher.isSupersetOf_sound {m n : InterfaceMatcher} (h : m.isSupersetOf n = true)
    {x : String} (hx : n.matchesName x = true) : m.matchesName x = true := by
  cases m <;> cases n <;> simp_all [isSupersetOf, matchesName]

theorem Protocol.allowsAll_sound {m n : Protocol} (h : m.allowsAll n = true) {x : UInt8}
    (hx : n.matchesNumber x = true) : m.matchesNumber x = true := by
  cases m <;> cases n <;> simp_all [allowsAll, matchesNumber, ipNumber]

/-- **`Matcher.isSupersetOf` is containment** off the overreaching arms. -/
theorem Matcher.isSupersetOf_sound {m n : Matcher} (h : m.isSupersetOf n = true) (ho : m.overreaches n = false)
    {p : Packet} (hp : n.matchesPacket p = true) : m.matchesPacket p = true := by
  simp only [isSupersetOf, overreaches, matchesPacket, Bool.and_eq_true, Bool.or_eq_false_iff] at *
  obtain ⟨⟨⟨⟨⟨⟨h1, h2⟩, h3⟩, h4⟩, h5⟩, h6⟩, h7⟩ := h
  obtain ⟨⟨⟨o2, o3⟩, o4⟩, o5⟩ := ho
  obtain ⟨⟨⟨⟨⟨⟨p1, p2⟩, p3⟩, p4⟩, p5⟩, p6⟩, p7⟩ := hp
  exact ⟨⟨⟨⟨⟨⟨Protocol.allowsAll_sound h1 p1, AddressMatcher.isSupersetOf_sound h2 o2 p2⟩,
    AddressMatcher.isSupersetOf_sound h3 o3 p3⟩, PortMatcher.isSupersetOf_sound h4 o4 p4⟩,
    PortMatcher.isSupersetOf_sound h5 o5 p5⟩, InterfaceMatcher.isSupersetOf_sound h6 p6⟩,
    InterfaceMatcher.isSupersetOf_sound h7 p7⟩

/-! ## Common packets -/

/-- Two protocol matchers name one number in two ways: `tcp` and `number 6`. -/
def Protocol.respells (a b : Protocol) : Bool := a.ipNumber.isSome && a.ipNumber == b.ipNumber && a != b

theorem Protocol.overlaps_of_common {m n : Protocol} (hr : m.respells n = false) {x : UInt8}
    (hm : m.matchesNumber x = true) (hn : n.matchesNumber x = true) : m.overlaps n = true := by
  cases m <;> cases n <;> simp_all [overlaps, matchesNumber, ipNumber, respells]

theorem PortMatcher.overlaps_of_common {m n : PortMatcher} {x : UInt16} (hm : m.matchesPort x = true)
    (hn : n.matchesPort x = true) : m.overlaps n = true := by
  cases m <;> cases n <;>
    simp only [overlaps, matchesPort, Bool.and_eq_true, decide_eq_true_eq, beq_iff_eq] at * <;> grind

theorem InterfaceMatcher.overlaps_of_common {m n : InterfaceMatcher} {x : String} (hm : m.matchesName x = true)
    (hn : n.matchesName x = true) : m.overlaps n = true := by
  cases m <;> cases n <;> simp_all [overlaps, matchesName]

/-- **`Matcher.overlaps` misses no common packet**, between matchers that spell no protocol in two ways. -/
theorem Matcher.overlaps_of_common {m n : Matcher} (hr : m.protocol.respells n.protocol = false) {p : Packet}
    (hm : m.matchesPacket p = true) (hn : n.matchesPacket p = true) : m.overlaps n = true := by
  simp only [matchesPacket, Bool.and_eq_true] at hm hn
  obtain ⟨⟨⟨⟨⟨⟨m1, m2⟩, m3⟩, m4⟩, m5⟩, m6⟩, m7⟩ := hm
  obtain ⟨⟨⟨⟨⟨⟨n1, n2⟩, n3⟩, n4⟩, n5⟩, n6⟩, n7⟩ := hn
  simp only [overlaps, Bool.and_eq_true]
  exact ⟨⟨⟨⟨⟨⟨Protocol.overlaps_of_common hr m1 n1, AddressMatcher.overlaps_of_common m2 n2⟩,
    AddressMatcher.overlaps_of_common m3 n3⟩, PortMatcher.overlaps_of_common m4 n4⟩,
    PortMatcher.overlaps_of_common m5 n5⟩, InterfaceMatcher.overlaps_of_common m6 n6⟩,
    InterfaceMatcher.overlaps_of_common m7 n7⟩

end Portcullis
