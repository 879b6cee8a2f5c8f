import Portcullis.Packet
/-!
# Containment — when `isSupersetOf` is containment

On a well-formed `other`, an address or port field passes `isSupersetOf` exactly when it is contained or the arm asks
for something else and finds it (`slips`).  So the relation is sound between two matchers unless a field slips and all
others pass (`superset_sound_iff`), it is exact for a well-formed block or range (`superset_exact_block_range`), and the
one arm that looks at no family is the range against the range (`mixed_families_iff`).
-/
namespace Portcullis

/-! ## Addresses -/

/-- **An address field passes** when it slips or is contained. -/
theorem AddressMatcher.isSupersetOf_iff {m n : AddressMatcher} (hn : n.wellFormed = true) :
    m.isSupersetOf n = true ↔ m.slips n = true ∨ m.Contains n := by
  constructor
  · intro h
    cases ho : m.overreaches n with
    | true => exact Or.inl (by rw [slips_eq, h, ho, Bool.and_self])
    | false => exact Or.inr (fun _ hx => isSupersetOf_sound h ho hx)
  · rintro (hs | h)
    · rw [slips_eq, Bool.and_eq_true] at hs
      exact hs.1
    · obtain ⟨lo', hi', hsn⟩ := exists_span hn
      have hlo' := (matchesAddr_iff_between hsn lo').2 ⟨Nat.le_refl _, span_le hsn⟩
      obtain ⟨lo, hi, hsm⟩ := span_of_matchesAddr (h lo' hlo')
      exact (isSupersetOf_iff_span hsm hsn).2 (Or.inr ((contains_iff_span hsm hsn).1 h))

/-- **A slip is never containment** of a well-formed matcher. -/
theorem AddressMatcher.not_contains_of_slips {m n : AddressMatcher} (hn : n.wellFormed = true)
    (hs : m.slips n = true) : ¬ m.Contains n := by
  intro h
  obtain ⟨lo', hi', hsn⟩ := exists_span hn
  have hle := span_le hsn
  have hlo' := (matchesAddr_iff_between hsn lo').2 ⟨Nat.le_refl _, hle⟩
  obtain ⟨lo, hi, hsm⟩ := span_of_matchesAddr (h lo' hlo')
  obtain ⟨hlo, hhi⟩ := (contains_iff_span hsm hsn).1 h
  cases m with
  | any => cases n <;> cases hs
  | single a =>
    -- both ends of `n` are `a`
    obtain ⟨rfl, rfl⟩ := span_single_iff.1 hsm
    cases n with
    | any => cases hs
    | single b => cases hs
    | cidr a2 p2 =>
      simp only [slips, Bool.and_eq_true, bne_iff_ne] at hs
      have hp : p2 = a2.width := (bounds_eq_iff hsn).1 (by omega)
      exact hs.2 (hp.trans ((inCidr_iff_low a a2 p2).1 hs.1).1.symm)
    | range s2 e2 =>
      obtain ⟨-, rfl, rfl⟩ := span_range_iff.1 hsn
      simp only [slips, Bool.and_eq_true, bne_iff_ne] at hs
      exact hs.2 (IpAddr.ord_inj (by omega))
  | cidr a1 p1 => cases n <;> cases hs
  | range s1 e1 =>
    obtain ⟨⟨hf, -⟩, -⟩ := span_range_iff.1 hsm
    cases n <;> simp [slips, hf] at hs

/-- **`AddressMatcher::is_superset_of` is exact** for a well-formed block or range on the left. -/
theorem superset_exact_block_range {self other : AddressMatcher}
    (hkind : (∃ addr prefixLen, self = .cidr addr prefixLen) ∨ ∃ start end_, self = .range start end_)
    (hself : self.wellFormed = true) (hother : other.wellFormed = true) :
    self.isSupersetOf other = true ↔ ∀ a, other.matchesAddr a = true → self.matchesAddr a = true := by
  have hs : self.slips other = false := by
    rcases hkind with ⟨addr, prefixLen, rfl⟩ | ⟨start, end_, rfl⟩
    · cases other <;> rfl
    · simp only [AddressMatcher.wellFormed, Bool.and_eq_true] at hself
      cases other <;> simp [AddressMatcher.slips, hself.1]
  rw [AddressMatcher.isSupersetOf_iff hother, hs, Bool.false_eq_true, false_or]
  rfl

/-- `10.0.0.1/8` holds the addresses from `10.1.0.0` to `10.1.255.255`. -/
theorem superset_exact_block_range_ten :
    (AddressMatcher.cidr (.v4 0x0A000001) 8).isSupersetOf (.range (.v4 0x0A010000) (.v4 0x0A01FFFF)) = true ∧
      (AddressMatcher.cidr (.v4 0x0A000001) 8).matchesAddr (.v4 0x0A010203) = true := by
  have hsup : (AddressMatcher.cidr (.v4 0x0A000001) 8).isSupersetOf (.range (.v4 0x0A010000) (.v4 0x0A01FFFF)) = true := by
    decide
  exact ⟨hsup, (superset_exact_block_range (Or.inl ⟨_, _, rfl⟩) (by decide) (by decide)).1 hsup _ (by decide)⟩

/-! ## Families -/

def OneFamily (l : List IpAddr) : Prop := ∀ a ∈ l, ∀ b ∈ l, sameFamily a b = true

theorem oneFamily_of_width {l : List IpAddr} {w : UInt8} (h : ∀ a ∈ l, a.width = w) : OneFamily l :=
  fun a ha b hb => (sameFamily_iff_width a b).2 ((h a ha).trans (h b hb).symm)

theorem width_of_inRange {a s e : IpAddr} (h : inRange a s e = true) : s.width = a.width ∧ e.width = a.width := by
  simp only [inRange, Bool.and_eq_true, sameFamily_iff_width] at h
  exact ⟨h.1.1.1.symm, h.1.1.2.symm⟩

theorem width_of_inCidr {a net : IpAddr} {p : UInt8} (h : inCidr a net p = true) : net.width = a.width :=
  ((inCidr_iff_low a net p).1 h).1.symm

/-- Every arm but the range against the range compares the families. -/
theorem oneFamily_of_isSupersetOf {m n : AddressMatcher} (h : m.isSupersetOf n = true) (hm : m ≠ .any)
    (hr : ∀ s1 e1 s2 e2, ¬ (m = .range s1 e1 ∧ n = .range s2 e2)) : OneFamily (m.addresses ++ n.addresses) := by
  cases m with
  | any => exact absurd rfl hm
  | single a =>
    refine oneFamily_of_width (w := a.width) ?_
    cases n with
    | any => cases h
    | single b => simp_all [AddressMatcher.isSupersetOf, AddressMatcher.addresses]
    | cidr a2 p2 => simp [AddressMatcher.addresses, width_of_inCidr h]
    | range s2 e2 => simp [AddressMatcher.addresses, width_of_inRange h]
  | cidr a1 p1 =>
    refine oneFamily_of_width (w := a1.width) ?_
    cases n with
    | any => cases h
    | single b => simp [AddressMatcher.addresses, width_of_inCidr h]
    | cidr a2 p2 =>
      simp only [AddressMatcher.isSupersetOf, Bool.and_eq_true] at h
      simp [AddressMatcher.addresses, width_of_inCidr h.2]
    | range s2 e2 =>
      simp only [AddressMatcher.isSupersetOf, Bool.and_eq_true] at h
      simp [AddressMatcher.addresses, ← width_of_inCidr h.1, ← width_of_inCidr h.2]
  | range s1 e1 =>
    cases n with
    | any => cases h
    | single b =>
      refine oneFamily_of_width (w := b.width) ?_
      simp [AddressMatcher.addresses, width_of_inRange h]
    | cidr a2 p2 =>
      simp only [AddressMatcher.isSupersetOf] at h
      split at h
      · rename_i lo hi hb
        simp only [Bool.and_eq_true] at h
        refine oneFamily_of_width (w := a2.width) ?_
        simp [AddressMatcher.addresses, width_of_inRange h.1, (cidrBounds_low hb).2.1]
      · cases h
    | range s2 e2 => exact absurd ⟨rfl, rfl⟩ (hr s1 e1 s2 e2)

/-- Two ranges whose four ends are of both families, the first reaching around the second in `cmpAddr`'s order. -/
structure RangesAcross (m n : AddressMatcher) (s1 e1 s2 e2 : IpAddr) : Prop where
  left : m = .range s1 e1
  right : n = .range s2 e2
  mixed : ¬ OneFamily [s1, e1, s2, e2]
  start : (cmpAddr s2 s1).isGE = true
  end_ : (cmpAddr e2 e1).isLE = true

/-- **Mixed families are refused except between two ranges**, whose ends are compared across families. -/
theorem mixed_families_iff (self other : AddressMatcher) :
    (self ≠ .any → other ≠ .any → ¬ OneFamily (self.addresses ++ other.addresses) → self.isSupersetOf other = false) ↔
      ¬ ∃ s1 e1 s2 e2, RangesAcross self other s1 e1 s2 e2 := by
  constructor
  · rintro h ⟨s1, e1, s2, e2, rfl, rfl, hmixed, hstart, hend⟩
    have hfalse := h (by simp) (by simp) hmixed
    simp [AddressMatcher.isSupersetOf, hstart, hend] at hfalse
  · intro h hself _ hmixed
    rw [← Bool.not_eq_true]
    intro hsup
    refine hmixed (oneFamily_of_isSupersetOf hsup hself ?_)
    rintro s1 e1 s2 e2 ⟨rfl, rfl⟩
    simp only [AddressMatcher.isSupersetOf, Bool.and_eq_true] at hsup
    exact h ⟨s1, e1, s2, e2, rfl, rfl, hmixed, hsup.1, hsup.2⟩

/-- **A range from v4 to v6 is called a superset of a v4 range.** -/
theorem mixed_families_v4_to_v6 :
    ¬ (AddressMatcher.range (.v4 0) (.v6 1) ≠ .any → AddressMatcher.range (.v4 5) (.v4 9) ≠ .any →
      ¬ OneFamily ((AddressMatcher.range (.v4 0) (.v6 1)).addresses ++ (AddressMatcher.range (.v4 5) (.v4 9)).addresses) →
      (AddressMatcher.range (.v4 0) (.v6 1)).isSupersetOf (.range (.v4 5) (.v4 9)) = false) := by
  intro h
  have hmixed : ¬ OneFamily [.v4 0, .v6 1, .v4 5, .v4 9] := fun hf => by
    simpa [sameFamily, IpAddr.isIpv4] using hf (.v4 0) (by simp) (.v6 1) (by simp)
  exact absurd (h (by simp) (by simp) hmixed) (by decide)

/-! ## Ports -/

/-- As `PortRange::new` has it. -/
def PortMatcher.wellFormed : PortMatcher → Bool
  | .range r => decide (r.start ≤ r.end_)
  | _ => true

def PortMatcher.slips : PortMatcher → PortMatcher → Bool
  | .single a, .range r => decide (r.start ≤ a) && decide (a ≤ r.end_) && r.start != r.end_
  | _, _ => false

/-- Every port of `n` is one of `m`, the full range not standing for the wildcard. -/
def PortMatcher.Covers (m n : PortMatcher) : Prop :=
  m = .any ∨ (n ≠ .any ∧ ∀ x, n.matchesPort x = true → m.matchesPort x = true)

theorem PortMatcher.wellFormed_iff (m : PortMatcher) : m.wellFormed = true ↔ ∃ x, m.matchesPort x = true := by
  cases m with
  | any => simp [wellFormed, matchesPort]
  | single a => simp [wellFormed, matchesPort]
  | range r =>
    simp only [wellFormed, matchesPort, Bool.and_eq_true, decide_eq_true_eq]
    constructor
    · intro h
      exact ⟨r.start, UInt16.le_refl _, h⟩
    · rintro ⟨x, h, h'⟩
      exact UInt16.le_trans h h'

theorem PortMatcher.slips_eq (m n : PortMatcher) : m.slips n = (m.isSupersetOf n && m.overreaches n) := by
  cases m <;> cases n <;> simp only [slips, isSupersetOf, overreaches, Bool.and_false]

theorem PortMatcher.covers_of_isSupersetOf {m n : PortMatcher} (h : m.isSupersetOf n = true) (hs : m.slips n = false) :
    m.Covers n := by
  rw [slips_eq, h, Bool.true_and] at hs
  by_cases hn : n = .any
  · subst hn
    cases m with
    | any => exact Or.inl rfl
    | single a => cases h
    | range r => cases h
  · exact Or.inr ⟨hn, fun _ hx => isSupersetOf_sound h hs hx⟩

theorem PortMatcher.isSupersetOf_of_covers {m n : PortMatcher} (hn : n.wellFormed = true) (h : m.Covers n) :
    m.isSupersetOf n = true := by
  rcases h with rfl | ⟨hany, h⟩
  · rfl
  cases n with
  | any => exact absurd rfl hany
  | single b =>
    have hb := h b (by simp [matchesPort])
    cases m with
    | any => rfl
    | single a =>
      simp only [isSupersetOf, matchesPort, beq_iff_eq] at *
      exact hb.symm
    | range r => exact hb
  | range r =>
    simp only [wellFormed, decide_eq_true_eq] at hn
    have hstart := h r.start (by simp [matchesPort, hn])
    have hend := h r.end_ (by simp [matchesPort, hn])
    cases m with
    | any => rfl
    | single a =>
      simp only [matchesPort, beq_iff_eq] at hstart hend
      simp only [isSupersetOf, hstart, hend, UInt16.le_refl, decide_true, Bool.and_self]
    | range r1 =>
      simp only [matchesPort, Bool.and_eq_true, decide_eq_true_eq] at hstart hend
      simp [isSupersetOf, hstart.1, hend.2]

theorem PortMatcher.exists_of_slips {m n : PortMatcher} (hs : m.slips n = true) :
    ∃ x, n.matchesPort x = true ∧ ¬ m.matchesPort x = true := by
  cases m with
  | any => cases hs
  | range r => cases n <;> cases hs
  | single a =>
    cases n with
    | any => cases hs
    | single b => cases hs
    | range r =>
      simp only [slips, Bool.and_eq_true, decide_eq_true_eq, bne_iff_ne] at hs
      obtain ⟨⟨hstart, hend⟩, hne⟩ := hs
      have hle := UInt16.le_trans hstart hend
      simp only [matchesPort, Bool.and_eq_true, decide_eq_true_eq, beq_iff_eq]
      by_cases ha : r.start = a
      · exact ⟨r.end_, ⟨hle, UInt16.le_refl _⟩, fun he => hne (ha.trans he.symm)⟩
      · exact ⟨r.start, ⟨UInt16.le_refl _, hle⟩, ha⟩

/-- **A port field passes** when it slips or is covered. -/
theorem PortMatcher.isSupersetOf_iff {m n : PortMatcher} (hn : n.wellFormed = true) :
    m.isSupersetOf n = true ↔ m.slips n = true ∨ m.Covers n := by
  constructor
  · intro h
    cases hs : m.slips n with
    | true => exact Or.inl rfl
    | false => exact Or.inr (covers_of_isSupersetOf h hs)
  · rintro (hs | h)
    · rw [slips_eq, Bool.and_eq_true] at hs
      exact hs.1
    · exact isSupersetOf_of_covers hn h

/-! ## Matchers -/

def Matcher.wellFormed (m : Matcher) : Bool :=
  m.srcAddr.wellFormed && m.dstAddr.wellFormed && m.srcPort.wellFormed && m.dstPort.wellFormed

theorem Protocol.exists_matchesNumber (m : Protocol) : ∃ x, m.matchesNumber x = true := by
  cases h : m.ipNumber with
  | none => exact ⟨0, by simp [matchesNumber, h]⟩
  | some n => exact ⟨n, by simp [matchesNumber, h]⟩

theorem InterfaceMatcher.exists_matchesName (m : InterfaceMatcher) : ∃ x, m.matchesName x = true := by
  cases m with
  | any => exact ⟨"", rfl⟩
  | name n => exact ⟨n, by simp [matchesName]⟩

/-- **A matcher is well formed exactly when some packet satisfies it.** -/
theorem Matcher.wellFormed_iff (m : Matcher) : m.wellFormed = true ↔ ∃ p, m.matchesPacket p = true := by
  simp only [wellFormed, matchesPacket, Bool.and_eq_true, AddressMatcher.wellFormed_iff, PortMatcher.wellFormed_iff]
  constructor
  · rintro ⟨⟨⟨⟨a, ha⟩, b, hb⟩, s, hs⟩, d, hd⟩
    obtain ⟨n, hn⟩ := m.protocol.exists_matchesNumber
    obtain ⟨i, hi⟩ := m.inInterface.exists_matchesName
    obtain ⟨o, ho⟩ := m.outInterface.exists_matchesName
    exact ⟨⟨n, a, b, s, d, i, o⟩, ⟨⟨⟨⟨⟨⟨hn, ha⟩, hb⟩, hs⟩, hd⟩, hi⟩, ho⟩⟩
  · rintro ⟨p, ⟨⟨⟨⟨⟨⟨-, ha⟩, hb⟩, hs⟩, hd⟩, -⟩, -⟩⟩
    exact ⟨⟨⟨⟨_, ha⟩, _, hb⟩, _, hs⟩, _, hd⟩

theorem Protocol.allowsAll_iff (m n : Protocol) : m.allowsAll n = true ↔ m = .any ∨ m = n := by
  cases m <;> cases n <;> simp [allowsAll]

theorem InterfaceMatcher.isSupersetOf_iff (m n : InterfaceMatcher) : m.isSupersetOf n = true ↔ m = .any ∨ m = n := by
  cases m <;> cases n <;> simp [isSupersetOf]

/-- A well-formed `n` with a field that slips, and every other field contained in its own way: a protocol or an
interface the wildcard or the same, an address or port field slipping too or all of `n`'s. -/
structure Matcher.SlipsOver (m n : Matcher) : Prop where
  wellFormed : n.wellFormed = true
  slip : m.srcAddr.slips n.srcAddr = true ∨ m.dstAddr.slips n.dstAddr = true ∨
    m.srcPort.slips n.srcPort = true ∨ m.dstPort.slips n.dstPort = true
  protocol : m.protocol = .any ∨ m.protocol = n.protocol
  srcAddr : m.srcAddr.slips n.srcAddr = true ∨ m.srcAddr.Contains n.srcAddr
  dstAddr : m.dstAddr.slips n.dstAddr = true ∨ m.dstAddr.Contains n.dstAddr
  srcPort : m.srcPort.slips n.srcPort = true ∨ m.srcPort.Covers n.srcPort
  dstPort : m.dstPort.slips n.dstPort = true ∨ m.dstPort.Covers n.dstPort
  inInterface : m.inInterface = .any ∨ m.inInterface = n.inInterface
  outInterface : m.outInterface = .any ∨ m.outInterface = n.outInterface

theorem Matcher.slipsOver_of_overreaches {m n : Matcher} (h : m.isSupersetOf n = true) (hn : n.wellFormed = true)
    (ho : m.overreaches n = true) : m.SlipsOver n := by
  have hwf := hn
  simp only [wellFormed, isSupersetOf, Bool.and_eq_true] at hn h
  obtain ⟨⟨⟨w2, w3⟩, w4⟩, w5⟩ := hn
  obtain ⟨⟨⟨⟨⟨⟨h1, h2⟩, h3⟩, h4⟩, h5⟩, h6⟩, h7⟩ := h
  have hslip : m.srcAddr.slips n.srcAddr = true ∨ m.dstAddr.slips n.dstAddr = true ∨
      m.srcPort.slips n.srcPort = true ∨ m.dstPort.slips n.dstPort = true := by
    simp only [overreaches, Bool.or_eq_true, or_assoc] at ho
    simpa only [AddressMatcher.slips_eq, PortMatcher.slips_eq, h2, h3, h4, h5, Bool.true_and] using ho
  exact ⟨hwf, hslip, (Protocol.allowsAll_iff _ _).1 h1, (AddressMatcher.isSupersetOf_iff w2).1 h2,
    (AddressMatcher.isSupersetOf_iff w3).1 h3, (PortMatcher.isSupersetOf_iff w4).1 h4,
    (PortMatcher.isSupersetOf_iff w5).1 h5, (InterfaceMatcher.isSupersetOf_iff _ _).1 h6,
    (InterfaceMatcher.isSupersetOf_iff _ _).1 h7⟩

theorem Matcher.isSupersetOf_of_slipsOver {m n : Matcher} (h : m.SlipsOver n) : m.isSupersetOf n = true := by
  have hn := h.wellFormed
  simp only [wellFormed, Bool.and_eq_true] at hn
  obtain ⟨⟨⟨w2, w3⟩, w4⟩, w5⟩ := hn
  simp only [isSupersetOf, Bool.and_eq_true]
  exact ⟨⟨⟨⟨⟨⟨(Protocol.allowsAll_iff _ _).2 h.protocol, (AddressMatcher.isSupersetOf_iff w2).2 h.srcAddr⟩,
    (AddressMatcher.isSupersetOf_iff w3).2 h.dstAddr⟩, (PortMatcher.isSupersetOf_iff w4).2 h.srcPort⟩,
    (PortMatcher.isSupersetOf_iff w5).2 h.dstPort⟩, (InterfaceMatcher.isSupersetOf_iff _ _).2 h.inInterface⟩,
    (InterfaceMatcher.isSupersetOf_iff _ _).2 h.outInterface⟩

theorem AddressMatcher.exists_of_slips {m n : AddressMatcher} (hn : n.wellFormed = true) (hs : m.slips n = true) :
    ∃ x, n.matchesAddr x = true ∧ ¬ m.matchesAddr x = true := by
  obtain ⟨x, hx⟩ := Classical.not_forall.1 (not_contains_of_slips hn hs)
  exact ⟨x, Classical.not_imp.1 hx⟩

/-- **A slip lets a packet through**: one that satisfies `n` and not `m`. -/
theorem Matcher.exists_packet_of_slipsOver {m n : Matcher} (h : m.SlipsOver n) :
    ∃ p, n.matchesPacket p = true ∧ ¬ m.matchesPacket p = true := by
  obtain ⟨p, hp⟩ := (wellFormed_iff n).1 h.wellFormed
  have hn := h.wellFormed
  simp only [wellFormed, Bool.and_eq_true] at hn
  obtain ⟨⟨⟨w2, w3⟩, -⟩, -⟩ := hn
  simp only [matchesPacket, Bool.and_eq_true] at *
  obtain ⟨⟨⟨⟨⟨⟨p1, p2⟩, p3⟩, p4⟩, p5⟩, p6⟩, p7⟩ := hp
  -- the packet is changed in the field that slips
  rcases h.slip with hs | hs | hs | hs
  · obtain ⟨x, hx, hno⟩ := AddressMatcher.exists_of_slips w2 hs
    exact ⟨{ p with srcAddr := x }, ⟨⟨⟨⟨⟨⟨p1, hx⟩, p3⟩, p4⟩, p5⟩, p6⟩, p7⟩, fun hm => hno hm.1.1.1.1.1.2⟩
  · obtain ⟨x, hx, hno⟩ := AddressMatcher.exists_of_slips w3 hs
    exact ⟨{ p with dstAddr := x }, ⟨⟨⟨⟨⟨⟨p1, p2⟩, hx⟩, p4⟩, p5⟩, p6⟩, p7⟩, fun hm => hno hm.1.1.1.1.2⟩
  · obtain ⟨x, hx, hno⟩ := PortMatcher.exists_of_slips hs
    exact ⟨{ p with srcPort := x }, ⟨⟨⟨⟨⟨⟨p1, p2⟩, p3⟩, hx⟩, p5⟩, p6⟩, p7⟩, fun hm => hno hm.1.1.1.2⟩
  · obtain ⟨x, hx, hno⟩ := PortMatcher.exists_of_slips hs
    exact ⟨{ p with dstPort := x }, ⟨⟨⟨⟨⟨⟨p1, p2⟩, p3⟩, p4⟩, hx⟩, p6⟩, p7⟩, fun hm => hno hm.1.1.2⟩

/-- **`Matcher::is_superset_of` is sound between two matchers** unless one slips over the other. -/
theorem superset_sound_iff (self other : Matcher) :
    (self.isSupersetOf other = true → ∀ p, other.matchesPacket p = true → self.matchesPacket p = true) ↔
      ¬ self.SlipsOver other := by
  constructor
  · intro hsound hslips
    obtain ⟨p, hp, hno⟩ := Matcher.exists_packet_of_slipsOver hslips
    exact hno (hsound (Matcher.isSupersetOf_of_slipsOver hslips) p hp)
  · intro hnot hsup p hp
    cases ho : self.overreaches other with
    | false => exact Matcher.isSupersetOf_sound hsup ho hp
    | true =>
      exact absurd (Matcher.slipsOver_of_overreaches hsup ((Matcher.wellFormed_iff other).2 ⟨p, hp⟩) ho) hnot

/-- **Port 22 is called a superset of the ports from 20 to 30**, and does not match port 25. -/
theorem not_superset_sound_port :
    ¬ (({ dstPort := .single 22 } : Matcher).isSupersetOf { dstPort := .range ⟨20, 30⟩ } = true →
      ∀ p, ({ dstPort := .range ⟨20, 30⟩ } : Matcher).matchesPacket p = true →
        ({ dstPort := .single 22 } : Matcher).matchesPacket p = true) := by
  intro h
  exact absurd (h (by decide) ⟨6, .v4 1, .v4 2, 1000, 25, "wan0", "lan0"⟩ (by decide)) (by decide)

end Portcullis
