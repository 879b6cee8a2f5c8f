import Portcullis.Containment
import Portcullis.Findings
/-!
# Overlap — when `overlaps` is a common packet

On well-formed address matchers `overlaps` is a common address (`overlaps_exact_addresses`).  Between matchers it is
symmetric and follows from `isSupersetOf` wherever a packet is there to be shared, so the two relations the lint pass
uses never disagree on a pair it calls dead (`superset_overlap_agree`).  It misses a common packet only where one
protocol number is spelled in two ways (`common_packet_overlaps_iff`).
-/
namespace Portcullis

/-! ## Symmetry -/

theorem AddressMatcher.overlaps_symm (m n : AddressMatcher) : m.overlaps n = n.overlaps m := by
  cases m with
  | any => cases n <;> rfl
  | single a =>
    cases n with
    | single b => exact BEq.comm
    | any => rfl
    | cidr addr p => rfl
    | range s e => rfl
  | cidr a1 p1 =>
    cases n with
    | cidr a2 p2 => exact Bool.or_comm _ _
    | any => rfl
    | single b => rfl
    | range s e => rfl
  | range s1 e1 =>
    cases n with
    | range s2 e2 => exact Bool.and_comm _ _
    | any => rfl
    | single b => rfl
    | cidr addr p => rfl

theorem PortMatcher.overlaps_symm (m n : PortMatcher) : m.overlaps n = n.overlaps m := by
  cases m with
  | any => cases n <;> rfl
  | single a =>
    cases n with
    | single b => exact BEq.comm
    | any => rfl
    | range r => rfl
  | range r =>
    cases n with
    | range r' => exact Bool.and_comm _ _
    | any => rfl
    | single b => rfl

theorem InterfaceMatcher.overlaps_symm (m n : InterfaceMatcher) : m.overlaps n = n.overlaps m := by
  cases m <;> cases n <;> first | rfl | exact BEq.comm

theorem Protocol.overlaps_iff (m n : Protocol) : m.overlaps n = true ↔ m = .any ∨ n = .any ∨ m = n := by
  cases m <;> cases n <;> simp [overlaps]

theorem Protocol.overlaps_symm (m n : Protocol) : m.overlaps n = n.overlaps m := by
  rw [Bool.eq_iff_iff, overlaps_iff, overlaps_iff]
  grind

theorem Matcher.overlaps_symm (m n : Matcher) : m.overlaps n = n.overlaps m := by
  rw [overlaps, overlaps, Protocol.overlaps_symm, AddressMatcher.overlaps_symm m.srcAddr,
    AddressMatcher.overlaps_symm m.dstAddr, PortMatcher.overlaps_symm m.srcPort, PortMatcher.overlaps_symm m.dstPort,
    InterfaceMatcher.overlaps_symm m.inInterface, InterfaceMatcher.overlaps_symm m.outInterface]

/-! ## Addresses -/

/-- **`AddressMatcher::overlaps` is a common address** between well-formed matchers. -/
theorem overlaps_exact_addresses {m n : AddressMatcher} (hm : m.wellFormed = true) (hn : n.wellFormed = true) :
    m.overlaps n = true ↔ ∃ a, m.matchesAddr a = true ∧ n.matchesAddr a = true := by
  obtain ⟨lo, hi, hsm⟩ := AddressMatcher.exists_span hm
  obtain ⟨lo', hi', hsn⟩ := AddressMatcher.exists_span hn
  rw [AddressMatcher.overlaps_iff_span hsm hsn, exists_common_iff_span hsm hsn]

/-- `10.0.0.1/8` and the addresses from `9.0.0.0` to `10.0.0.0` share one. -/
theorem overlaps_exact_addresses_ten :
    ∃ a, (AddressMatcher.cidr (.v4 0x0A000001) 8).matchesAddr a = true ∧
      (AddressMatcher.range (.v4 0x09000000) (.v4 0x0A000000)).matchesAddr a = true :=
  (overlaps_exact_addresses (by decide) (by decide)).1 (by decide)

/-! ## Supersets overlap -/

theorem AddressMatcher.overlaps_of_isSupersetOf {m n : AddressMatcher} (hn : n.wellFormed = true)
    (h : m.isSupersetOf n = true) : m.overlaps n = true := by
  rcases (isSupersetOf_iff hn).1 h with hs | hc
  · -- the arms that slip ask the same of the pair, or compare ends in order
    cases m with
    | any => rfl
    | single a => cases n <;> first | exact h | rfl
    | cidr a1 p1 => cases n <;> cases hs
    | range s1 e1 =>
      cases n with
      | any => rfl
      | single b => exact h
      | cidr a2 p2 => cases hs
      | range s2 e2 =>
        simp only [isSupersetOf, overlaps, wellFormed, Bool.and_eq_true, cmpAddr_isGE, cmpAddr_isLE] at *
        omega
  · obtain ⟨x, hx⟩ := (wellFormed_iff n).1 hn
    exact overlaps_of_common (hc x hx) hx

theorem PortMatcher.overlaps_of_isSupersetOf {m n : PortMatcher} (hn : n.wellFormed = true)
    (h : m.isSupersetOf n = true) : m.overlaps n = true := by
  cases hs : m.slips n with
  | false =>
    rw [slips_eq, h, Bool.true_and] at hs
    obtain ⟨x, hx⟩ := (wellFormed_iff n).1 hn
    exact overlaps_of_common (isSupersetOf_sound h hs hx) hx
  | true =>
    cases m with
    | any => rfl
    | single a => cases n <;> first | exact h | rfl
    | range r => cases n <;> cases hs

theorem Protocol.overlaps_of_allowsAll {m n : Protocol} (h : m.allowsAll n = true) : m.overlaps n = true := by
  rw [allowsAll_iff] at h
  rw [overlaps_iff]
  exact h.imp_right Or.inr

theorem InterfaceMatcher.overlaps_of_isSupersetOf {m n : InterfaceMatcher} (h : m.isSupersetOf n = true) :
    m.overlaps n = true := by
  rcases (isSupersetOf_iff m n).1 h with rfl | rfl
  · rfl
  · cases m <;> simp [overlaps]

/-- **What passes for a superset overlaps**, when the smaller matcher matches a packet. -/
theorem Matcher.overlaps_of_isSupersetOf {m n : Matcher} (hn : n.wellFormed = true) (h : m.isSupersetOf n = true) :
    m.overlaps n = true := by
  simp only [wellFormed, isSupersetOf, overlaps, Bool.and_eq_true] at *
  obtain ⟨⟨⟨w2, w3⟩, w4⟩, w5⟩ := hn
  obtain ⟨⟨⟨⟨⟨⟨h1, h2⟩, h3⟩, h4⟩, h5⟩, h6⟩, h7⟩ := h
  exact ⟨⟨⟨⟨⟨⟨Protocol.overlaps_of_allowsAll h1, AddressMatcher.overlaps_of_isSupersetOf w2 h2⟩,
    AddressMatcher.overlaps_of_isSupersetOf w3 h3⟩, PortMatcher.overlaps_of_isSupersetOf w4 h4⟩,
    PortMatcher.overlaps_of_isSupersetOf w5 h5⟩, InterfaceMatcher.overlaps_of_isSupersetOf h6⟩,
    InterfaceMatcher.overlaps_of_isSupersetOf h7⟩

theorem exists_spots_of_dead {rs : Ruleset} {i : LintIssue} (hi : i ∈ issuesOf (verify rs)) (hdead : i.isDead = true) :
    ∃ c ∈ rs.chains, ∃ y x, (y, x) ∈ deadSpots c.rules.zipIdx ∧ i = deadIssue c.name y.1 x.1 := by
  have hmem : i ∈ (issuesOf (verify rs)).filter LintIssue.isDead := List.mem_filter.2 ⟨hi, hdead⟩
  rw [filter_isDead_verify, List.mem_flatMap] at hmem
  obtain ⟨c, hc, hic⟩ := hmem
  have hspots := deadFrom_evalOrder c.name c.rules.zipIdx
  rw [List.zipIdx_map_fst] at hspots
  rw [filter_isDead_lintChain, hspots] at hic
  obtain ⟨⟨y, x⟩, hyx, rfl⟩ := List.mem_map.1 hic
  exact ⟨c, hc, y, x, hyx, rfl⟩

/-- **Superset and overlap agree**, and so do the two lint passes that use them on a pair of one priority. -/
theorem superset_overlap_agree :
    (∀ self other : Matcher, self.overlaps other = other.overlaps self) ∧
    (∀ self other : Matcher, self.isSupersetOf other = true → (∃ p, other.matchesPacket p = true) →
      self.overlaps other = true) ∧
    ∀ (rs : Ruleset) (i : LintIssue), i ∈ issuesOf (verify rs) → i.isDead = true →
      ∃ c ∈ rs.chains, ∃ y x, x ∈ c.rules.zipIdx ∧ EarliestKiller c.rules y x ∧ NamesDead c y x i ∧
        (y.1.priority = x.1.priority → (∃ p, x.1.matcher.matchesPacket p = true) →
          y.1.matcher.overlaps x.1.matcher = true ∧ x.1.matcher.overlaps y.1.matcher = true) := by
  refine ⟨Matcher.overlaps_symm, fun m n h hp => ?_, fun rs i hi hdead => ?_⟩
  · exact Matcher.overlaps_of_isSupersetOf ((Matcher.wellFormed_iff n).2 hp) h
  · obtain ⟨c, hc, y, x, hyx, rfl⟩ := exists_spots_of_dead hi hdead
    have hkiller := (deadSpots_spec c.rules).killer y x hyx
    have hx := ((deadSpots_spec c.rules).dead_iff x).1 (List.mem_map.2 ⟨(y, x), hyx, rfl⟩)
    refine ⟨c, hc, y, x, hx.1, hkiller, ⟨rfl, rfl, rfl, deadIssue_kind _ _ _⟩, fun _ hp => ?_⟩
    have hsup : y.1.matcher.isSupersetOf x.1.matcher = true := hkiller.superset
    have hover := Matcher.overlaps_of_isSupersetOf ((Matcher.wellFormed_iff _).2 hp) hsup
    exact ⟨hover, Matcher.overlaps_symm _ _ ▸ hover⟩

/-- Port 22 overlaps the ports from 20 to 30 that it is called a superset of. -/
theorem superset_overlap_agree_port :
    ({ dstPort := .single 22 } : Matcher).overlaps { dstPort := .range ⟨20, 30⟩ } = true :=
  superset_overlap_agree.2.1 _ _ (by decide) ⟨tcpTo 25, by decide⟩

/-! ## Common packets -/

theorem Matcher.overlaps_eq_false_of_respells {m n : Matcher} (hr : m.protocol.respells n.protocol = true) :
    m.overlaps n = false := by
  have hproto : m.protocol.overlaps n.protocol = false := by
    cases hm : m.protocol <;> cases hn : n.protocol <;> simp_all [Protocol.respells, Protocol.overlaps, Protocol.ipNumber]
  simp only [overlaps, hproto, Bool.false_and]

/-- **`Matcher::overlaps` misses no common packet** exactly when no packet is shared under two spellings of one
protocol. -/
theorem common_packet_overlaps_iff (self other : Matcher) :
    (∀ p, self.matchesPacket p = true → other.matchesPacket p = true →
      self.overlaps other = true ∧ other.overlaps self = true) ↔
    (self.protocol.respells other.protocol = true →
      ∀ p, ¬ (self.matchesPacket p = true ∧ other.matchesPacket p = true)) := by
  constructor
  · rintro h hr p ⟨hp, hp'⟩
    have hover := (h p hp hp').1
    rw [Matcher.overlaps_eq_false_of_respells hr] at hover
    cases hover
  · intro h p hp hp'
    cases hr : self.protocol.respells other.protocol with
    | true => exact absurd ⟨hp, hp'⟩ (h hr p)
    | false =>
      have hover := Matcher.overlaps_of_common hr hp hp'
      exact ⟨hover, Matcher.overlaps_symm _ _ ▸ hover⟩

/-- **TCP and protocol number 6 share every TCP packet**, and do not overlap. -/
theorem not_common_packet_overlaps_tcp :
    ¬ ∀ p, ({ protocol := .tcp } : Matcher).matchesPacket p = true →
      ({ protocol := .number 6 } : Matcher).matchesPacket p = true →
      ({ protocol := .tcp } : Matcher).overlaps { protocol := .number 6 } = true ∧
        ({ protocol := .number 6 } : Matcher).overlaps { protocol := .tcp } = true := by
  intro h
  exact absurd (h (tcpTo 25) (by decide) (by decide)).1 (by decide)

end Portcullis
