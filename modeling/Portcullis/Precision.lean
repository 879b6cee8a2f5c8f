import Portcullis.Collisions
import Portcullis.Overlap
/-!
# Precision — what the two relations report of well-formed matchers

`overlaps` reports nothing that is not there: matchers that overlap share a packet (`overlaps_iff_common`), so every
collision named is one some packet meets (`collision_shared`).  `isSupersetOf` misses containment in three cases only
(`superset_complete_iff`): one protocol number spelled in two ways, and the full port range against the wildcard for
either port.  With the slips of the other direction that says which rules are reported dead (`reportedDead_iff`).
-/
namespace Portcullis

open SortBy
open List

/-! ## Fields -/

theorem Protocol.common_of_overlaps {m n : Protocol} (h : m.overlaps n = true) :
    ∃ x, m.matchesNumber x = true ∧ n.matchesNumber x = true := by
  rcases (overlaps_iff m n).1 h with rfl | rfl | rfl
  · obtain ⟨x, hx⟩ := n.exists_matchesNumber
    exact ⟨x, rfl, hx⟩
  · obtain ⟨x, hx⟩ := m.exists_matchesNumber
    exact ⟨x, hx, rfl⟩
  · obtain ⟨x, hx⟩ := m.exists_matchesNumber
    exact ⟨x, hx, hx⟩

theorem PortMatcher.common_of_overlaps {m n : PortMatcher} (hm : m.wellFormed = true) (hn : n.wellFormed = true)
    (h : m.overlaps n = true) : ∃ x, m.matchesPort x = true ∧ n.matchesPort x = true := by
  cases m with
  | any =>
    obtain ⟨x, hx⟩ := (wellFormed_iff n).1 hn
    exact ⟨x, rfl, hx⟩
  | single a =>
    refine ⟨a, by simp [matchesPort], ?_⟩
    cases n with
    | any => rfl
    | single b => simpa [overlaps, matchesPort] using h
    | range r => simpa [overlaps, matchesPort] using h
  | range r =>
    cases n with
    | any =>
      obtain ⟨x, hx⟩ := (wellFormed_iff (.range r)).1 hm
      exact ⟨x, hx, rfl⟩
    | single b => exact ⟨b, by simpa [overlaps, matchesPort] using h, by simp [matchesPort]⟩
    | range r' =>
      -- the greater of the two starts
      simp only [overlaps, wellFormed, matchesPort, Bool.and_eq_true, decide_eq_true_eq] at *
      rcases UInt16.le_total r.start r'.start with hle | hle
      · exact ⟨r'.start, ⟨hle, h.2⟩, UInt16.le_refl _, hn⟩
      · exact ⟨r.start, ⟨UInt16.le_refl _, hm⟩, hle, h.1⟩

theorem InterfaceMatcher.common_of_overlaps {m n : InterfaceMatcher} (h : m.overlaps n = true) :
    ∃ x, m.matchesName x = true ∧ n.matchesName x = true := by
  cases m with
  | any =>
    obtain ⟨x, hx⟩ := n.exists_matchesName
    exact ⟨x, rfl, hx⟩
  | name a =>
    refine ⟨a, by simp [matchesName], ?_⟩
    cases n with
    | any => rfl
    | name b => simpa [overlaps, matchesName] using h

theorem AddressMatcher.common_of_overlaps {m n : AddressMatcher} (hm : m.wellFormed = true) (hn : n.wellFormed = true)
    (h : m.overlaps n = true) : ∃ a, m.matchesAddr a = true ∧ n.matchesAddr a = true := by
  obtain ⟨lo, hi, hsm⟩ := exists_span hm
  obtain ⟨lo', hi', hsn⟩ := exists_span hn
  exact (exists_common_iff_span hsm hsn).2 ((overlaps_iff_span hsm hsn).1 h)

/-! ## Overlaps -/

theorem Matcher.common_of_overlaps {m n : Matcher} (hm : m.wellFormed = true) (hn : n.wellFormed = true)
    (h : m.overlaps n = true) : ∃ p, m.matchesPacket p = true ∧ n.matchesPacket p = true := by
  simp only [wellFormed, overlaps, matchesPacket, Bool.and_eq_true] at *
  obtain ⟨⟨⟨m2, m3⟩, m4⟩, m5⟩ := hm
  obtain ⟨⟨⟨n2, n3⟩, n4⟩, n5⟩ := hn
  obtain ⟨⟨⟨⟨⟨⟨h1, h2⟩, h3⟩, h4⟩, h5⟩, h6⟩, h7⟩ := h
  obtain ⟨x1, p1, q1⟩ := Protocol.common_of_overlaps h1
  obtain ⟨x2, p2, q2⟩ := AddressMatcher.common_of_overlaps m2 n2 h2
  obtain ⟨x3, p3, q3⟩ := AddressMatcher.common_of_overlaps m3 n3 h3
  obtain ⟨x4, p4, q4⟩ := PortMatcher.common_of_overlaps m4 n4 h4
  obtain ⟨x5, p5, q5⟩ := PortMatcher.common_of_overlaps m5 n5 h5
  obtain ⟨x6, p6, q6⟩ := InterfaceMatcher.common_of_overlaps h6
  obtain ⟨x7, p7, q7⟩ := InterfaceMatcher.common_of_overlaps h7
  exact ⟨⟨x1, x2, x3, x4, x5, x6, x7⟩, ⟨⟨⟨⟨⟨⟨p1, p2⟩, p3⟩, p4⟩, p5⟩, p6⟩, p7⟩,
    ⟨⟨⟨⟨⟨⟨q1, q2⟩, q3⟩, q4⟩, q5⟩, q6⟩, q7⟩⟩

/-- **`overlaps` is a common packet**, except for one protocol in two spellings. -/
theorem overlaps_iff_common {m n : Matcher} (hm : m.wellFormed = true) (hn : n.wellFormed = true) :
    m.overlaps n = true ↔
      m.protocol.respells n.protocol = false ∧ ∃ p, m.matchesPacket p = true ∧ n.matchesPacket p = true := by
  constructor
  · intro h
    refine ⟨?_, Matcher.common_of_overlaps hm hn h⟩
    by_contra hr
    rw [Matcher.overlaps_eq_false_of_respells (by simpa using hr)] at h
    cases h
  · rintro ⟨hr, p, hp, hp'⟩
    exact Matcher.overlaps_of_common hr hp hp'

/-- **Every collision named is one that some packet meets**, in a ruleset of well-formed matchers. -/
theorem collision_shared (rs : Ruleset) (hwf : ∀ c ∈ rs.chains, ∀ r ∈ c.rules, r.matcher.wellFormed = true)
    {i : LintIssue} (hi : i ∈ issuesOf (verify rs)) (hkind : i.kind = .priorityCollision) :
    ∃ c ∈ rs.chains, ∃ y x, Clash c.rules y x ∧ NamesClash c y x i ∧
      ∃ p, y.1.matcher.matchesPacket p = true ∧ x.1.matcher.matchesPacket p = true := by
  have hmem : i ∈ (issuesOf (verify rs)).filter LintIssue.isCollision :=
    List.mem_filter.2 ⟨hi, by rw [LintIssue.isCollision, hkind]; rfl⟩
  rw [filter_isCollision_verify, List.mem_map] at hmem
  obtain ⟨⟨c, y, x⟩, hcyx, rfl⟩ := hmem
  obtain ⟨d, hc, hmap⟩ := List.mem_flatMap.1 hcyx
  obtain ⟨⟨y', x'⟩, hyx, heq⟩ := List.mem_map.1 hmap
  obtain ⟨rfl, rfl, rfl⟩ : d = c ∧ y' = y ∧ x' = x := by simpa using heq
  have hclash : Clash d.rules y' x' := (mem_scannedSpots_iff.1 hyx).1
  have hspot (z : Spot) (hz : z ∈ d.rules.zipIdx) : z.1.matcher.wellFormed = true :=
    hwf d hc z.1 (List.fst_mem_of_mem_zipIdx hz)
  have hover : y'.1.matcher.overlaps x'.1.matcher = true := hclash.overlaps
  exact ⟨d, hc, y', x', hclash, ⟨rfl, rfl, Or.inl ⟨rfl, rfl⟩⟩,
    ((overlaps_iff_common (hspot y' hclash.left) (hspot x' hclash.right)).1 hover).2⟩

/-- SSH and the ports below 100, at one priority. -/
def sshTied : Chain where
  name := "input"
  rules := [
    { id := ⟨1⟩, priority := 10, matcher := { protocol := .tcp, dstPort := .single 22 }, action := .accept },
    { id := ⟨2⟩, priority := 10, matcher := { dstPort := .range ⟨1, 99⟩ }, action := .drop }]
  defaultPolicy := .drop

theorem collision_shared_sshTied : ∃ c ∈ [sshTied], ∃ y x, Clash c.rules y x ∧
    ∃ p, y.1.matcher.matchesPacket p = true ∧ x.1.matcher.matchesPacket p = true := by
  have hissues : issuesOf (verify (.new [sshTied])) = lintChain sshTied := by rfl
  obtain ⟨i, hi⟩ : ∃ i, lintChain sshTied = [i] := ⟨_, rfl⟩
  have hkind : (lintChain sshTied).map LintIssue.kind = [.priorityCollision] := by rfl
  rw [hi] at hkind
  obtain ⟨c, hc, y, x, hclash, -, hp⟩ := collision_shared (.new [sshTied]) (by decide)
    (hissues ▸ hi ▸ List.mem_singleton_self i) (List.singleton_inj.1 hkind)
  exact ⟨c, hc, y, x, hclash, hp⟩

/-! ## Supersets -/

theorem Protocol.contains_iff (m n : Protocol) :
    (∀ x, n.matchesNumber x = true → m.matchesNumber x = true) ↔ m.allowsAll n = true ∨ m.respells n = true := by
  rw [allowsAll_iff]
  constructor
  · intro h
    by_cases hany : m = .any
    · exact Or.inl (Or.inl hany)
    · by_cases heq : m = n
      · exact Or.inl (Or.inr heq)
      · right
        obtain ⟨k, hk⟩ : ∃ k, m.ipNumber = some k := by cases m <;> simp [ipNumber] at hany ⊢
        have hnum : n.ipNumber = some k := by
          cases hn : n.ipNumber with
          | none =>
            -- the wildcard matches a number that `m` does not
            have h0 := h 0 (by simp [matchesNumber, hn])
            have h1 := h 1 (by simp [matchesNumber, hn])
            simp only [matchesNumber, hk, beq_iff_eq] at h0 h1
            exact absurd (h0.trans h1.symm) (by decide)
          | some j =>
            have hj := h j (by simp [matchesNumber, hn])
            simp only [matchesNumber, hk, beq_iff_eq] at hj
            rw [hj]
        simp [respells, hk, hnum, heq]
  · rintro ((rfl | rfl) | hr) x hx
    · rfl
    · exact hx
    · simp only [respells, Bool.and_eq_true, beq_iff_eq] at hr
      simpa only [matchesNumber, hr.1.2] using hx

theorem Protocol.not_respells_of_allowsAll {m n : Protocol} (h : m.allowsAll n = true) : m.respells n = false := by
  rcases (allowsAll_iff m n).1 h with rfl | rfl <;> simp [respells, ipNumber]

theorem port_le_last (x : UInt16) : x ≤ 65535 := UInt16.le_iff_toNat_le.2 (Nat.le_of_lt_succ x.toNat_lt)

/-- The range of all ports against the wildcard. -/
def PortMatcher.FullOver (m n : PortMatcher) : Prop := m = .range ⟨0, 65535⟩ ∧ n = .any

theorem PortMatcher.contains_iff (m n : PortMatcher) :
    (∀ x, n.matchesPort x = true → m.matchesPort x = true) ↔ m.Covers n ∨ m.FullOver n := by
  constructor
  · intro h
    by_cases hn : n = .any
    · subst hn
      have h0 := h 0 rfl
      have hlast := h 65535 rfl
      cases m with
      | any => exact Or.inl (Or.inl rfl)
      | single a =>
        simp only [matchesPort, beq_iff_eq] at h0 hlast
        exact absurd (h0.trans hlast.symm) (by decide)
      | range r =>
        obtain ⟨start, end_⟩ := r
        simp only [matchesPort, Bool.and_eq_true, decide_eq_true_eq] at h0 hlast
        have hstart : start = 0 := UInt16.le_antisymm h0.1 UInt16.zero_le
        have hend : end_ = 65535 := UInt16.le_antisymm (port_le_last end_) hlast.2
        rw [hstart, hend]
        exact Or.inr ⟨rfl, rfl⟩
    · exact Or.inl (Or.inr ⟨hn, h⟩)
  · rintro ((rfl | ⟨-, h⟩) | ⟨rfl, rfl⟩) x hx
    · rfl
    · exact h x hx
    · simp only [matchesPort, Bool.and_eq_true, decide_eq_true_eq]
      exact ⟨UInt16.zero_le, port_le_last x⟩

theorem InterfaceMatcher.contains_iff (m n : InterfaceMatcher) :
    (∀ x, n.matchesName x = true → m.matchesName x = true) ↔ m.isSupersetOf n = true := by
  rw [isSupersetOf_iff]
  constructor
  · intro h
    cases m with
    | any => exact Or.inl rfl
    | name a =>
      cases n with
      | any =>
        have h0 := h "" rfl
        have h1 := h "lo" rfl
        simp only [matchesName, beq_iff_eq] at h0 h1
        exact absurd (h0.trans h1.symm) (by decide)
      | name b =>
        have hb := h b (by simp [matchesName])
        simp only [matchesName, beq_iff_eq] at hb
        exact Or.inr (by rw [hb])
  · rintro (rfl | rfl) x hx
    · rfl
    · exact hx

/-- No field of `m` contains that of `n` in a way the code has no arm for. -/
structure Matcher.Plain (m n : Matcher) : Prop where
  protocol : m.protocol.respells n.protocol = false
  srcPort : ¬ m.srcPort.FullOver n.srcPort
  dstPort : ¬ m.dstPort.FullOver n.dstPort

/-- Every field of `m` matches what that of `n` does. -/
structure Matcher.FieldsContain (m n : Matcher) : Prop where
  protocol : ∀ x, n.protocol.matchesNumber x = true → m.protocol.matchesNumber x = true
  srcAddr : m.srcAddr.Contains n.srcAddr
  dstAddr : m.dstAddr.Contains n.dstAddr
  srcPort : ∀ x, n.srcPort.matchesPort x = true → m.srcPort.matchesPort x = true
  dstPort : ∀ x, n.dstPort.matchesPort x = true → m.dstPort.matchesPort x = true
  inInterface : ∀ x, n.inInterface.matchesName x = true → m.inInterface.matchesName x = true
  outInterface : ∀ x, n.outInterface.matchesName x = true → m.outInterface.matchesName x = true

/-- **Packets are contained field by field**, when there is one. -/
theorem Matcher.fieldsContain_of_contains {m n : Matcher} (hn : n.wellFormed = true)
    (h : ∀ p, n.matchesPacket p = true → m.matchesPacket p = true) : m.FieldsContain n := by
  obtain ⟨p, hp⟩ := (wellFormed_iff n).1 hn
  simp only [matchesPacket, Bool.and_eq_true] at h hp
  obtain ⟨⟨⟨⟨⟨⟨p1, p2⟩, p3⟩, p4⟩, p5⟩, p6⟩, p7⟩ := hp
  -- one packet of `n`, with one field at a time changed
  constructor
  · intro x hx
    exact (h { p with protocol := x } ⟨⟨⟨⟨⟨⟨hx, p2⟩, p3⟩, p4⟩, p5⟩, p6⟩, p7⟩).1.1.1.1.1.1
  · intro x hx
    exact (h { p with srcAddr := x } ⟨⟨⟨⟨⟨⟨p1, hx⟩, p3⟩, p4⟩, p5⟩, p6⟩, p7⟩).1.1.1.1.1.2
  · intro x hx
    exact (h { p with dstAddr := x } ⟨⟨⟨⟨⟨⟨p1, p2⟩, hx⟩, p4⟩, p5⟩, p6⟩, p7⟩).1.1.1.1.2
  · intro x hx
    exact (h { p with srcPort := x } ⟨⟨⟨⟨⟨⟨p1, p2⟩, p3⟩, hx⟩, p5⟩, p6⟩, p7⟩).1.1.1.2
  · intro x hx
    exact (h { p with dstPort := x } ⟨⟨⟨⟨⟨⟨p1, p2⟩, p3⟩, p4⟩, hx⟩, p6⟩, p7⟩).1.1.2
  · intro x hx
    exact (h { p with inInterface := x } ⟨⟨⟨⟨⟨⟨p1, p2⟩, p3⟩, p4⟩, p5⟩, hx⟩, p7⟩).1.2
  · intro x hx
    exact (h { p with outInterface := x } ⟨⟨⟨⟨⟨⟨p1, p2⟩, p3⟩, p4⟩, p5⟩, p6⟩, hx⟩).2

theorem Matcher.plain_of_isSupersetOf {m n : Matcher} (h : m.isSupersetOf n = true) : m.Plain n := by
  simp only [isSupersetOf, Bool.and_eq_true] at h
  obtain ⟨⟨⟨⟨⟨⟨h1, -⟩, -⟩, h4⟩, h5⟩, -⟩, -⟩ := h
  have hfull {a b : PortMatcher} (hs : a.isSupersetOf b = true) : ¬ a.FullOver b := by
    rintro ⟨rfl, rfl⟩
    cases hs
  exact ⟨Protocol.not_respells_of_allowsAll h1, hfull h4, hfull h5⟩

theorem Matcher.isSupersetOf_of_plain {m n : Matcher} (hn : n.wellFormed = true)
    (h : ∀ p, n.matchesPacket p = true → m.matchesPacket p = true) (hplain : m.Plain n) : m.isSupersetOf n = true := by
  have hf := fieldsContain_of_contains hn h
  simp only [wellFormed, Bool.and_eq_true] at hn
  obtain ⟨⟨⟨w2, w3⟩, w4⟩, w5⟩ := hn
  have h1 : m.protocol.allowsAll n.protocol = true := by
    refine ((Protocol.contains_iff _ _).1 hf.protocol).resolve_right (fun hr => ?_)
    rw [hplain.protocol] at hr
    cases hr
  have h2 := (AddressMatcher.isSupersetOf_iff w2).2 (Or.inr hf.srcAddr)
  have h3 := (AddressMatcher.isSupersetOf_iff w3).2 (Or.inr hf.dstAddr)
  have h4 : m.srcPort.isSupersetOf n.srcPort = true :=
    PortMatcher.isSupersetOf_of_covers w4 (((PortMatcher.contains_iff _ _).1 hf.srcPort).resolve_right hplain.srcPort)
  have h5 : m.dstPort.isSupersetOf n.dstPort = true :=
    PortMatcher.isSupersetOf_of_covers w5 (((PortMatcher.contains_iff _ _).1 hf.dstPort).resolve_right hplain.dstPort)
  have h6 := (InterfaceMatcher.contains_iff _ _).1 hf.inInterface
  have h7 := (InterfaceMatcher.contains_iff _ _).1 hf.outInterface
  simp only [isSupersetOf, Bool.and_eq_true]
  exact ⟨⟨⟨⟨⟨⟨h1, h2⟩, h3⟩, h4⟩, h5⟩, h6⟩, h7⟩

/-- **`isSupersetOf` sees containment** exactly where no field hides it. -/
theorem superset_complete_iff {self other : Matcher} (hn : other.wellFormed = true)
    (h : ∀ p, other.matchesPacket p = true → self.matchesPacket p = true) :
    self.isSupersetOf other = true ↔ self.Plain other :=
  ⟨Matcher.plain_of_isSupersetOf, Matcher.isSupersetOf_of_plain hn h⟩

/-- Protocol number 6 matches every TCP packet, and is not called a superset. -/
theorem superset_complete_iff_tcp : ({ protocol := .number 6 } : Matcher).isSupersetOf { protocol := .tcp } = true ↔
    ({ protocol := .number 6 } : Matcher).Plain { protocol := .tcp } :=
  superset_complete_iff (by decide) (fun _ hp => hp)

/-- A later rule is reported for an earlier one that takes all its packets in plain sight, or slips over it. -/
def TakesOrSlips (e r : Rule) : Prop :=
  ((∀ p, r.matcher.matchesPacket p = true → e.matcher.matchesPacket p = true) ∧ e.matcher.Plain r.matcher) ∨
    e.matcher.SlipsOver r.matcher

theorem kills_iff_slips {e r : Rule} (hr : r.matcher.wellFormed = true) :
    kills e r = true ↔ e.action.isTerminal = true ∧ TakesOrSlips e r := by
  rw [kills_iff]
  refine and_congr_right (fun _ => ⟨fun h => ?_, fun h => ?_⟩)
  · cases ho : e.matcher.overreaches r.matcher with
    | false => exact Or.inl ⟨fun p hp => Matcher.isSupersetOf_sound h ho hp, Matcher.plain_of_isSupersetOf h⟩
    | true => exact Or.inr (Matcher.slipsOver_of_overreaches h hr ho)
  · rcases h with ⟨hc, hplain⟩ | hs
    · exact Matcher.isSupersetOf_of_plain hr hc hplain
    · exact Matcher.isSupersetOf_of_slipsOver hs

def sshLater : Rule := { id := ⟨2⟩, priority := 20, matcher := { protocol := .tcp, dstPort := .single 22 }, action := .drop }

def sshAgain : Chain where
  name := "input"
  rules := [{ id := ⟨1⟩, priority := 10, matcher := { dstPort := .range ⟨1, 99⟩ }, action := .accept }, sshLater]
  defaultPolicy := .drop

/-- **Which rules are reported dead**, by the packets they match. -/
theorem reportedDead_iff {c : Chain} (hid : (c.rules.map Rule.id).Nodup) {r : Rule} (hr : r ∈ c.rules)
    (hwf : r.matcher.wellFormed = true) :
    r.id ∈ c.reportedDead ↔ ∃ e, [e, r] <+ evalOrder c.rules ∧ e.action.isTerminal = true ∧ TakesOrSlips e r := by
  rw [mem_reportedDead_iff]
  constructor
  · rintro ⟨e, r', hsub, hk, hrr⟩
    obtain rfl := eq_of_ids hid (mem_evalOrder.1 (mem_of_pair_sublist hsub).2) hr hrr
    exact ⟨e, hsub, (kills_iff_slips hwf).1 hk⟩
  · rintro ⟨e, hsub, he⟩
    exact ⟨e, r, hsub, (kills_iff_slips hwf).2 he, rfl⟩

theorem reportedDead_iff_sshAgain : (⟨2⟩ : RuleId) ∈ sshAgain.reportedDead ↔
    ∃ e, [e, sshLater] <+ evalOrder sshAgain.rules ∧ e.action.isTerminal = true ∧ TakesOrSlips e sshLater := by
  have hid : (sshAgain.rules.map Rule.id).Nodup := by decide
  have hwf : sshLater.matcher.wellFormed = true := by decide
  exact reportedDead_iff hid (List.mem_cons_of_mem _ List.mem_cons_self) hwf

/-! ## Named killers -/

theorem PortMatcher.eq_any_of_isSupersetOf {m : PortMatcher} (h : m.isSupersetOf .any = true) : m = .any := by
  cases m with
  | any => rfl
  | single a => cases h
  | range r => cases h

theorem PortMatcher.not_fullOver_trans {m n o : PortMatcher} (hmn : m.isSupersetOf n = true)
    (hno : n.isSupersetOf o = true) : ¬ m.FullOver o := by
  rintro ⟨rfl, rfl⟩
  rw [eq_any_of_isSupersetOf hno] at hmn
  cases hmn

theorem Protocol.allowsAll_trans {m n o : Protocol} (hmn : m.allowsAll n = true) (hno : n.allowsAll o = true) :
    m.allowsAll o = true := by
  rw [allowsAll_iff] at *
  rcases hmn with rfl | rfl
  · exact Or.inl rfl
  · exact hno

theorem Matcher.contains_of_isSupersetOf {m n : Matcher} (hn : n.wellFormed = true) (hs : ¬ m.SlipsOver n)
    (h : m.isSupersetOf n = true) : ∀ p, n.matchesPacket p = true → m.matchesPacket p = true := by
  cases ho : m.overreaches n with
  | false => exact fun p hp => isSupersetOf_sound h ho hp
  | true => exact absurd (slipsOver_of_overreaches h hn ho) hs

/-- **`isSupersetOf` is transitive** where nothing slips. -/
theorem Matcher.isSupersetOf_trans {m n o : Matcher} (hn : n.wellFormed = true) (ho : o.wellFormed = true)
    (hsmn : ¬ m.SlipsOver n) (hsno : ¬ n.SlipsOver o) (hmn : m.isSupersetOf n = true) (hno : n.isSupersetOf o = true) :
    m.isSupersetOf o = true := by
  have hcontains (p : Packet) (hp : o.matchesPacket p = true) : m.matchesPacket p = true :=
    contains_of_isSupersetOf hn hsmn hmn p (contains_of_isSupersetOf ho hsno hno p hp)
  simp only [isSupersetOf, Bool.and_eq_true] at hmn hno
  obtain ⟨⟨⟨⟨⟨⟨h1, -⟩, -⟩, h4⟩, h5⟩, -⟩, -⟩ := hmn
  obtain ⟨⟨⟨⟨⟨⟨k1, -⟩, -⟩, k4⟩, k5⟩, -⟩, -⟩ := hno
  exact isSupersetOf_of_plain ho hcontains ⟨Protocol.not_respells_of_allowsAll (Protocol.allowsAll_trans h1 k1),
    PortMatcher.not_fullOver_trans h4 k4, PortMatcher.not_fullOver_trans h5 k5⟩

theorem kills_trans {a b c : Rule} (hb : b.matcher.wellFormed = true) (hc : c.matcher.wellFormed = true)
    (hsab : ¬ a.matcher.SlipsOver b.matcher) (hsbc : ¬ b.matcher.SlipsOver c.matcher) (hab : kills a b = true)
    (hbc : kills b c = true) : kills a c = true := by
  rw [kills, Bool.and_eq_true] at *
  exact ⟨hab.1, Matcher.isSupersetOf_trans hb hc hsab hsbc hab.2 hbc.2⟩

/-- **The rule a dead rule is reported for is not dead itself**, where no matcher slips over another: the reports of a
chain name the rules that are to stay. -/
theorem killer_alive {c : Chain} (hid : (c.rules.map Rule.id).Nodup)
    (hwf : ∀ r ∈ c.rules, r.matcher.wellFormed = true)
    (hslip : ∀ e ∈ c.rules, ∀ r ∈ c.rules, ¬ e.matcher.SlipsOver r.matcher) {i : LintIssue} (hi : i ∈ lintChain c)
    (hdead : i.isDead = true) {id : RuleId} (hother : i.otherRule = some id) : id ∉ c.reportedDead := by
  have hmem : i ∈ (lintChain c).filter LintIssue.isDead := List.mem_filter.2 ⟨hi, hdead⟩
  rw [filter_isDead_lintChain, deadFrom_eq_map, List.mem_map] at hmem
  obtain ⟨⟨e, r⟩, her, rfl⟩ := hmem
  obtain rfl : e.id = id := Option.some.inj hother
  have hnd : (evalOrder c.rules).Nodup := (evalOrder_perm c.rules).nodup_iff.2 (nodup_of_ids hid)
  have hin {a b : Rule} (hab : [a, b] <+ evalOrder c.rules) : a ∈ c.rules ∧ b ∈ c.rules :=
    (mem_of_pair_sublist hab).imp mem_evalOrder.1 mem_evalOrder.1
  have hfirst := FirstBefore.fst_notMem_of_trans kills hnd (fun a b d hab hbd hkab hkbd =>
    kills_trans (hwf b (hin hab).2) (hwf d (hin hbd).2) (hslip a (hin hab).1 b (hin hab).2)
      (hslip b (hin hbd).1 d (hin hbd).2) hkab hkbd) her
  rw [mem_reportedDead_iff]
  rintro ⟨e', e'', hsub, hk, hids⟩
  have he : e ∈ c.rules := by
    have hpair := (FirstBefore.mem_firstBefore_iff kills).1 her
    obtain ⟨pre, post, heq, hfind⟩ := hpair
    rw [List.nil_append] at hfind
    exact mem_evalOrder.1 (heq ▸ List.mem_append_left _ (List.mem_of_find?_eq_some hfind))
  obtain rfl := eq_of_ids hid (hin hsub).2 he hids
  exact hfirst ((FirstBefore.mem_map_snd_firstBefore_iff kills).2 ⟨e', hsub, hk⟩)

theorem Matcher.not_slipsOver {m n : Matcher} (h : m.isSupersetOf n = false ∨ (m.srcAddr.slips n.srcAddr ||
    m.dstAddr.slips n.dstAddr || m.srcPort.slips n.srcPort || m.dstPort.slips n.dstPort) = false) : ¬ m.SlipsOver n := by
  intro hs
  rcases h with h | h
  · rw [isSupersetOf_of_slipsOver hs] at h
    cases h
  · have hslip := hs.slip
    simp only [Bool.or_eq_false_iff] at h
    simp [h] at hslip

/-- `sshAgain` with a rule for SSH from one host, dead behind both. -/
def sshThrice : Chain where
  name := "input"
  rules := sshAgain.rules ++ [
    { id := ⟨3⟩, priority := 30, matcher := { sshLater.matcher with srcAddr := .single (.v4 1) }, action := .accept }]
  defaultPolicy := .drop

theorem killer_alive_sshThrice : ∃ i ∈ lintChain sshThrice, i.rule = some ⟨3⟩ ∧ i.otherRule = some ⟨1⟩ ∧
    (⟨1⟩ : RuleId) ∉ sshThrice.reportedDead := by
  have hslip : ∀ e ∈ sshThrice.rules, ∀ r ∈ sshThrice.rules, ¬ e.matcher.SlipsOver r.matcher :=
    fun e he r hr => Matcher.not_slipsOver (by revert e r; decide)
  have hissue : ((lintChain sshThrice).find? (fun i => decide (i.rule = some ⟨3⟩))).map
      (fun i => (i.rule, i.otherRule, i.isDead)) = some (some ⟨3⟩, some ⟨1⟩, true) := by rfl
  obtain ⟨i, hi, heq⟩ := Option.map_eq_some_iff.1 hissue
  simp only [Prod.mk.injEq] at heq
  obtain ⟨hrule, hother, hdead⟩ := heq
  have hmem : i ∈ lintChain sshThrice := List.mem_of_find?_eq_some hi
  exact ⟨i, hmem, hrule, hother, killer_alive (by decide) (by decide) hslip hmem hdead hother⟩

end Portcullis
