import Portcullis.Address
/-!
# Spans — every address matcher is one interval

On the line of addresses a matcher that matches anything matches an interval, its `span`: the range, the block between
its bounds, one address, or all of them.  Containment and a common address are comparisons of span ends
(`contains_iff_span`, `exists_common_iff_span`), and so are the two relations of the lint pass: `overlaps` on every arm
(`AddressMatcher.overlaps_iff_span`), `isSupersetOf` but for the arms that slip (`AddressMatcher.isSupersetOf_iff_span`).
-/
namespace Portcullis

def AddressMatcher.matchesAddr (m : AddressMatcher) (a : IpAddr) : Bool :=
  match m with
  | .any => true
  | .single b => a == b
  | .cidr addr prefixLen => inCidr a addr prefixLen
  | .range start end_ => inRange a start end_

/-- The constraints `AddressMatcher` documents: a prefix within the word, a range of one family in order. -/
def AddressMatcher.wellFormed : AddressMatcher → Bool
  | .any => true
  | .single _ => true
  | .cidr addr prefixLen => decide (prefixLen ≤ addr.width)
  | .range start end_ => sameFamily start end_ && (cmpAddr start end_).isLE

/-- First and last address matched. -/
def AddressMatcher.span : AddressMatcher → Option (IpAddr × IpAddr)
  | .any => some (.v4 0, .v6 (BitVec.allOnes 128))
  | .single a => some (a, a)
  | .cidr addr prefixLen => cidrBounds addr prefixLen
  | .range start end_ => if sameFamily start end_ && (cmpAddr start end_).isLE then some (start, end_) else none

def AddressMatcher.Contains (m n : AddressMatcher) : Prop := ∀ x, n.matchesAddr x = true → m.matchesAddr x = true

/-! ## The interval -/

theorem IpAddr.ord_lt (a : IpAddr) : a.ord < 2 ^ 32 + 2 ^ 128 := by
  cases a with
  | v4 a => have := a.isLt; simp only [IpAddr.ord]; omega
  | v6 a => have := a.isLt; simp only [IpAddr.ord]; omega

theorem ord_first : (IpAddr.v4 0).ord = 0 := rfl

theorem ord_last : (IpAddr.v6 (BitVec.allOnes 128)).ord = 2 ^ 32 + (2 ^ 128 - 1) := by
  simp only [IpAddr.ord, BitVec.toNat_allOnes]

theorem AddressMatcher.wellFormed_eq_isSome (m : AddressMatcher) : m.wellFormed = m.span.isSome := by
  cases m with
  | any => rfl
  | single a => rfl
  | cidr addr p =>
    rw [Bool.eq_iff_iff, wellFormed, span, cidrBounds_isSome_iff, decide_eq_true_eq]
  | range s e =>
    simp only [wellFormed, span]
    split <;> simp_all

theorem AddressMatcher.exists_span {m : AddressMatcher} (h : m.wellFormed = true) :
    ∃ lo hi, m.span = some (lo, hi) := by
  rw [wellFormed_eq_isSome] at h
  obtain ⟨b, hb⟩ := Option.isSome_iff_exists.1 h
  exact ⟨b.1, b.2, hb⟩

theorem span_single_iff {a lo hi : IpAddr} : (AddressMatcher.single a).span = some (lo, hi) ↔ a = lo ∧ a = hi := by
  simp only [AddressMatcher.span, Option.some.injEq, Prod.mk.injEq]

theorem span_range_iff {s e lo hi : IpAddr} : (AddressMatcher.range s e).span = some (lo, hi) ↔
    (sameFamily s e = true ∧ s.ord ≤ e.ord) ∧ s = lo ∧ e = hi := by
  simp only [AddressMatcher.span, Option.ite_none_right_eq_some, Bool.and_eq_true, cmpAddr_isLE, Option.some.injEq,
    Prod.mk.injEq]

/-- **A matcher matches its span.** -/
theorem matchesAddr_iff_between {m : AddressMatcher} {lo hi : IpAddr} (h : m.span = some (lo, hi)) (x : IpAddr) :
    m.matchesAddr x = true ↔ lo.ord ≤ x.ord ∧ x.ord ≤ hi.ord := by
  cases m with
  | any =>
    cases h
    have hx := x.ord_lt
    rw [ord_first, ord_last]
    exact ⟨fun _ => ⟨Nat.zero_le _, by omega⟩, fun _ => rfl⟩
  | single a =>
    cases h
    simp only [AddressMatcher.matchesAddr, beq_iff_eq]
    constructor
    · rintro rfl
      omega
    · intro hx
      exact IpAddr.ord_inj (by omega)
  | cidr addr p => exact inCidr_iff_between h x
  | range s e =>
    obtain ⟨⟨hf, -⟩, rfl, rfl⟩ := span_range_iff.1 h
    simp only [AddressMatcher.matchesAddr, inRange_iff, hf, true_and]

theorem span_le {m : AddressMatcher} {lo hi : IpAddr} (h : m.span = some (lo, hi)) : lo.ord ≤ hi.ord := by
  cases m with
  | any => cases h; rw [ord_first]; omega
  | single a => cases h; exact Nat.le_refl _
  | cidr addr p =>
    have hnet := (inCidr_iff_between h addr).1 (inCidr_self (cidrBounds_low h).1)
    omega
  | range s e =>
    obtain ⟨⟨-, hle⟩, rfl, rfl⟩ := span_range_iff.1 h
    exact hle

theorem sameFamily_of_span {m : AddressMatcher} {lo hi : IpAddr} (hm : m ≠ .any) (h : m.span = some (lo, hi)) :
    sameFamily lo hi = true := by
  cases m with
  | any => exact absurd rfl hm
  | single a => cases h; simp [sameFamily]
  | cidr addr p =>
    obtain ⟨-, hlo, hhi, -⟩ := cidrBounds_low h
    exact (sameFamily_iff_width lo hi).2 (hlo.trans hhi.symm)
  | range s e =>
    obtain ⟨⟨hf, -⟩, rfl, rfl⟩ := span_range_iff.1 h
    exact hf

theorem span_of_matchesAddr {m : AddressMatcher} {x : IpAddr} (h : m.matchesAddr x = true) :
    ∃ lo hi, m.span = some (lo, hi) := by
  cases m with
  | any => exact ⟨_, _, rfl⟩
  | single a => exact ⟨_, _, rfl⟩
  | cidr addr p =>
    obtain ⟨lo, hi, hb, -⟩ := (inCidr_iff x addr p).1 h
    exact ⟨lo, hi, hb⟩
  | range s e =>
    obtain ⟨hf, hlo, hhi⟩ := (inRange_iff x s e).1 h
    exact ⟨s, e, span_range_iff.2 ⟨⟨hf, by omega⟩, rfl, rfl⟩⟩

/-- **Well formed is not empty.** -/
theorem AddressMatcher.wellFormed_iff (m : AddressMatcher) : m.wellFormed = true ↔ ∃ x, m.matchesAddr x = true := by
  constructor
  · intro h
    obtain ⟨lo, hi, hs⟩ := exists_span h
    exact ⟨lo, (matchesAddr_iff_between hs lo).2 ⟨Nat.le_refl _, span_le hs⟩⟩
  · rintro ⟨x, hx⟩
    obtain ⟨lo, hi, hs⟩ := span_of_matchesAddr hx
    rw [wellFormed_eq_isSome, hs, Option.isSome_some]

/-- **Containment of spans** is decided at the two ends. -/
theorem contains_iff_span {m n : AddressMatcher} {lo hi lo' hi' : IpAddr} (hm : m.span = some (lo, hi))
    (hn : n.span = some (lo', hi')) : m.Contains n ↔ lo.ord ≤ lo'.ord ∧ hi'.ord ≤ hi.ord := by
  have hle := span_le hn
  unfold AddressMatcher.Contains
  simp only [matchesAddr_iff_between hm, matchesAddr_iff_between hn]
  constructor
  · intro h
    exact ⟨(h lo' ⟨Nat.le_refl _, hle⟩).1, (h hi' ⟨hle, Nat.le_refl _⟩).2⟩
  · rintro ⟨hlo, hhi⟩ x ⟨hx, hx'⟩
    omega

/-- **Two spans share an address** exactly when each starts before the other ends. -/
theorem exists_common_iff_span {m n : AddressMatcher} {lo hi lo' hi' : IpAddr} (hm : m.span = some (lo, hi))
    (hn : n.span = some (lo', hi')) :
    (∃ x, m.matchesAddr x = true ∧ n.matchesAddr x = true) ↔ lo.ord ≤ hi'.ord ∧ lo'.ord ≤ hi.ord := by
  have hle := span_le hm
  have hle' := span_le hn
  simp only [matchesAddr_iff_between hm, matchesAddr_iff_between hn]
  constructor
  · rintro ⟨x, hx, hx'⟩
    omega
  · rintro ⟨h, h'⟩
    -- the later of the two first addresses
    by_cases hlo : lo.ord ≤ lo'.ord
    · exact ⟨lo', ⟨hlo, h'⟩, ⟨Nat.le_refl _, hle'⟩⟩
    · exact ⟨lo, ⟨Nat.le_refl _, hle⟩, ⟨by omega, h⟩⟩

/-- All addresses are the span of the wildcard alone. -/
theorem not_span_around {m : AddressMatcher} {lo hi : IpAddr} (hm : m ≠ .any) (h : m.span = some (lo, hi)) :
    ¬ (lo.ord ≤ (IpAddr.v4 0).ord ∧ (IpAddr.v6 (BitVec.allOnes 128)).ord ≤ hi.ord) := by
  have hf := (sameFamily_iff lo hi).1 (sameFamily_of_span hm h)
  rw [ord_first, ord_last]
  omega

/-! ## Two blocks -/

/-- The number of addresses a block spans is given by its prefix. -/
theorem cidrBounds_val {net lo hi : IpAddr} {p : UInt8} (h : cidrBounds net p = some (lo, hi)) :
    lo.val + (2 ^ (net.width.toNat - p.toNat) - 1) = hi.val := by
  obtain ⟨-, -, -, hlo, hhi⟩ := cidrBounds_low h
  rw [hlo, hhi, Blocks.high]

/-- A block of full prefix is one address, and no other block is. -/
theorem bounds_eq_iff {net lo hi : IpAddr} {p : UInt8} (h : cidrBounds net p = some (lo, hi)) :
    lo.ord = hi.ord ↔ p = net.width := by
  have hsize := cidrBounds_val h
  obtain ⟨hp, hlo, hhi, -⟩ := cidrBounds_low h
  rw [UInt8.le_iff_toNat_le] at hp
  constructor
  · intro he
    rw [IpAddr.ord_inj he] at hsize
    have hpow : 2 ^ (net.width.toNat - p.toNat) ≤ 2 ^ 0 := by
      have := Nat.two_pow_pos (net.width.toNat - p.toNat)
      omega
    have hexp := (Nat.pow_le_pow_iff_right (by decide)).1 hpow
    exact UInt8.toNat_inj.1 (by omega)
  · rintro rfl
    rw [Nat.sub_self, Nat.pow_zero, Nat.sub_self, Nat.add_zero] at hsize
    exact congrArg IpAddr.ord (IpAddr.eq_of_width_of_val (hlo.trans hhi.symm) hsize)

/-- **A block inside a block has the longer prefix.** -/
theorem prefix_le_of_bounds {n1 n2 lo1 hi1 lo2 hi2 : IpAddr} {p1 p2 : UInt8} (h1 : cidrBounds n1 p1 = some (lo1, hi1))
    (h2 : cidrBounds n2 p2 = some (lo2, hi2)) (hlo : lo1.ord ≤ lo2.ord) (hhi : hi2.ord ≤ hi1.ord) : p1 ≤ p2 := by
  have hle : lo2.ord ≤ hi2.ord := span_le (m := .cidr n2 p2) h2
  have hsize1 := cidrBounds_val h1
  have hsize2 := cidrBounds_val h2
  obtain ⟨hp1, hlow1, hhiw1, -⟩ := cidrBounds_low h1
  obtain ⟨hp2, hlow2, hhiw2, -⟩ := cidrBounds_low h2
  have hw2 : lo2.width = lo1.width := width_eq_of_between (hlow1.trans hhiw1.symm) hlo (Nat.le_trans hle hhi)
  have hw : n2.width = n1.width := hlow2.symm.trans (hw2.trans hlow1)
  rw [ord_le_iff_of_width hw2.symm] at hlo
  rw [ord_le_iff_of_width (hhiw2.trans (hw.trans hhiw1.symm))] at hhi
  rw [hw] at hp2 hsize2
  have hpow : 2 ^ (n1.width.toNat - p2.toNat) ≤ 2 ^ (n1.width.toNat - p1.toNat) := by
    have := Nat.two_pow_pos (n1.width.toNat - p1.toNat)
    omega
  have hexp := (Nat.pow_le_pow_iff_right (by decide)).1 hpow
  rw [UInt8.le_iff_toNat_le] at *
  omega

/-- **The block arm of `isSupersetOf` compares spans.** -/
theorem block_in_block_iff {n1 n2 lo1 hi1 lo2 hi2 : IpAddr} {p1 p2 : UInt8} (h1 : cidrBounds n1 p1 = some (lo1, hi1))
    (h2 : cidrBounds n2 p2 = some (lo2, hi2)) :
    (p1 ≤ p2 ∧ inCidr n2 n1 p1 = true) ↔ lo1.ord ≤ lo2.ord ∧ hi2.ord ≤ hi1.ord := by
  have hn2 : inCidr n2 n2 p2 = true := inCidr_self (cidrBounds_low h2).1
  have hle : lo2.ord ≤ hi2.ord := span_le (m := .cidr n2 p2) h2
  constructor
  · rintro ⟨hp, hin⟩
    have hlo := inCidr_of_shared hp hin hn2 ((inCidr_iff_between h2 lo2).2 ⟨Nat.le_refl _, hle⟩)
    have hhi := inCidr_of_shared hp hin hn2 ((inCidr_iff_between h2 hi2).2 ⟨hle, Nat.le_refl _⟩)
    exact ⟨((inCidr_iff_between h1 lo2).1 hlo).1, ((inCidr_iff_between h1 hi2).1 hhi).2⟩
  · rintro ⟨hlo, hhi⟩
    have hbetween := (inCidr_iff_between h2 n2).1 hn2
    exact ⟨prefix_le_of_bounds h1 h2 hlo hhi, (inCidr_iff_between h1 n2).2 (by omega)⟩

/-- **Two blocks are nested or disjoint.** -/
theorem nested_iff_bounds {n1 n2 lo1 hi1 lo2 hi2 : IpAddr} {p1 p2 : UInt8} (h1 : cidrBounds n1 p1 = some (lo1, hi1))
    (h2 : cidrBounds n2 p2 = some (lo2, hi2)) :
    (lo1.ord ≤ lo2.ord ∧ hi2.ord ≤ hi1.ord) ∨ (lo2.ord ≤ lo1.ord ∧ hi1.ord ≤ hi2.ord) ↔
      lo1.ord ≤ hi2.ord ∧ lo2.ord ≤ hi1.ord := by
  have hle1 : lo1.ord ≤ hi1.ord := span_le (m := .cidr n1 p1) h1
  have hle2 : lo2.ord ≤ hi2.ord := span_le (m := .cidr n2 p2) h2
  constructor
  · omega
  · intro h
    obtain ⟨x, hx1, hx2⟩ := (exists_common_iff_span (m := .cidr n1 p1) (n := .cidr n2 p2) h1 h2).2 h
    have hself1 := inCidr_self (cidrBounds_low h1).1
    have hself2 := inCidr_self (cidrBounds_low h2).1
    rw [← block_in_block_iff h1 h2, ← block_in_block_iff h2 h1]
    rcases UInt8.le_total p1 p2 with hp | hp
    · exact Or.inl ⟨hp, inCidr_of_shared hp hx1 hx2 hself2⟩
    · exact Or.inr ⟨hp, inCidr_of_shared hp hx2 hx1 hself1⟩

/-! ## The relations of the lint pass -/

/-- The arms of `AddressMatcher.isSupersetOf` that ask something else than containment: a single address against a
wider range or block is asked for membership in it, and a range of mixed families is compared end by end although it
has no address. -/
def AddressMatcher.overreaches : AddressMatcher → AddressMatcher → Bool
  | .single _, .range start end_ => start != end_
  | .single a, .cidr _ prefixLen => prefixLen != a.width
  | .range s1 e1, .range _ _ => !sameFamily s1 e1
  | _, _ => false

/-- The arms that overreach, with what they test. -/
def AddressMatcher.slips : AddressMatcher → AddressMatcher → Bool
  | .single a, .range start end_ => inRange a start end_ && start != end_
  | .single a, .cidr addr prefixLen => inCidr a addr prefixLen && prefixLen != a.width
  | .range s1 e1, .range s2 e2 => (cmpAddr s2 s1).isGE && (cmpAddr e2 e1).isLE && !sameFamily s1 e1
  | _, _ => false

theorem AddressMatcher.slips_eq (m n : AddressMatcher) : m.slips n = (m.isSupersetOf n && m.overreaches n) := by
  cases m <;> cases n <;> simp only [slips, isSupersetOf, overreaches, Bool.and_false]

/-- An address that lies in a block is all of it, or the block is wider. -/
theorem single_over_block_iff {a net lo hi : IpAddr} {p : UInt8} (h : cidrBounds net p = some (lo, hi)) :
    inCidr a net p = true ↔ (inCidr a net p = true ∧ p ≠ a.width) ∨ (a.ord ≤ lo.ord ∧ hi.ord ≤ a.ord) := by
  have hle : lo.ord ≤ hi.ord := span_le (m := .cidr net p) h
  constructor
  · intro hin
    by_cases hp : p = a.width
    · rw [((inCidr_iff_low a net p).1 hin).1, ← bounds_eq_iff h] at hp
      have hbetween := (inCidr_iff_between h a).1 hin
      exact Or.inr (by omega)
    · exact Or.inl ⟨hin, hp⟩
  · rintro (⟨hin, -⟩ | hends)
    · exact hin
    · exact (inCidr_iff_between h a).2 (by omega)

theorem single_over_range_iff {a s e : IpAddr} (hf : sameFamily s e = true) (hle : s.ord ≤ e.ord) :
    inRange a s e = true ↔ (inRange a s e = true ∧ s ≠ e) ∨ (a.ord ≤ s.ord ∧ e.ord ≤ a.ord) := by
  rw [inRange_iff]
  constructor
  · intro hin
    by_cases he : s = e
    · subst he
      exact Or.inr (by omega)
    · exact Or.inl ⟨hin, he⟩
  · rintro (⟨hin, -⟩ | hends)
    · exact hin
    · exact ⟨hf, by omega, by omega⟩

theorem AddressMatcher.isSupersetOf_any {m : AddressMatcher} (hm : m ≠ .any) :
    m.isSupersetOf .any = false ∧ m.slips .any = false := by
  cases m with
  | any => exact absurd rfl hm
  | single a => exact ⟨rfl, rfl⟩
  | cidr a1 p1 => exact ⟨rfl, rfl⟩
  | range s1 e1 => exact ⟨rfl, rfl⟩

/-- **`isSupersetOf` compares spans**, but for the arms that slip. -/
theorem AddressMatcher.isSupersetOf_iff_span {m n : AddressMatcher} {lo hi lo' hi' : IpAddr}
    (hm : m.span = some (lo, hi)) (hn : n.span = some (lo', hi')) :
    m.isSupersetOf n = true ↔ m.slips n = true ∨ (lo.ord ≤ lo'.ord ∧ hi'.ord ≤ hi.ord) := by
  have hle := span_le hn
  by_cases hany : m = .any
  · subst hany
    cases hm
    have hlt := hi'.ord_lt
    rw [ord_first, ord_last]
    exact ⟨fun _ => Or.inr ⟨Nat.zero_le _, by omega⟩, fun _ => rfl⟩
  by_cases hany' : n = .any
  · subst hany'
    cases hn
    obtain ⟨hsup, hslip⟩ := isSupersetOf_any hany
    simpa only [hsup, hslip, Bool.false_eq_true, false_or, false_iff] using not_span_around hany hm
  cases m with
  | any => exact absurd rfl hany
  | single a =>
    obtain ⟨rfl, rfl⟩ := span_single_iff.1 hm
    cases n with
    | any => exact absurd rfl hany'
    | single b =>
      obtain ⟨rfl, rfl⟩ := span_single_iff.1 hn
      simp only [isSupersetOf, slips, beq_iff_eq, Bool.false_eq_true, false_or]
      exact ⟨fun h => by subst h; omega, fun h => IpAddr.ord_inj (by omega)⟩
    | cidr a2 p2 =>
      simp only [isSupersetOf, slips, Bool.and_eq_true, bne_iff_ne]
      exact single_over_block_iff hn
    | range s2 e2 =>
      obtain ⟨⟨hf, -⟩, rfl, rfl⟩ := span_range_iff.1 hn
      simp only [isSupersetOf, slips, Bool.and_eq_true, bne_iff_ne]
      exact single_over_range_iff hf hle
  | cidr a1 p1 =>
    cases n with
    | any => exact absurd rfl hany'
    | single b =>
      obtain ⟨rfl, rfl⟩ := span_single_iff.1 hn
      simp only [isSupersetOf, slips, Bool.false_eq_true, false_or, inCidr_iff_between hm]
    | cidr a2 p2 =>
      simp only [isSupersetOf, slips, Bool.and_eq_true, decide_eq_true_eq, Bool.false_eq_true, false_or]
      exact block_in_block_iff hm hn
    | range s2 e2 =>
      obtain ⟨-, rfl, rfl⟩ := span_range_iff.1 hn
      simp only [isSupersetOf, slips, Bool.and_eq_true, Bool.false_eq_true, false_or, inCidr_iff_between hm]
      omega
  | range s1 e1 =>
    obtain ⟨⟨hf, -⟩, rfl, rfl⟩ := span_range_iff.1 hm
    cases n with
    | any => exact absurd rfl hany'
    | single b =>
      obtain ⟨rfl, rfl⟩ := span_single_iff.1 hn
      simp only [isSupersetOf, slips, Bool.false_eq_true, false_or, inRange_iff, hf, true_and]
    | cidr a2 p2 =>
      rw [span] at hn
      simp only [isSupersetOf, slips, hn, Bool.and_eq_true, Bool.false_eq_true, false_or, inRange_iff, hf, true_and]
      omega
    | range s2 e2 =>
      obtain ⟨-, rfl, rfl⟩ := span_range_iff.1 hn
      simp only [isSupersetOf, slips, hf, Bool.not_true, Bool.and_false, Bool.false_eq_true, false_or, Bool.and_eq_true,
        cmpAddr_isGE, cmpAddr_isLE]

/-- **`overlaps` compares spans.** -/
theorem AddressMatcher.overlaps_iff_span {m n : AddressMatcher} {lo hi lo' hi' : IpAddr}
    (hm : m.span = some (lo, hi)) (hn : n.span = some (lo', hi')) :
    m.overlaps n = true ↔ lo.ord ≤ hi'.ord ∧ lo'.ord ≤ hi.ord := by
  cases m with
  | any =>
    cases hm
    have hlt := lo'.ord_lt
    rw [ord_first, ord_last]
    exact ⟨fun _ => ⟨Nat.zero_le _, by omega⟩, fun _ => rfl⟩
  | single a =>
    obtain ⟨rfl, rfl⟩ := span_single_iff.1 hm
    rw [and_comm, ← matchesAddr_iff_between hn]
    cases n with
    | any => rfl
    | single b => rfl
    | cidr a2 p2 => rfl
    | range s2 e2 => rfl
  | cidr a1 p1 =>
    cases n with
    | any =>
      cases hn
      have hlt := lo.ord_lt
      rw [ord_first, ord_last]
      exact ⟨fun _ => ⟨by omega, Nat.zero_le _⟩, fun _ => rfl⟩
    | single b =>
      obtain ⟨rfl, rfl⟩ := span_single_iff.1 hn
      exact inCidr_iff_between hm b
    | cidr a2 p2 =>
      rw [← nested_iff_bounds hm hn, ← block_in_block_iff hm hn, ← block_in_block_iff hn hm]
      simp only [overlaps, isSupersetOf, Bool.or_eq_true, Bool.and_eq_true, decide_eq_true_eq]
    | range s2 e2 =>
      obtain ⟨-, rfl, rfl⟩ := span_range_iff.1 hn
      rw [span] at hm
      simp only [overlaps, hm, Bool.and_eq_true, cmpAddr_isLE]
  | range s1 e1 =>
    obtain ⟨⟨hf, -⟩, rfl, rfl⟩ := span_range_iff.1 hm
    cases n with
    | any =>
      cases hn
      have hlt := s1.ord_lt
      rw [ord_first, ord_last]
      exact ⟨fun _ => ⟨by omega, Nat.zero_le _⟩, fun _ => rfl⟩
    | single b =>
      obtain ⟨rfl, rfl⟩ := span_single_iff.1 hn
      simp only [overlaps, inRange_iff, hf, true_and]
    | cidr a2 p2 =>
      rw [span] at hn
      simp only [overlaps, hn, Bool.and_eq_true, cmpAddr_isLE]
      exact and_comm
    | range s2 e2 =>
      obtain ⟨-, rfl, rfl⟩ := span_range_iff.1 hn
      simp only [overlaps, Bool.and_eq_true, cmpAddr_isLE]

/-! ## What they say of addresses -/

/-- What passes without overreaching is not empty. -/
theorem AddressMatcher.span_of_isSupersetOf {m n : AddressMatcher} {lo' hi' : IpAddr} (hn : n.span = some (lo', hi'))
    (h : m.isSupersetOf n = true) (ho : m.overreaches n = false) : ∃ lo hi, m.span = some (lo, hi) := by
  cases m with
  | any => exact ⟨_, _, rfl⟩
  | single a => exact ⟨_, _, rfl⟩
  | cidr a1 p1 =>
    have hmem : ∃ x, inCidr x a1 p1 = true := by
      cases n with
      | any => cases h
      | single b => exact ⟨b, h⟩
      | cidr a2 p2 => exact ⟨a2, ((Bool.and_eq_true _ _).mp h).2⟩
      | range s2 e2 => exact ⟨s2, ((Bool.and_eq_true _ _).mp h).1⟩
    obtain ⟨x, hx⟩ := hmem
    exact span_of_matchesAddr (m := .cidr a1 p1) hx
  | range s1 e1 =>
    cases n with
    | any => cases h
    | single b => exact span_of_matchesAddr (m := .range s1 e1) h
    | cidr a2 p2 =>
      rw [span] at hn
      simp only [isSupersetOf, hn, Bool.and_eq_true] at h
      exact span_of_matchesAddr (m := .range s1 e1) h.1
    | range s2 e2 =>
      obtain ⟨⟨-, hle⟩, -⟩ := span_range_iff.1 hn
      simp only [isSupersetOf, overreaches, Bool.and_eq_true, cmpAddr_isGE, cmpAddr_isLE, Bool.not_eq_false'] at h ho
      exact ⟨s1, e1, span_range_iff.2 ⟨⟨ho, by omega⟩, rfl, rfl⟩⟩

/-- **`isSupersetOf` is containment** off the overreaching arms. -/
theorem AddressMatcher.isSupersetOf_sound {m n : AddressMatcher} (h : m.isSupersetOf n = true)
    (ho : m.overreaches n = false) {x : IpAddr} (hx : n.matchesAddr x = true) : m.matchesAddr x = true := by
  obtain ⟨lo', hi', hn⟩ := span_of_matchesAddr hx
  obtain ⟨lo, hi, hm⟩ := span_of_isSupersetOf hn h ho
  rw [isSupersetOf_iff_span hm hn, slips_eq, ho, Bool.and_false, Bool.false_eq_true, false_or] at h
  exact (contains_iff_span hm hn).2 h x hx

/-- **`overlaps` misses no common address.** -/
theorem AddressMatcher.overlaps_of_common {m n : AddressMatcher} {x : IpAddr} (hm : m.matchesAddr x = true)
    (hn : n.matchesAddr x = true) : m.overlaps n = true := by
  obtain ⟨lo, hi, hsm⟩ := span_of_matchesAddr hm
  obtain ⟨lo', hi', hsn⟩ := span_of_matchesAddr hn
  rw [overlaps_iff_span hsm hsn, ← exists_common_iff_span hsm hsn]
  exact ⟨x, hm, hn⟩

end Portcullis
