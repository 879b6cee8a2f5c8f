import Portcullis.Matcher
import Portcullis.Lib.Blocks
/-!
# Address — every address test is an interval test

`IpAddr.ord` puts the v4 addresses below the v6 ones on one line of naturals, the order `cmpAddr` decides.  On it a
range is an interval (`inRange_iff`) and so is a CIDR block, between the two bounds `cidrBounds` computes
(`inCidr_iff`); two blocks that share an address are nested (`inCidr_of_shared`).
-/
namespace Portcullis

def IpAddr.ord : IpAddr → Nat
  | .v4 a => a.toNat
  | .v6 a => 2 ^ 32 + a.toNat

theorem isIpv4_iff (a : IpAddr) : a.isIpv4 = true ↔ a.ord < 2 ^ 32 := by
  cases a with
  | v4 a => simp [IpAddr.isIpv4, IpAddr.ord, a.isLt]
  | v6 a => simp [IpAddr.isIpv4, IpAddr.ord]

theorem IpAddr.ord_inj {a b : IpAddr} (h : a.ord = b.ord) : a = b := by
  cases a with
  | v4 a =>
    cases b with
    | v4 b => simpa [IpAddr.ord, BitVec.toNat_inj] using h
    | v6 b => have := a.isLt; simp only [IpAddr.ord] at h; omega
  | v6 a =>
    cases b with
    | v4 b => have := b.isLt; simp only [IpAddr.ord] at h; omega
    | v6 b => simpa [IpAddr.ord, BitVec.toNat_inj] using h

theorem sameFamily_iff (a b : IpAddr) : sameFamily a b = true ↔ (a.ord < 2 ^ 32 ↔ b.ord < 2 ^ 32) := by
  rw [← isIpv4_iff, ← isIpv4_iff, sameFamily, beq_iff_eq, Bool.eq_iff_iff]

theorem cmpAddr_isLE (a b : IpAddr) : (cmpAddr a b).isLE = true ↔ a.ord ≤ b.ord := by
  cases a with
  | v4 a =>
    cases b with
    | v4 b => simp [cmpAddr, IpAddr.ord, Nat.isLE_compare]
    | v6 b => have := a.isLt; simp [cmpAddr, IpAddr.ord]; omega
  | v6 a =>
    cases b with
    | v4 b => have := b.isLt; simp [cmpAddr, IpAddr.ord]; omega
    | v6 b => simp [cmpAddr, IpAddr.ord, Nat.isLE_compare]

theorem cmpAddr_isGE (a b : IpAddr) : (cmpAddr a b).isGE = true ↔ b.ord ≤ a.ord := by
  cases a with
  | v4 a =>
    cases b with
    | v4 b => simp [cmpAddr, IpAddr.ord, Nat.isGE_compare]
    | v6 b => have := a.isLt; simp [cmpAddr, IpAddr.ord]; omega
  | v6 a =>
    cases b with
    | v4 b => have := b.isLt; simp [cmpAddr, IpAddr.ord]; omega
    | v6 b => simp [cmpAddr, IpAddr.ord, Nat.isGE_compare]

/-- **A range is an interval of one family**: with endpoints of both families it has no address at all. -/
theorem inRange_iff (a s e : IpAddr) :
    inRange a s e = true ↔ sameFamily s e = true ∧ s.ord ≤ a.ord ∧ a.ord ≤ e.ord := by
  simp only [inRange, Bool.and_eq_true, sameFamily_iff, cmpAddr_isLE, cmpAddr_isGE]
  omega

/-! ## CIDR blocks -/

/-- The word width of an address's family, as the `u8` prefixes are compared with. -/
def IpAddr.width : IpAddr → UInt8
  | .v4 _ => 32
  | .v6 _ => 128

def IpAddr.val : IpAddr → Nat
  | .v4 a => a.toNat
  | .v6 a => a.toNat

theorem IpAddr.eq_of_width_of_val {a b : IpAddr} (hw : a.width = b.width) (hv : a.val = b.val) : a = b := by
  cases a <;> cases b <;> simp_all [IpAddr.width, IpAddr.val, BitVec.toNat_inj]

theorem sameFamily_iff_width (a b : IpAddr) : sameFamily a b = true ↔ a.width = b.width := by
  cases a <;> cases b <;> simp [sameFamily, IpAddr.isIpv4, IpAddr.width]

theorem ord_le_iff_of_width {a b : IpAddr} (h : a.width = b.width) : a.ord ≤ b.ord ↔ a.val ≤ b.val := by
  cases a <;> cases b <;> simp_all [IpAddr.ord, IpAddr.width, IpAddr.val]

/-- What lies between two addresses of one family is of that family. -/
theorem width_eq_of_between {lo a hi : IpAddr} (h : lo.width = hi.width) (hlo : lo.ord ≤ a.ord) (hhi : a.ord ≤ hi.ord) :
    a.width = lo.width := by
  rw [← sameFamily_iff_width, sameFamily_iff] at h ⊢
  omega

theorem cidrMask_eq (w : Nat) (width p : UInt8) (hw : width.toNat = w) (hp : p ≤ width) :
    cidrMask w width p = BitVec.allOnes w <<< (w - p.toNat) := by
  unfold cidrMask
  split
  · rename_i h
    subst h
    simp [BitVec.shiftLeft_eq_zero]
  · rw [UInt8.toNat_sub_of_le _ _ hp, hw]

theorem masked_eq_iff {w : Nat} {width p : UInt8} (hw : width.toNat = w) (hp : p ≤ width) (a n : BitVec w) :
    a &&& cidrMask w width p = n &&& cidrMask w width p ↔
      Blocks.low (width.toNat - p.toNat) a.toNat = Blocks.low (width.toNat - p.toNat) n.toNat := by
  rw [cidrMask_eq w width p hw hp, Blocks.and_high_eq_iff_between, ← Blocks.low_eq_iff_between, hw]

theorem toNat_base {w : Nat} {width p : UInt8} (hw : width.toNat = w) (hp : p ≤ width) (n : BitVec w) :
    (n &&& cidrMask w width p).toNat = Blocks.low (width.toNat - p.toNat) n.toNat := by
  rw [cidrMask_eq w width p hw hp, hw, Blocks.toNat_and_high]

theorem toNat_broadcast {w : Nat} {width p : UInt8} (hw : width.toNat = w) (hp : p ≤ width) (n : BitVec w) :
    ((n &&& cidrMask w width p) ||| ~~~cidrMask w width p).toNat = Blocks.high (width.toNat - p.toNat) n.toNat := by
  rw [cidrMask_eq w width p hw hp, hw, Blocks.toNat_or_low (Nat.sub_le w p.toNat)]

/-- **A block is one family's addresses of equal high bits.** -/
theorem inCidr_iff_low (a net : IpAddr) (p : UInt8) :
    inCidr a net p = true ↔ a.width = net.width ∧ p ≤ net.width ∧
      Blocks.low (net.width.toNat - p.toNat) a.val = Blocks.low (net.width.toNat - p.toNat) net.val := by
  cases a <;> cases net <;> simp only [inCidr, IpAddr.width, IpAddr.val]
  case v4.v4 a n =>
    by_cases hp : p ≤ 32
    · rw [if_neg (UInt8.not_lt.2 hp), beq_iff_eq, masked_eq_iff (w := 32) rfl hp]
      simp [hp]
    · rw [if_pos (UInt8.not_le.1 hp)]
      simp [hp]
  case v6.v6 a n =>
    by_cases hp : p ≤ 128
    · rw [if_neg (UInt8.not_lt.2 hp), beq_iff_eq, masked_eq_iff (w := 128) rfl hp]
      simp [hp]
    · rw [if_pos (UInt8.not_le.1 hp)]
      simp [hp]
  all_goals simp

theorem cidrBounds_isSome_iff (net : IpAddr) (p : UInt8) : (cidrBounds net p).isSome = true ↔ p ≤ net.width := by
  cases net <;> simp only [cidrBounds, IpAddr.width] <;> split <;> simp_all [UInt8.not_le]

/-- **The bounds of a block** are its first and last value, of the network's family. -/
theorem cidrBounds_low {net lo hi : IpAddr} {p : UInt8} (h : cidrBounds net p = some (lo, hi)) :
    p ≤ net.width ∧ lo.width = net.width ∧ hi.width = net.width ∧
      lo.val = Blocks.low (net.width.toNat - p.toNat) net.val ∧
      hi.val = Blocks.high (net.width.toNat - p.toNat) net.val := by
  have hp : p ≤ net.width := (cidrBounds_isSome_iff net p).1 (by rw [h, Option.isSome_some])
  cases net with
  | v4 n =>
    have hle : ¬ p > 32 := UInt8.not_lt.2 hp
    simp only [cidrBounds, if_neg hle, Option.some.injEq, Prod.mk.injEq] at h
    obtain ⟨rfl, rfl⟩ := h
    exact ⟨hp, rfl, rfl, toNat_base rfl hp n, toNat_broadcast rfl hp n⟩
  | v6 n =>
    have hle : ¬ p > 128 := UInt8.not_lt.2 hp
    simp only [cidrBounds, if_neg hle, Option.some.injEq, Prod.mk.injEq] at h
    obtain ⟨rfl, rfl⟩ := h
    exact ⟨hp, rfl, rfl, toNat_base rfl hp n, toNat_broadcast rfl hp n⟩

/-- **A block lies between its bounds**, on the line of addresses. -/
theorem inCidr_iff_between {net lo hi : IpAddr} {p : UInt8} (h : cidrBounds net p = some (lo, hi)) (a : IpAddr) :
    inCidr a net p = true ↔ lo.ord ≤ a.ord ∧ a.ord ≤ hi.ord := by
  obtain ⟨hp, hlo, hhi, hlov, hhiv⟩ := cidrBounds_low h
  have hlohi : lo.width = hi.width := hlo.trans hhi.symm
  rw [inCidr_iff_low, Blocks.low_eq_iff_between, ← hlov, ← hhiv]
  constructor
  · rintro ⟨hw, -, hle, hge⟩
    rw [ord_le_iff_of_width (hlo.trans hw.symm), ord_le_iff_of_width (hw.trans hhi.symm)]
    exact ⟨hle, hge⟩
  · rintro ⟨hle, hge⟩
    have hw : a.width = lo.width := width_eq_of_between hlohi hle hge
    rw [ord_le_iff_of_width hw.symm] at hle
    rw [ord_le_iff_of_width (hw.trans hlohi)] at hge
    exact ⟨hw.trans hlo, hp, hle, hge⟩

/-- **Block membership is an interval test** between the bounds `cidrBounds` computes. -/
theorem inCidr_iff (a net : IpAddr) (p : UInt8) :
    inCidr a net p = true ↔ ∃ lo hi, cidrBounds net p = some (lo, hi) ∧ lo.ord ≤ a.ord ∧ a.ord ≤ hi.ord := by
  cases hb : cidrBounds net p with
  | some b =>
    obtain ⟨lo, hi⟩ := b
    rw [inCidr_iff_between hb a]
    exact ⟨fun h => ⟨lo, hi, rfl, h⟩, fun ⟨_, _, he, h⟩ => by cases he; exact h⟩
  | none =>
    have hp : ¬ p ≤ net.width := fun h => by simpa [hb] using (cidrBounds_isSome_iff net p).2 h
    have hfalse : inCidr a net p = false := by
      cases a <;> cases net <;> simp_all [inCidr, IpAddr.width]
    simp [hfalse]

/-- **Blocks that share an address are nested**: the one of shorter prefix holds all of the other. -/
theorem inCidr_of_shared {x n1 n2 : IpAddr} {p1 p2 : UInt8} (hle : p1 ≤ p2) (h1 : inCidr x n1 p1 = true)
    (h2 : inCidr x n2 p2 = true) {y : IpAddr} (hy : inCidr y n2 p2 = true) : inCidr y n1 p1 = true := by
  have hle' : p1.toNat ≤ p2.toNat := UInt8.le_iff_toNat_le.1 hle
  rw [inCidr_iff_low] at *
  obtain ⟨hw1, hp1, hlow1⟩ := h1
  obtain ⟨hw2, -, hlow2⟩ := h2
  obtain ⟨hwy, -, hlowy⟩ := hy
  have hw : n1.width = n2.width := hw1.symm.trans hw2
  refine ⟨hwy.trans hw.symm, hp1, ?_⟩
  rw [← hlow1, hw]
  exact Blocks.low_eq_of_le (by omega) (hlowy.trans hlow2.symm)

theorem inCidr_self {x : IpAddr} {p : UInt8} (hp : p ≤ x.width) : inCidr x x p = true :=
  (inCidr_iff_low x x p).2 ⟨rfl, hp, rfl⟩

end Portcullis
