import Mathlib.Algebra.Group.Nat.Defs
/-!
# Blocks — aligned blocks of words

A high mask `allOnes <<< k` cuts the `w`-bit words into blocks of `2 ^ k` consecutive values.  The masked word is the
block's first value (`toNat_and_high`), the masked word with the low bits set its last (`toNat_or_low`), and two words
have the same masked value exactly when one lies between the other's bounds (`and_high_eq_iff_between`).
-/
namespace Blocks

variable {w : Nat}

/-- First value of the block of `2 ^ k` values around `n`. -/
def low (k n : Nat) : Nat := n / 2 ^ k * 2 ^ k

/-- Last value of the block of `2 ^ k` values around `n`. -/
def high (k n : Nat) : Nat := low k n + (2 ^ k - 1)

theorem and_high_eq_shift (k : Nat) (x : BitVec w) : x &&& (BitVec.allOnes w <<< k) = (x >>> k) <<< k := by
  ext i hi
  simp only [BitVec.getElem_and, BitVec.getElem_shiftLeft, BitVec.getElem_allOnes, BitVec.getElem_ushiftRight]
  by_cases hik : i < k
  · simp [hik]
  · rw [show k + (i - k) = i by omega]
    simp [hik, hi]

theorem low_lt (k : Nat) (x : BitVec w) : low k x.toNat < 2 ^ w :=
  Nat.lt_of_le_of_lt (Nat.div_mul_le_self _ _) x.isLt

/-- **The masked word is the first value of its block.** -/
theorem toNat_and_high (k : Nat) (x : BitVec w) : (x &&& (BitVec.allOnes w <<< k)).toNat = low k x.toNat := by
  rw [and_high_eq_shift, BitVec.toNat_shiftLeft, BitVec.toNat_ushiftRight, Nat.shiftLeft_eq, Nat.shiftRight_eq_div_pow]
  exact Nat.mod_eq_of_lt (low_lt k x)

theorem toNat_not_high {k : Nat} (hk : k ≤ w) : (~~~(BitVec.allOnes w <<< k)).toNat = 2 ^ k - 1 := by
  have hall : BitVec.allOnes w <<< k = BitVec.allOnes w &&& (BitVec.allOnes w <<< k) := by simp
  have hw : 2 ^ w = 2 ^ (w - k) * 2 ^ k := by rw [← Nat.pow_add, Nat.sub_add_cancel hk]
  have hpos : 0 < 2 ^ k := Nat.two_pow_pos k
  have hpos' : 0 < 2 ^ (w - k) := Nat.two_pow_pos _
  have hlow : low k (2 ^ w - 1) = 2 ^ w - 2 ^ k := by
    have hdiv : (2 ^ w - 1) / 2 ^ k = 2 ^ (w - k) - 1 := by
      rw [hw, Nat.mul_comm, Nat.mul_sub_div _ _ _ (by
        rw [← Nat.mul_comm]; exact Nat.mul_pos hpos' hpos)]
      simp
    unfold low
    rw [hdiv, Nat.sub_mul, Nat.one_mul, ← hw]
  have hle : 2 ^ k ≤ 2 ^ w := Nat.pow_le_pow_right (by decide) hk
  rw [BitVec.toNat_not, hall, toNat_and_high, BitVec.toNat_allOnes, hlow]
  omega

/-- **The masked word with its low bits set is the last value of its block.** -/
theorem toNat_or_low {k : Nat} (hk : k ≤ w) (x : BitVec w) :
    ((x &&& (BitVec.allOnes w <<< k)) ||| ~~~(BitVec.allOnes w <<< k)).toNat = high k x.toNat := by
  have hdisj : (x &&& (BitVec.allOnes w <<< k)) &&& ~~~(BitVec.allOnes w <<< k) = 0#w := by
    rw [BitVec.and_assoc, BitVec.and_not_self]; simp
  have hw : 2 ^ w = 2 ^ (w - k) * 2 ^ k := by rw [← Nat.pow_add, Nat.sub_add_cancel hk]
  have hlt : low k x.toNat + (2 ^ k - 1) < 2 ^ w := by
    have hdiv : x.toNat / 2 ^ k < 2 ^ (w - k) := by
      rw [Nat.div_lt_iff_lt_mul (Nat.two_pow_pos k), ← hw]; exact x.isLt
    have hmul : (x.toNat / 2 ^ k + 1) * 2 ^ k ≤ 2 ^ w := by rw [hw]; exact Nat.mul_le_mul_right _ hdiv
    have hpos : 0 < 2 ^ k := Nat.two_pow_pos k
    rw [Nat.add_mul, Nat.one_mul] at hmul
    unfold low
    omega
  rw [← BitVec.add_eq_or_of_and_eq_zero _ _ hdisj, BitVec.toNat_add, toNat_and_high, toNat_not_high hk]
  exact Nat.mod_eq_of_lt hlt

theorem low_le (k n : Nat) : low k n ≤ n := Nat.div_mul_le_self _ _

theorem le_high (k n : Nat) : n ≤ high k n := by
  have hsplit := Nat.div_add_mod n (2 ^ k)
  have hmod := Nat.mod_lt n (Nat.two_pow_pos k)
  rw [Nat.mul_comm] at hsplit
  unfold high low
  omega

/-- **Two values share a block exactly when one lies between the bounds of the other's.** -/
theorem low_eq_iff_between (k m n : Nat) : low k m = low k n ↔ low k n ≤ m ∧ m ≤ high k n := by
  constructor
  · intro h
    refine ⟨h ▸ low_le k m, ?_⟩
    unfold high
    rw [← h]
    exact le_high k m
  · rintro ⟨hlo, hhi⟩
    have hpos : 0 < 2 ^ k := Nat.two_pow_pos k
    unfold high at hhi
    unfold low at *
    have hdiv : m / 2 ^ k = n / 2 ^ k := by
      apply Nat.div_eq_of_lt_le
      · rw [Nat.mul_comm] at hlo; rwa [Nat.mul_comm]
      · rw [Nat.succ_mul]; omega
    rw [hdiv]

theorem and_high_eq_iff_between (k : Nat) (x y : BitVec w) :
    x &&& (BitVec.allOnes w <<< k) = y &&& (BitVec.allOnes w <<< k) ↔
      low k y.toNat ≤ x.toNat ∧ x.toNat ≤ high k y.toNat := by
  rw [← low_eq_iff_between, ← toNat_and_high, ← toNat_and_high, BitVec.toNat_inj]

/-- **Blocks of two sizes are nested or disjoint**: values that share a small block share every larger one. -/
theorem low_eq_of_le {k l m n : Nat} (hkl : k ≤ l) (h : low k m = low k n) : low l m = low l n := by
  have hdiv : ∀ x, x / 2 ^ l = low k x / 2 ^ l := by
    intro x
    have hl : 2 ^ l = 2 ^ k * 2 ^ (l - k) := by rw [← Nat.pow_add, Nat.add_sub_cancel' hkl]
    unfold low
    rw [hl, ← Nat.div_div_eq_div_mul, ← Nat.div_div_eq_div_mul, Nat.mul_div_cancel _ (Nat.two_pow_pos k)]
  unfold low
  rw [hdiv m, hdiv n, h]

end Blocks
