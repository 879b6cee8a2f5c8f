import Mathlib.Data.Set.Card
import Mathlib.Order.Interval.Finset.Nat
import Portcullis.Address
/-!
# Cidr — the two CIDR paths and their arithmetic

`in_cidr` tests masked words, `cidr_bounds` computes the ends: the same block (`cidr_paths_agree`), of `2 ^ (width -
prefix)` addresses (`encard_block`), with no subtraction that underflows and no shift by the word width
(`inCidrChecked_eq`, `cidrBoundsChecked_eq`).
-/
namespace Portcullis

/-! ## Arithmetic that can fail -/

/-- `a - b` of `u8`, `none` where it underflows. -/
def subChecked (a b : UInt8) : Option UInt8 := if b ≤ a then some (a - b) else none

/-- `x << n` of a `w`-bit word, `none` where the shift reaches the width. -/
def shlChecked {w : Nat} (x : BitVec w) (n : UInt8) : Option (BitVec w) :=
  if n.toNat < w then some (x <<< n.toNat) else none

def cidrMaskChecked (w : Nat) (width prefixLen : UInt8) : Option (BitVec w) :=
  if prefixLen = 0 then some 0
  else do
    let shift ← subChecked width prefixLen
    shlChecked (BitVec.allOnes w) shift

def inCidrChecked (a net : IpAddr) (prefixLen : UInt8) : Option Bool :=
  match a, net with
  | .v4 a, .v4 n =>
    if prefixLen > 32 then some false
    else do
      let mask ← cidrMaskChecked 32 32 prefixLen
      some ((a &&& mask) == (n &&& mask))
  | .v6 a, .v6 n =>
    if prefixLen > 128 then some false
    else do
      let mask ← cidrMaskChecked 128 128 prefixLen
      some ((a &&& mask) == (n &&& mask))
  | _, _ => some false

def cidrBoundsChecked (net : IpAddr) (prefixLen : UInt8) : Option (Option (IpAddr × IpAddr)) :=
  match net with
  | .v4 n =>
    if prefixLen > 32 then some none
    else do
      let mask ← cidrMaskChecked 32 32 prefixLen
      let base := n &&& mask
      let broadcast := base ||| ~~~mask
      some (some (.v4 base, .v4 broadcast))
  | .v6 n =>
    if prefixLen > 128 then some none
    else do
      let mask ← cidrMaskChecked 128 128 prefixLen
      let base := n &&& mask
      let broadcast := base ||| ~~~mask
      some (some (.v6 base, .v6 broadcast))

/-- **The mask never fails** on a prefix within the width: where the shift would reach it, the prefix is zero. -/
theorem cidrMaskChecked_eq {w : Nat} {width p : UInt8} (hw : width.toNat = w) (hp : p ≤ width) :
    cidrMaskChecked w width p = some (cidrMask w width p) := by
  unfold cidrMaskChecked cidrMask
  by_cases h0 : p = 0
  · rw [if_pos h0, if_pos h0]
  · have hpos : 0 < p.toNat := Nat.pos_of_ne_zero (fun h => h0 (UInt8.toNat_inj.1 h))
    have hle : p.toNat ≤ width.toNat := UInt8.le_iff_toNat_le.1 hp
    have hshift : (width - p).toNat < w := by
      rw [UInt8.toNat_sub_of_le _ _ hp]
      omega
    rw [if_neg h0, if_neg h0, subChecked, if_pos hp, Option.bind_eq_bind, Option.bind_some, shlChecked, if_pos hshift]

/-- So a branch that tests the prefix first and then uses the mask never fails. -/
theorem maskBranch_eq {w : Nat} (width : UInt8) {p : UInt8} (hw : width.toNat = w) {α : Type} (x : α) (f : BitVec w → α) :
    (if p > width then some x
      else do
        let mask ← cidrMaskChecked w width p
        some (f mask)) = some (if p > width then x else f (cidrMask w width p)) := by
  by_cases hp : p > width
  · rw [if_pos hp, if_pos hp]
  · rw [if_neg hp, if_neg hp, cidrMaskChecked_eq hw (UInt8.not_lt.1 hp), Option.bind_eq_bind, Option.bind_some]

theorem inCidrChecked_eq (a net : IpAddr) (p : UInt8) : inCidrChecked a net p = some (inCidr a net p) := by
  cases a with
  | v4 a =>
    cases net with
    | v4 n => exact maskBranch_eq 32 rfl false (fun mask : BitVec 32 => (a &&& mask) == (n &&& mask))
    | v6 n => rfl
  | v6 a =>
    cases net with
    | v4 n => rfl
    | v6 n => exact maskBranch_eq 128 rfl false (fun mask : BitVec 128 => (a &&& mask) == (n &&& mask))

theorem cidrBoundsChecked_eq (net : IpAddr) (p : UInt8) : cidrBoundsChecked net p = some (cidrBounds net p) := by
  cases net with
  | v4 n =>
    exact maskBranch_eq 32 rfl none
      (fun mask : BitVec 32 => some (IpAddr.v4 (n &&& mask), IpAddr.v4 ((n &&& mask) ||| ~~~mask)))
  | v6 n =>
    exact maskBranch_eq 128 rfl none
      (fun mask : BitVec 128 => some (IpAddr.v6 (n &&& mask), IpAddr.v6 ((n &&& mask) ||| ~~~mask)))

/-! ## Size -/

/-- The address of value `v` in the family of `a`. -/
def IpAddr.withVal (a : IpAddr) (v : Nat) : IpAddr :=
  match a with
  | .v4 _ => .v4 (BitVec.ofNat 32 v)
  | .v6 _ => .v6 (BitVec.ofNat 128 v)

@[simp] theorem width_withVal (a : IpAddr) (v : Nat) : (a.withVal v).width = a.width := by
  cases a <;> rfl

theorem val_withVal {a b : IpAddr} {v : Nat} (hw : a.width = b.width) (hv : v ≤ b.val) : (a.withVal v).val = v := by
  cases a <;> cases b <;> simp only [IpAddr.withVal, IpAddr.val, BitVec.toNat_ofNat] at *
  case v4.v4 a b => exact Nat.mod_eq_of_lt (Nat.lt_of_le_of_lt hv b.isLt)
  case v6.v6 a b => exact Nat.mod_eq_of_lt (Nat.lt_of_le_of_lt hv b.isLt)
  all_goals cases hw

/-- The values of a block are those between its ends. -/
theorem image_val_block {net lo hi : IpAddr} {p : UInt8} (h : cidrBounds net p = some (lo, hi)) :
    IpAddr.val '' {a | inCidr a net p = true} = Set.Icc lo.val hi.val := by
  obtain ⟨hp, hlo, hhi, hlov, hhiv⟩ := cidrBounds_low h
  ext v
  constructor
  · rintro ⟨a, ha, rfl⟩
    obtain ⟨-, -, hlow⟩ := (inCidr_iff_low a net p).1 ha
    rw [hlov, hhiv]
    exact (Blocks.low_eq_iff_between _ _ _).1 hlow
  · rintro ⟨hlov', hhiv'⟩
    have hval : (net.withVal v).val = v := val_withVal hhi.symm hhiv'
    refine ⟨net.withVal v, (inCidr_iff_low _ _ _).2 ⟨width_withVal _ _, hp, ?_⟩, hval⟩
    rw [Blocks.low_eq_iff_between, hval, ← hlov, ← hhiv]
    exact ⟨hlov', hhiv'⟩

theorem injOn_val_block (net : IpAddr) (p : UInt8) : Set.InjOn IpAddr.val {a | inCidr a net p = true} := by
  intro a ha b hb hv
  obtain ⟨hwa, -⟩ := (inCidr_iff_low a net p).1 ha
  obtain ⟨hwb, -⟩ := (inCidr_iff_low b net p).1 hb
  exact IpAddr.eq_of_width_of_val (hwa.trans hwb.symm) hv

/-- **The size of a block.** -/
theorem encard_block (net : IpAddr) (p : UInt8) : Set.encard {a | inCidr a net p = true} =
    ((if p ≤ net.width then 2 ^ (net.width.toNat - p.toNat) else 0 : Nat) : ENat) := by
  by_cases hp : p ≤ net.width
  · obtain ⟨⟨lo, hi⟩, hb⟩ := Option.isSome_iff_exists.1 ((cidrBounds_isSome_iff net p).2 hp)
    obtain ⟨-, -, -, hlov, hhiv⟩ := cidrBounds_low hb
    have hsize : hi.val + 1 - lo.val = 2 ^ (net.width.toNat - p.toNat) := by
      have hpos := Nat.two_pow_pos (net.width.toNat - p.toNat)
      rw [hlov, hhiv, Blocks.high]
      omega
    rw [if_pos hp, ← (injOn_val_block net p).encard_image, image_val_block hb, ← Finset.coe_Icc,
      Set.encard_coe_eq_coe_finsetCard, Nat.card_Icc, hsize]
  · have hempty : {a | inCidr a net p = true} = ∅ := by
      ext a
      simp [inCidr_iff_low, hp]
    rw [if_neg hp, hempty, Set.encard_empty, Nat.cast_zero]

/-- **The two CIDR paths agree**, on a block of the size its prefix says, and neither can fail. -/
theorem cidr_paths_agree (net : IpAddr) (p : UInt8) :
    (∀ a, inCidr a net p = true ↔ ∃ lo hi, cidrBounds net p = some (lo, hi) ∧ sameFamily lo net = true ∧
      sameFamily hi net = true ∧ inRange a lo hi = true) ∧
    Set.encard {a | inCidr a net p = true} =
      ((if p ≤ net.width then 2 ^ (net.width.toNat - p.toNat) else 0 : Nat) : ENat) ∧
    (∀ a, inCidrChecked a net p = some (inCidr a net p)) ∧ cidrBoundsChecked net p = some (cidrBounds net p) := by
  refine ⟨fun a => ?_, encard_block net p, fun a => inCidrChecked_eq a net p, cidrBoundsChecked_eq net p⟩
  rw [inCidr_iff]
  refine exists_congr (fun lo => exists_congr (fun hi => and_congr_right (fun hb => ?_)))
  obtain ⟨-, hlo, hhi, -⟩ := cidrBounds_low hb
  rw [inRange_iff, sameFamily_iff_width, sameFamily_iff_width, sameFamily_iff_width]
  exact ⟨fun h => ⟨hlo, hhi, hlo.trans hhi.symm, h⟩, fun h => h.2.2.2⟩

end Portcullis
