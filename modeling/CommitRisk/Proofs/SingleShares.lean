import CommitRisk.Proofs.FloatBits
import CommitRisk.Proofs.RoundedArithmetic

/-!
# Shares in Single Precision

A share is worked out from two counts. Each becomes the single nearest to it, they are divided,
and the quotient is rounded to a single once more. None of these steps leaves the range of
singles: a count is below two to the 64th, and rounding keeps the order, so the single of a
part is at most that of the whole and their quotient is at most one.

How a count becomes a single depends on its size. A small count goes through a machine word and
a product with one, a large one through the reading of decimals. Both end with the nearest
single.

## Main definitions

* `nearestSingle`: The single nearest to a number.

## Theorems

* `nearestSingle_count`: The single of a count is in range.
* `ofNat_stands`: A count becomes the nearest single.
* `nearestSingle_share`: A share is at most one.
* `share_stands`: What is worked out as a share.
-/

namespace CommitRisk

open Float.Model (Format UnpackedFloat totalExponent)
open Float.Model.UnpackedFloat

variable {u : UnpackedFloat}

/-! ## The nearest single -/

/-- The single nearest to a number, without regard to how large singles can get. -/
def nearestSingle (x : Rat) : Rat :=
  rounded Format.binary32 x

theorem nearestSingle_zero : nearestSingle 0 = 0 :=
  rounded_zero Format.binary32

theorem nearestSingle_one : nearestSingle 1 = 1 := by
  have hpower := rounded_two_zpow Format.binary32 0 (by decide)
  rwa [zpow_zero] at hpower

/-- The single nearest to a count is at least one and not out of range. -/
theorem nearestSingle_count (n : Nat) (hpos : 0 < n) (hlt : n < 2 ^ 64) :
    1 ≤ nearestSingle n ∧ nearestSingle n < 2 ^ 2 ^ 7 := by
  have hone := rounded_mono Format.binary32 1 n one_pos (by exact_mod_cast hpos)
  have hword := rounded_mono Format.binary32 n (2 ^ (64 : Int)) (Nat.cast_pos.mpr hpos)
    (by exact_mod_cast hlt.le)
  rw [rounded_two_zpow Format.binary32 64 (by decide)] at hword
  exact ⟨nearestSingle_one ▸ hone, hword.trans_lt (by norm_num)⟩

/-- A share of a whole is rounded to at most one. -/
theorem nearestSingle_share (k n : Nat) (hpos : 0 < n) (hle : k ≤ n) (hlt : n < 2 ^ 64) :
    nearestSingle (nearestSingle k / nearestSingle n) ≤ 1 := by
  rcases Nat.eq_zero_or_pos k with rfl | hk
  · rw [Nat.cast_zero, nearestSingle_zero, zero_div, nearestSingle_zero]
    exact zero_le_one
  · have hpart := nearestSingle_count k hk (hle.trans_lt hlt)
    have hwhole := nearestSingle_count n hpos hlt
    have hmono : nearestSingle k ≤ nearestSingle n :=
      rounded_mono Format.binary32 k n (Nat.cast_pos.mpr hk) (Nat.cast_le.mpr hle)
    have hquotient : nearestSingle k / nearestSingle n ≤ 1 := by
      rw [div_le_one (by linarith)]
      exact hmono
    have hrounded := rounded_mono Format.binary32 _ 1 (by apply div_pos <;> linarith) hquotient
    exact hrounded.trans_eq nearestSingle_one

/-! ## Counts -/

/-- Packing a count keeps the single that is nearest to it. -/
theorem unpack_packCount (n : Nat) (hpos : 0 < n) (hlt : n < 2 ^ 64)
    (h : Stands Format.binary32 .positive u (nearestSingle n)) :
    (Float32.ofModel (.pack u)).toModel.unpack = u :=
  h.unpack_pack (by decide) (nearestSingle_count n hpos hlt).2

/-- A word becomes the single nearest to it. -/
theorem toFloat32_stands (n : Nat) (hpos : 0 < n) (hlt : n < 2 ^ 64) :
    Stands Format.binary32 .positive n.toUInt64.toFloat32.toModel.unpack (nearestSingle n) := by
  have hround : UnpackedFloat.ofUInt64 Format.binary32 n.toUInt64
      = UnpackedFloat.round Format.binary32 .positive n 0 := by
    rw [UnpackedFloat.ofUInt64, UInt64.toNat_ofNat_of_lt' hlt, UnpackedFloat.ofNat,
      UnpackedFloat.ofInt]
    unfold UnpackedFloat.normalize
    rw [Int.compare_eq_gt.mpr (Int.natCast_pos.mpr hpos)]
    rfl
  have hstands := round_stands Format.binary32 .positive n 0 hpos
  rw [zpow_zero, mul_one] at hstands
  change Stands Format.binary32 .positive
    (Float32.ofModel (.pack (UnpackedFloat.ofUInt64 Format.binary32 n.toUInt64))).toModel.unpack _
  rw [hround, unpack_packCount n hpos hlt hstands]
  exact hstands

/-- Multiplying by one changes nothing. -/
theorem mul_one_stands (u : UnpackedFloat) (x : Rat) (hx : 0 < x)
    (h : Stands Format.binary32 .positive u x) :
    Stands Format.binary32 .positive
      (UnpackedFloat.mul Format.binary32 u (.finite .positive (2 ^ 23) (-23) (by decide))) x := by
  have hfixed := rounded_of_stands h
  cases h with
  | zero => exact absurd hx (lt_irrefl 0)
  | finite mantissa exponent hpos hplace =>
      have hproduct : Stands Format.binary32 (.positive * .positive) _ _ :=
        mul_stands mantissa (2 ^ 23) exponent (-23) hpos (by decide) (by
          rw [log2_mul_two_pow mantissa 23 hpos]
          exact Nat.le_add_left 24 mantissa.log2)
      rwa [show ((2 ^ 23 : Nat) : Rat) * 2 ^ (-23 : Int) = 1 by norm_num, mul_one, hfixed]
        at hproduct

/-- A whole number is a product with one when it is read as a decimal. -/
theorem ofScientific_stands (n : Nat) (hpos : 0 < n) :
    Stands Format.binary32 .positive (UnpackedFloat.ofScientific Format.binary32 n 0)
      (nearestSingle n) := by
  have hshift : 0 < n <<< 24 := by
    rw [Nat.shiftLeft_eq]
    exact Nat.mul_pos hpos (by decide)
  have hproduct : Stands Format.binary32 (.positive * .positive) _ _ :=
    mul_stands (n <<< 24) (10 ^ 0) (-24) 0 hshift (by decide) (by
      rw [pow_zero, mul_one, Nat.shiftLeft_eq, log2_mul_two_pow n 24 hpos]
      exact Nat.le_add_left 24 (n.log2 + 1))
  have hvalue : ((n <<< 24 : Nat) : Rat) * 2 ^ (-24 : Int) * ((10 ^ 0 : Nat) * 2 ^ (0 : Int))
      = n := by
    rw [Nat.shiftLeft_eq]
    push_cast
    norm_num
    ring
  rw [hvalue] at hproduct
  rw [UnpackedFloat.ofScientific, dif_neg hpos.ne', if_neg (by decide),
    if_neg (show ¬ (0 : Int) < -(2 ^ 8 + (n.log2 : Int)) by omega), if_pos (le_refl 0)]
  exact hproduct

/-- The single of a count is the one nearest to it. -/
theorem ofNat_stands (n : Nat) (hpos : 0 < n) (hlt : n < 2 ^ 64) :
    Stands Format.binary32 .positive (Float32.ofNat n).toModel.unpack (nearestSingle n) := by
  have hnearest : 0 < nearestSingle n :=
    one_pos.trans_le (nearestSingle_count n hpos hlt).1
  rw [Float32.ofNat]
  change Stands _ _ (Float32.ofScientific n false 0).toModel.unpack _
  by_cases hsmall : n < 2 ^ 23
  · -- A small count is a word that is multiplied by one.
    have hfast : Float32.ofScientific n false 0
        = .ofModel (.pack (UnpackedFloat.mul Format.binary32 n.toUInt64.toFloat32.toModel.unpack
            (Float32.ofBits 0x3F800000).toModel.unpack)) := by
      rw [Float32.ofScientific, dif_pos ⟨hsmall, Nat.zero_le 10⟩]
      rfl
    have hone : (Float32.ofBits 0x3F800000).toModel.unpack
        = .finite .positive (2 ^ 23) (-23) (by decide) := by
      rfl
    have hstands := mul_one_stands _ _ hnearest (toFloat32_stands n hpos hlt)
    rw [hfast, hone, unpack_packCount n hpos hlt hstands]
    exact hstands
  · have hslow : Float32.ofScientific n false 0
        = .ofModel (.pack (UnpackedFloat.ofScientific Format.binary32 n 0)) := by
      rw [Float32.ofScientific, dif_neg fun h => hsmall h.1]
      rfl
    have hstands := ofScientific_stands n hpos
    rw [hslow, unpack_packCount n hpos hlt hstands]
    exact hstands

/-! ## Quotients -/

/-- The quotient of two counts, before it is packed. -/
theorem quotient_stands (k n : Nat) (hpos : 0 < n) (hle : k ≤ n) (hlt : n < 2 ^ 64) :
    Stands Format.binary32 .positive
      (UnpackedFloat.div Format.binary32 (Float32.ofNat k).toModel.unpack
        (Float32.ofNat n).toModel.unpack)
      (nearestSingle (nearestSingle k / nearestSingle n)) := by
  have hwhole := ofNat_stands n hpos hlt
  have hwholePos := one_pos.trans_le (nearestSingle_count n hpos hlt).1
  rcases Nat.eq_zero_or_pos k with rfl | hk
  · rw [Nat.cast_zero, nearestSingle_zero, zero_div, nearestSingle_zero]
    have hzero : Stands Format.binary32 (.positive / .positive)
        (UnpackedFloat.div Format.binary32 (.zero .positive) _) 0 := hwhole.zero_div hwholePos
    exact hzero
  · have hpart := ofNat_stands k hk (hle.trans_lt hlt)
    have hpartPos := one_pos.trans_le (nearestSingle_count k hk (hle.trans_lt hlt)).1
    exact hpart.div hwhole hpartPos hwholePos

/-- The quotient of two counts is the nearest single of the quotient of their singles. -/
theorem share_stands (k n : Nat) (hpos : 0 < n) (hle : k ≤ n) (hlt : n < 2 ^ 64) :
    Stands Format.binary32 .positive (Float32.ofNat k / Float32.ofNat n).toModel.unpack
      (nearestSingle (nearestSingle k / nearestSingle n)) := by
  have hquotient := quotient_stands k n hpos hle hlt
  have hrange := (nearestSingle_share k n hpos hle hlt).trans_lt
    (show (1 : Rat) < 2 ^ 2 ^ 7 by norm_num)
  have hpacked := hquotient.unpack_pack (by decide) hrange
  change Stands _ _ (UnpackedFloat.unpack Format.binary32 (UnpackedFloat.pack Format.binary32 _)) _
  rw [hpacked]
  exact hquotient

end CommitRisk
