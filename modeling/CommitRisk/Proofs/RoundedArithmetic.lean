import CommitRisk.Proofs.Rounding

/-!
# Rounded Arithmetic

Every operation on floats works out the exact result as far as it is needed and rounds it once.
A product is exact, and so is a count. A quotient is worked out up to its whole part at a
place that leaves enough bits, and the remainder tells the accuracy. What comes out
stands for the nearest number of the format in each case.

Some numbers are not changed by rounding: the powers of two that are not too small, and the
whole numbers up to the length of a mantissa.

## Theorems

* `round_stands`: A mantissa at any place is rounded to the nearest number.
* `mul_stands`: So is a product of long mantissas.
* `divCore_tells`, `divCore_place`: What is known of a quotient before it is rounded.
* `Stands.div`, `Stands.zero_div`: A quotient is rounded to the nearest number.
* `rounded_two_zpow`, `rounded_natCast`: Numbers that are not changed.
-/

namespace CommitRisk

open Float.Model (Format UnpackedFloat totalExponent)
open Float.Model.UnpackedFloat

variable {spec : Format}

/-! ## Operations -/

/-- The nearest number of a format is what a mantissa at any place is rounded to. -/
theorem round_stands (spec : Format) (sign : Sign) (mantissa : Nat) (exponent : Int)
    (hpos : 0 < mantissa) :
    Stands spec sign (round spec sign mantissa exponent)
      (rounded spec (mantissa * 2 ^ exponent)) := by
  unfold UnpackedFloat.round decreaseExponent
  generalize hplace : spec.targetExponent (totalExponent mantissa exponent) = place
  have hshift : mantissa <<< (exponent - place).toNat = mantissa * 2 ^ (exponent - place).toNat :=
    Nat.shiftLeft_eq _ _
  have hposShift : 0 < mantissa * 2 ^ (exponent - place).toNat :=
    Nat.mul_pos hpos (Nat.two_pow_pos _)
  have htotal : totalExponent (mantissa * 2 ^ (exponent - place).toNat)
      (exponent - ((exponent - place).toNat : Int)) = totalExponent mantissa exponent := by
    rw [totalExponent, totalExponent, log2_mul_two_pow _ _ hpos]
    push_cast
    ring
  simp only [hshift]
  rw [← longer_mantissa mantissa (exponent - place).toNat exponent]
  refine roundWithAccuracy_stands sign ?_ (Nat.cast_pos.mpr hposShift) ?_
  · rw [sub_self]
    exact rfl
  · rw [htotal, hplace]
    omega

/-- A product is rounded to the nearest number, if the mantissas have enough bits. -/
theorem mul_stands {sign sign' : Sign} (mantissa mantissa' : Nat) (exponent exponent' : Int)
    (hpos : 0 < mantissa) (hpos' : 0 < mantissa')
    (hbits : spec.mantissaBits ≤ (mantissa * mantissa').log2 + 1) :
    Stands spec (sign * sign')
      (UnpackedFloat.mul spec (.finite sign mantissa exponent hpos)
        (.finite sign' mantissa' exponent' hpos'))
      (rounded spec (mantissa * 2 ^ exponent * (mantissa' * 2 ^ exponent'))) := by
  have hvalue : (mantissa : Rat) * 2 ^ exponent * (mantissa' * 2 ^ exponent')
      = ((mantissa * mantissa' : Nat) : Rat) * 2 ^ (exponent + exponent') := by
    rw [zpow_add₀ two_ne_zero]
    push_cast
    ring
  rw [hvalue]
  refine roundWithAccuracy_stands _ ?_ (Nat.cast_pos.mpr (Nat.mul_pos hpos hpos')) ?_
  · rw [sub_self]
    exact rfl
  · unfold Format.targetExponent totalExponent
    omega

/-- The accuracy of a fraction tells where it is. -/
theorem accuracyOfFraction_tells (part whole : Nat) (h : part < whole) :
    Tells (accuracyOfFraction part whole) ((part : Rat) / whole) := by
  have hwhole : (0 : Rat) < whole := Nat.cast_pos.mpr (Nat.zero_lt_of_lt h)
  have hhalf : (part : Rat) < whole := Nat.cast_lt.mpr h
  unfold accuracyOfFraction
  by_cases hzero : part = 0
  · rw [if_pos hzero, hzero, Nat.cast_zero, zero_div]
    exact rfl
  · rw [if_neg hzero]
    have hpart : (0 : Rat) < part := Nat.cast_pos.mpr (Nat.pos_of_ne_zero hzero)
    rcases lt_trichotomy (2 * part) whole with hlt | heq | hgt
    · rw [Nat.compare_eq_lt.mpr hlt]
      have hcast : (2 : Rat) * part < whole := by exact_mod_cast hlt
      exact ⟨div_pos hpart hwhole, by rw [div_lt_iff₀ hwhole]; linarith⟩
    · rw [Nat.compare_eq_eq.mpr heq]
      have hcast : (2 : Rat) * part = whole := by exact_mod_cast heq
      rw [Tells, div_eq_iff hwhole.ne']
      linarith
    · rw [Nat.compare_eq_gt.mpr hgt]
      have hcast : (whole : Rat) < 2 * part := by exact_mod_cast hgt
      exact ⟨by rw [lt_div_iff₀ hwhole]; linarith, by rw [div_lt_one hwhole]; exact hhalf⟩

/-- The whole part of a quotient and the accuracy of it. -/
theorem divCore_tells (spec : Format) (mantissa mantissa' : Nat) (exponent exponent' : Int)
    (hpos' : 0 < mantissa') :
    Tells (divCore spec mantissa exponent mantissa' exponent').2.2
      ((mantissa : Rat) * 2 ^ exponent / (mantissa' * 2 ^ exponent')
          / 2 ^ (divCore spec mantissa exponent mantissa' exponent').2.1
        - (divCore spec mantissa exponent mantissa' exponent').1) := by
  have hcast' : (0 : Rat) < mantissa' := Nat.cast_pos.mpr hpos'
  simp only [divCore, Nat.shiftLeft_eq]
  generalize hplace : min (exponent - exponent') (spec.targetExponent
    (totalExponent mantissa exponent - totalExponent mantissa' exponent')) = place
  generalize hdividend : mantissa * 2 ^ (exponent - exponent' - place).toNat = dividend
  have hvalue : (mantissa : Rat) * 2 ^ exponent / (mantissa' * 2 ^ exponent') / 2 ^ place
      = dividend / mantissa' := by
    have hpow : (2 : Rat) ^ exponent
        = 2 ^ (exponent - exponent' - place).toNat * (2 ^ exponent' * 2 ^ place) := by
      rw [← zpow_natCast, ← zpow_add₀ two_ne_zero, ← zpow_add₀ two_ne_zero]
      congr 1
      omega
    rw [div_div, mul_assoc, hpow, ← mul_assoc,
      mul_div_mul_right _ _ (mul_pos (two_zpow_pos exponent') (two_zpow_pos place)).ne',
      ← hdividend]
    push_cast
    rfl
  have hrest : (dividend : Rat) / mantissa' - (dividend / mantissa' : Nat)
      = (dividend % mantissa' : Nat) / mantissa' := by
    rw [eq_div_iff hcast'.ne', sub_mul, div_mul_cancel₀ _ hcast'.ne', sub_eq_iff_eq_add']
    exact_mod_cast (Nat.div_add_mod' dividend mantissa').symm
  rw [hvalue, hrest]
  exact accuracyOfFraction_tells _ _ (Nat.mod_lt _ hpos')

/-- The whole part of a quotient has enough bits. -/
theorem divCore_place (spec : Format) (mantissa mantissa' : Nat) (exponent exponent' : Int)
    (hpos : 0 < mantissa) (hpos' : 0 < mantissa') :
    (divCore spec mantissa exponent mantissa' exponent').2.1 ≤ spec.targetExponent
      (totalExponent (divCore spec mantissa exponent mantissa' exponent').1
        (divCore spec mantissa exponent mantissa' exponent').2.1) := by
  simp only [divCore, Nat.shiftLeft_eq]
  generalize hplace : min (exponent - exponent') (spec.targetExponent
    (totalExponent mantissa exponent - totalExponent mantissa' exponent')) = place
  unfold Format.targetExponent totalExponent at hplace ⊢
  by_cases hmin : place ≤ spec.minExponent
  · omega
  · -- Otherwise the quotient was shifted for the sake of its bits.
    have hbits : (spec.mantissaBits - 1) + (mantissa'.log2 + 1)
        ≤ mantissa.log2 + (exponent - exponent' - place).toNat := by
      have := mantissaBits_pos spec
      omega
    have hquotient : 2 ^ (spec.mantissaBits - 1)
        ≤ mantissa * 2 ^ (exponent - exponent' - place).toNat / mantissa' := by
      rw [Nat.le_div_iff_mul_le hpos']
      calc 2 ^ (spec.mantissaBits - 1) * mantissa'
          ≤ 2 ^ (spec.mantissaBits - 1) * 2 ^ (mantissa'.log2 + 1) :=
            Nat.mul_le_mul_left _ Nat.lt_log2_self.le
        _ ≤ 2 ^ mantissa.log2 * 2 ^ (exponent - exponent' - place).toNat := by
            rw [← pow_add, ← pow_add]
            exact Nat.pow_le_pow_right Nat.two_pos hbits
        _ ≤ mantissa * 2 ^ (exponent - exponent' - place).toNat :=
            Nat.mul_le_mul_right _ (Nat.log2_self_le hpos.ne')
    have hlog := (Nat.le_log2 ((Nat.two_pow_pos _).trans_le hquotient).ne').mpr hquotient
    have := mantissaBits_pos spec
    omega

/-- A quotient is rounded to the nearest number. -/
theorem Stands.div {sign sign' : Sign} {u v : UnpackedFloat} {x y : Rat}
    (hu : Stands spec sign u x) (hv : Stands spec sign' v y) (hx : 0 < x) (hy : 0 < y) :
    Stands spec (sign / sign') (UnpackedFloat.div spec u v) (rounded spec (x / y)) := by
  cases hu with
  | zero => exact absurd hx (lt_irrefl 0)
  | finite mantissa exponent hpos _ =>
      cases hv with
      | zero => exact absurd hy (lt_irrefl 0)
      | finite mantissa' exponent' hpos' _ =>
          have htells := divCore_tells spec mantissa mantissa' exponent exponent' hpos'
          have hplace := divCore_place spec mantissa mantissa' exponent exponent' hpos hpos'
          have hstands := roundWithAccuracy_stands (sign / sign') htells
            (div_pos (div_pos hx hy) (two_zpow_pos _)) hplace
          rwa [div_mul_cancel₀ _ (two_zpow_pos _).ne'] at hstands

/-- Zero is divided without rounding. -/
theorem Stands.zero_div {sign sign' : Sign} {v : UnpackedFloat} {y : Rat}
    (hv : Stands spec sign' v y) (hy : 0 < y) :
    Stands spec (sign / sign') (UnpackedFloat.div spec (.zero sign) v) 0 := by
  cases hv with
  | zero => exact absurd hy (lt_irrefl 0)
  | finite mantissa exponent hpos _ => exact .zero

/-! ## Numbers that are kept -/

/-- A power of two that is not too small is a number of the format. -/
theorem rounded_two_zpow (spec : Format) (power : Int)
    (hpower : spec.minExponent + spec.mantissaBitsWithoutImplicit ≤ power) :
    rounded spec (2 ^ power) = 2 ^ power := by
  have hvalue := longer_mantissa 1 spec.mantissaBitsWithoutImplicit power
  rw [Nat.cast_one, one_mul, one_mul] at hvalue
  have hplace : spec.targetExponent (totalExponent (2 ^ spec.mantissaBitsWithoutImplicit)
      (power - spec.mantissaBitsWithoutImplicit)) = power - spec.mantissaBitsWithoutImplicit := by
    rw [totalExponent, Nat.log2_two_pow, Format.targetExponent, Format.mantissaBits]
    omega
  have hstands : Stands spec .positive _ _ := .finite _ _ (Nat.two_pow_pos _) hplace
  rw [← hvalue, rounded_of_stands hstands]

/-- Up to the length of a mantissa a whole number is a number of a format. -/
theorem rounded_natCast (spec : Format) (n : Nat) (hmin : spec.minExponent ≤ 0)
    (hle : n ≤ 2 ^ spec.mantissaBits) : rounded spec n = n := by
  rcases hle.lt_or_eq with hlt | rfl
  · have hplace : lastPlace spec n ≤ 0 := by
      rcases Nat.eq_zero_or_pos n with rfl | hpos
      · rw [lastPlace, Format.targetExponent, Nat.cast_zero, Int.log_zero_right]
        have := mantissaBits_pos spec
        omega
      · have hlog := log_of_floor n n 0 hpos le_rfl (lt_add_one _)
        rw [zpow_zero, mul_one] at hlog
        have hbits := (Nat.log2_lt hpos.ne').mpr hlt
        rw [lastPlace, Format.targetExponent, hlog]
        omega
    rcases Int.eq_ofNat_of_zero_le (show 0 ≤ -lastPlace spec n by omega) with ⟨places, hplaces⟩
    have hwhole : (n : Rat) / 2 ^ lastPlace spec n = (n * 2 ^ places : Nat) := by
      rw [show lastPlace spec n = -(places : Int) by omega, zpow_neg, div_inv_eq_mul, zpow_natCast]
      push_cast
      rfl
    rw [rounded, hwhole, nearestEven_natCast, ← hwhole, div_mul_cancel₀ _ (two_zpow_pos _).ne']
  · have hpower := rounded_two_zpow spec spec.mantissaBits (by
      have := spec.hm
      rw [Format.mantissaBits]
      omega)
    rw [zpow_natCast] at hpower
    exact_mod_cast hpower

end CommitRisk
