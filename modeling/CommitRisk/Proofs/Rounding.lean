import Mathlib

/-!
# Rounding Exactly

What the rounding of floats comes to, in exact rationals. A number is first held with finitely
many bits: a mantissa, a round bit for the half below it, and a sticky bit that tells whether
there is anything below that. Shifting out bits keeps what is needed, so in the end the
mantissa is rounded to the whole number nearest to what is held, and of two that are equally
near to the even one.

Where the last place of a number is depends on its binary logarithm only. `rounded` puts both
together without bits: the number is counted in units of its last place, and the count is
rounded. It has no largest number, so it is the right answer for a format only as long as
the answer is in its range; that is left to whoever packs the result.

`Stands` ties a float that was taken apart to the number it is. The mantissa is always at
the last place of the number, which makes it unique, and lets floats be compared by their
exponents first.

## Main definitions

* `nearestEven`: The nearest whole number, ties to even.
* `Tells`, `Holds`: What an accuracy, and a mantissa with two more bits, say of a number.
* `lastPlace`: The exponent of the last place of a number.
* `rounded`: The number of a format nearest to a number.
* `Stands`: What a float is as a number.

## Theorems

* `nearestEven_mono`: Rounding to a whole number keeps the order.
* `Holds.shiftRight`: Bits are shifted out without losing what rounding needs.
* `roundWithAccuracy_stands`: Rounding gives the nearest number of the format.
* `rounded_mono`: Rounding to a format keeps the order.
* `rounded_of_stands`: A number of the format is not changed.
* `Stands.unique`: A number stands in one way.
* `Stands.le_iff`: Floats are compared like numbers.
-/

namespace CommitRisk

open Float.Model (Format UnpackedFloat totalExponent)
open Float.Model.UnpackedFloat

/-! ## The nearest whole number -/

/-- The whole number nearest to a number that is not negative, the even one of two that are
    equally near. -/
def nearestEven (x : Rat) : Nat :=
  if x - ⌊x⌋₊ < 1 / 2 then ⌊x⌋₊
  else if 1 / 2 < x - ⌊x⌋₊ then ⌊x⌋₊ + 1
  else ⌊x⌋₊ + ⌊x⌋₊ % 2

theorem nearestEven_below (x : Rat) (h : x - ⌊x⌋₊ < 1 / 2) : nearestEven x = ⌊x⌋₊ :=
  if_pos h

theorem nearestEven_above (x : Rat) (h : 1 / 2 < x - ⌊x⌋₊) : nearestEven x = ⌊x⌋₊ + 1 := by
  rw [nearestEven, if_neg h.not_gt, if_pos h]

theorem nearestEven_half (x : Rat) (h : x - ⌊x⌋₊ = 1 / 2) :
    nearestEven x = ⌊x⌋₊ + ⌊x⌋₊ % 2 := by
  rw [nearestEven, h, if_neg (lt_irrefl _), if_neg (lt_irrefl _)]

theorem nearestEven_natCast (n : Nat) : nearestEven n = n := by
  rw [nearestEven_below, Nat.floor_natCast]
  rw [Nat.floor_natCast, sub_self]
  norm_num

theorem floor_le_nearestEven (x : Rat) : ⌊x⌋₊ ≤ nearestEven x := by
  unfold nearestEven
  split_ifs <;> omega

theorem nearestEven_le_floor_add_one (x : Rat) : nearestEven x ≤ ⌊x⌋₊ + 1 := by
  unfold nearestEven
  split_ifs <;> omega

/-- Rounding keeps the order. -/
theorem nearestEven_mono (x y : Rat) (h : x ≤ y) : nearestEven x ≤ nearestEven y := by
  rcases (Nat.floor_mono h).lt_or_eq with hlt | hfloor
  · exact (nearestEven_le_floor_add_one x).trans (hlt.trans_le (floor_le_nearestEven y))
  · -- Above the same whole number it is the rest that counts.
    have hrest : x - ⌊x⌋₊ ≤ y - ⌊y⌋₊ := by
      rw [hfloor]
      exact sub_le_sub_right h _
    rcases lt_trichotomy (x - ⌊x⌋₊) (1 / 2) with hbelow | hhalf | habove
    · rw [nearestEven_below x hbelow, hfloor]
      exact floor_le_nearestEven y
    · rw [hhalf] at hrest
      rcases hrest.lt_or_eq with habove | hhalf'
      · rw [nearestEven_half x hhalf, nearestEven_above y habove, hfloor]
        omega
      · rw [nearestEven_half x hhalf, nearestEven_half y hhalf'.symm, hfloor]
    · rw [nearestEven_above x habove, nearestEven_above y (habove.trans_le hrest), hfloor]

/-! ## Shifting out bits -/

/-- What an accuracy says of the rest of a number above a whole number. -/
def Tells : Accuracy → Rat → Prop
  | .exact, rest => rest = 0
  | .inexact .lt, rest => 0 < rest ∧ rest < 1 / 2
  | .inexact .eq, rest => rest = 1 / 2
  | .inexact .gt, rest => 1 / 2 < rest ∧ rest < 1

theorem Tells.bounds {accuracy : Accuracy} {rest : Rat} (h : Tells accuracy rest) :
    0 ≤ rest ∧ rest < 1 := by
  rcases accuracy with _ | ⟨_ | _ | _⟩ <;> simp only [Tells] at h <;> constructor <;> linarith

theorem floor_of_tells {accuracy : Accuracy} {mantissa : Nat} {x : Rat}
    (h : Tells accuracy (x - mantissa)) : ⌊x⌋₊ = mantissa := by
  have hbounds := h.bounds
  have hzero : (0 : Rat) ≤ mantissa := Nat.cast_nonneg mantissa
  rw [Nat.floor_eq_iff (by linarith)]
  constructor <;> linarith

theorem roundToNearestEven_eq {accuracy : Accuracy} {mantissa : Nat} {x : Rat}
    (h : Tells accuracy (x - mantissa)) :
    accuracy.roundToNearestEven mantissa = nearestEven x := by
  have hfloor := floor_of_tells h
  rw [← hfloor] at h ⊢
  rcases accuracy with _ | ⟨_ | _ | _⟩ <;> simp only [Tells] at h
  · rw [nearestEven_below x (h.trans_lt one_half_pos)]
    rfl
  · rw [nearestEven_below x h.2]
    rfl
  · rw [nearestEven_half x h]
    rfl
  · rw [nearestEven_above x h.1]
    rfl

/-- An extended mantissa holds what is needed to round a number: how far it is above the
    mantissa is the half that the round bit stands for and less than another half, which
    is nothing exactly if the sticky bit is not set. -/
def Holds (em : ExtendedMantissa) (x : Rat) : Prop :=
  ∃ tail : Rat, x = em.mantissa + em.roundBit.toNat / 2 + tail ∧ 0 ≤ tail ∧ tail < 1 / 2 ∧
    (em.stickyBit = false ↔ tail = 0)

theorem holds_ofMantissaAndAccuracy {accuracy : Accuracy} {mantissa : Nat} {x : Rat}
    (h : Tells accuracy (x - mantissa)) :
    Holds (.ofMantissaAndAccuracy mantissa accuracy) x := by
  rcases accuracy with _ | ⟨_ | _ | _⟩ <;>
    simp only [Tells, ExtendedMantissa.ofMantissaAndAccuracy, Holds, Bool.toNat_false,
      Bool.toNat_true, Nat.cast_zero, Nat.cast_one, zero_div, add_zero, reduceCtorEq,
      true_iff, false_iff] at h ⊢
  · exact ⟨0, by linarith, le_refl 0, by norm_num, rfl⟩
  · exact ⟨x - mantissa, by ring, h.1.le, h.2, h.1.ne'⟩
  · exact ⟨0, by linarith, le_refl 0, by norm_num, rfl⟩
  · exact ⟨x - mantissa - 1 / 2, by ring, by linarith, by linarith, by linarith⟩

theorem Holds.tells {em : ExtendedMantissa} {x : Rat} (h : Holds em x) :
    Tells em.accuracy (x - em.mantissa) := by
  rcases em with ⟨mantissa, roundBit, stickyBit⟩
  rcases h with ⟨tail, rfl, hnonneg, hlt, hsticky⟩
  cases roundBit <;> cases stickyBit <;>
    simp only [ExtendedMantissa.accuracy, Tells, Bool.toNat_false, Bool.toNat_true,
      Nat.cast_zero, Nat.cast_one, zero_div, add_zero, true_iff, reduceCtorEq, false_iff,
      add_sub_cancel_left] at hsticky ⊢
  · exact hsticky
  · exact ⟨lt_of_le_of_ne hnonneg (Ne.symm hsticky), hlt⟩
  · linarith
  · have hpos := lt_of_le_of_ne hnonneg (Ne.symm hsticky)
    constructor <;> linarith

theorem Holds.roundedMantissa {em : ExtendedMantissa} {x : Rat} (h : Holds em x) :
    em.roundedMantissa = nearestEven x :=
  roundToNearestEven_eq h.tells

/-- Shifting out a bit halves the number that is held. The bit becomes the round bit, and what
    was below it becomes the tail. -/
theorem Holds.shiftRightOne {em : ExtendedMantissa} {x : Rat} (h : Holds em x) :
    Holds em.shiftRightOne (x / 2) := by
  rcases h with ⟨tail, rfl, hnonneg, hlt, hsticky⟩
  have hparts : (em.mantissa : Rat) = 2 * (em.mantissa / 2 : Nat) + (em.mantissa % 2 : Nat) := by
    exact_mod_cast (Nat.div_add_mod em.mantissa 2).symm
  have hbit : (em.mantissa % 2 != 0).toNat = em.mantissa % 2 := by
    rcases Nat.mod_two_eq_zero_or_one em.mantissa with hbit | hbit <;> rw [hbit] <;> rfl
  have hround : (0 : Rat) ≤ em.roundBit.toNat ∧ (em.roundBit.toNat : Rat) ≤ 1 := by
    cases em.roundBit <;> norm_num
  refine ⟨(em.roundBit.toNat / 2 + tail) / 2, ?_, by linarith, by linarith, ?_⟩
  · simp only [ExtendedMantissa.shiftRightOne, hbit]
    linarith
  · simp only [ExtendedMantissa.shiftRightOne, Bool.or_eq_false_iff, hsticky]
    cases em.roundBit with
    | false => simp
    | true =>
        simp only [Bool.true_eq_false, false_and, Bool.toNat_true, Nat.cast_one, false_iff]
        linarith

theorem Holds.shiftRight {em : ExtendedMantissa} {x : Rat} (h : Holds em x) (bits : Nat) :
    Holds (em >>> bits) (x / 2 ^ bits) := by
  induction bits with
  | zero =>
      rw [pow_zero, div_one]
      exact h
  | succ bits ih =>
      rw [pow_succ, ← div_div]
      exact ih.shiftRightOne

/-! ## Rounding to a format -/

/-- The exponent of the last place of a number in a format. -/
def lastPlace (spec : Format) (x : Rat) : Int :=
  spec.targetExponent (Int.log 2 x + 1)

/-- The number of a format nearest to a number that is not negative, without regard to how
    large the numbers of the format can get. -/
def rounded (spec : Format) (x : Rat) : Rat :=
  nearestEven (x / 2 ^ lastPlace spec x) * 2 ^ lastPlace spec x

/-- What a number with a sign is in a format: a zero, or a mantissa at its last place. -/
inductive Stands (spec : Format) (sign : Sign) : UnpackedFloat → Rat → Prop where
  | zero : Stands spec sign (.zero sign) 0
  | finite (mantissa : Nat) (exponent : Int) (hpos : 0 < mantissa)
      (hplace : spec.targetExponent (totalExponent mantissa exponent) = exponent) :
      Stands spec sign (.finite sign mantissa exponent hpos) (mantissa * 2 ^ exponent)

variable {spec : Format}

theorem two_zpow_pos (e : Int) : (0 : Rat) < 2 ^ e :=
  zpow_pos (by norm_num) e

theorem mantissaBits_pos (spec : Format) : 2 ≤ spec.mantissaBits := by
  have := spec.hm
  rw [Format.mantissaBits]
  omega

/-- A longer mantissa at a lower place is the same number. -/
theorem longer_mantissa (mantissa shift : Nat) (exponent : Int) :
    ((mantissa * 2 ^ shift : Nat) : Rat) * 2 ^ (exponent - shift) = mantissa * 2 ^ exponent := by
  push_cast
  rw [mul_assoc, ← zpow_natCast, ← zpow_add₀ two_ne_zero, add_sub_cancel]

theorem log2_mul_two_pow (n bits : Nat) (hpos : 0 < n) :
    (n * 2 ^ bits).log2 = n.log2 + bits := by
  rw [Nat.log2_eq_iff (Nat.mul_pos hpos (Nat.two_pow_pos bits)).ne', add_right_comm, pow_add,
    pow_add _ _ bits]
  exact ⟨Nat.mul_le_mul_right _ (Nat.log2_self_le hpos.ne'),
    Nat.mul_lt_mul_of_pos_right Nat.lt_log2_self (Nat.two_pow_pos bits)⟩

/-- The binary logarithm of a number whose whole part is known, moved by a power. -/
theorem log_of_floor (mantissa : Nat) (y : Rat) (e : Int) (hpos : 0 < mantissa)
    (hle : mantissa ≤ y) (hlt : y < mantissa + 1) :
    Int.log 2 (y * 2 ^ e) = mantissa.log2 + e := by
  have hne : mantissa ≠ 0 := hpos.ne'
  have hy : 0 < y * 2 ^ e :=
    mul_pos (lt_of_lt_of_le (Nat.cast_pos.mpr hpos) hle) (two_zpow_pos e)
  have hlow : (2 : Rat) ^ mantissa.log2 ≤ y :=
    le_trans (by exact_mod_cast Nat.log2_self_le hne) hle
  have hhigh : y < (2 : Rat) ^ (mantissa.log2 + 1) :=
    lt_of_lt_of_le hlt (by exact_mod_cast Nat.lt_log2_self (n := mantissa))
  refine le_antisymm (Int.lt_add_one_iff.mp ?_) ?_
  · rw [← Int.lt_zpow_iff_log_lt Nat.one_lt_two hy, Nat.cast_ofNat, add_right_comm,
      zpow_add₀ two_ne_zero]
    exact mul_lt_mul_of_pos_right (by exact_mod_cast hhigh) (two_zpow_pos e)
  · rw [← Int.zpow_le_iff_le_log Nat.one_lt_two hy, Nat.cast_ofNat, zpow_add₀ two_ne_zero,
      zpow_natCast]
    exact mul_le_mul_of_nonneg_right hlow (two_zpow_pos e).le

/-- The last place is found from the whole part of a number at a finer place. -/
theorem targetExponent_eq_lastPlace {accuracy : Accuracy} {mantissa : Nat} {y : Rat} {e : Int}
    (hy : Tells accuracy (y - mantissa)) (hpos : 0 < y)
    (he : e ≤ spec.targetExponent (totalExponent mantissa e)) :
    spec.targetExponent (totalExponent mantissa e) = lastPlace spec (y * 2 ^ e) := by
  have hbounds := hy.bounds
  have hbits := mantissaBits_pos spec
  rcases Nat.eq_zero_or_pos mantissa with rfl | hmantissa
  · -- Below the finer place there is only the smallest place.
    have hlog : Int.log 2 (y * 2 ^ e) < e := by
      rw [← Int.lt_zpow_iff_log_lt Nat.one_lt_two (mul_pos hpos (two_zpow_pos e)),
        Nat.cast_ofNat]
      rw [Nat.cast_zero, sub_zero] at hbounds
      nlinarith [two_zpow_pos e]
    rw [totalExponent, Nat.log2_zero] at he ⊢
    rw [lastPlace]
    unfold Format.targetExponent at he ⊢
    omega
  · rw [lastPlace, log_of_floor mantissa y e hmantissa (by linarith) (by linarith),
      totalExponent, add_right_comm]

theorem minExponent_le_lastPlace (spec : Format) (x : Rat) :
    spec.minExponent ≤ lastPlace spec x :=
  le_max_right _ _

/-- A number has at most as many places as a mantissa has bits. -/
theorem div_lastPlace_lt (spec : Format) (x : Rat) :
    x / 2 ^ lastPlace spec x < 2 ^ spec.mantissaBits := by
  have hlog := Int.lt_zpow_succ_log_self Nat.one_lt_two x
  rw [Nat.cast_ofNat] at hlog
  rw [div_lt_iff₀ (two_zpow_pos _), ← zpow_natCast, ← zpow_add₀ two_ne_zero]
  refine hlog.trans_le (zpow_le_zpow_right₀ one_le_two ?_)
  rw [lastPlace, Format.targetExponent]
  omega

/-- It has as many, unless its last place is the smallest. -/
theorem le_div_lastPlace (spec : Format) (x : Rat) (hpos : 0 < x)
    (hmin : spec.minExponent < lastPlace spec x) :
    2 ^ (spec.mantissaBits - 1) ≤ x / 2 ^ lastPlace spec x := by
  have hlog := Int.zpow_log_le_self Nat.one_lt_two hpos
  have hbits := mantissaBits_pos spec
  rw [Nat.cast_ofNat] at hlog
  rw [le_div_iff₀ (two_zpow_pos _), ← zpow_natCast, ← zpow_add₀ two_ne_zero]
  refine le_trans (zpow_le_zpow_right₀ one_le_two ?_) hlog
  rw [lastPlace, Format.targetExponent] at hmin ⊢
  omega

/-- The last step of rounding: a mantissa that has become a bit too long is shifted. -/
def carried (spec : Format) (sign : Sign) (mantissa : Nat) (exponent : Int) : UnpackedFloat :=
  let shifted := shiftToTargetExponent spec mantissa exponent .exact
  if h : shifted.1.mantissa = 0 then .zero sign
  else .finite sign shifted.1.mantissa shifted.2 (Nat.pos_of_ne_zero h)

/-- A mantissa that is at its last place is not shifted. -/
theorem carried_of_place (spec : Format) (sign : Sign) (mantissa : Nat) (exponent : Int)
    (hplace : spec.targetExponent (totalExponent mantissa exponent) = exponent) :
    Stands spec sign (carried spec sign mantissa exponent) (mantissa * 2 ^ exponent) := by
  have hsame : shiftToTargetExponent spec mantissa exponent .exact
      = (⟨mantissa, false, false⟩, exponent) := by
    rw [shiftToTargetExponent, hplace, shiftToExponent, sub_self]
    simp only [Int.toNat_zero, Nat.cast_zero, add_zero]
    rfl
  unfold carried
  simp only [hsame]
  split
  · rename_i hzero
    rw [hzero, Nat.cast_zero, zero_mul]
    exact .zero
  · exact .finite _ _ _ hplace

/-- A mantissa that has been rounded up to a power of two gives up a bit. -/
theorem carried_two_pow (spec : Format) (sign : Sign) (exponent : Int)
    (hmin : spec.minExponent ≤ exponent) :
    Stands spec sign (carried spec sign (2 ^ spec.mantissaBits) exponent)
      ((2 ^ spec.mantissaBits : Nat) * 2 ^ exponent) := by
  rcases Nat.exists_eq_add_of_le' (mantissaBits_pos spec) with ⟨more, hmore⟩
  have hplace : spec.targetExponent (totalExponent (2 ^ spec.mantissaBits) exponent)
      = exponent + 1 := by
    unfold Format.targetExponent totalExponent
    rw [Nat.log2_two_pow]
    omega
  have hshift : shiftToTargetExponent spec (2 ^ spec.mantissaBits) exponent .exact
      = (ExtendedMantissa.shiftRightOne ⟨2 ^ spec.mantissaBits, false, false⟩, exponent + 1) := by
    rw [shiftToTargetExponent, hplace, shiftToExponent, add_sub_cancel_left]
    rfl
  have hhalf : 2 ^ spec.mantissaBits / 2 = 2 ^ (more + 1) := by
    rw [hmore, pow_succ, Nat.mul_div_cancel _ Nat.two_pos]
  have hvalue := longer_mantissa (2 ^ (more + 1)) 1 (exponent + 1)
  rw [← pow_add, Nat.cast_one, add_sub_cancel_right, add_assoc, ← hmore] at hvalue
  unfold carried
  simp only [hshift, ExtendedMantissa.shiftRightOne, hhalf]
  rw [dif_neg (Nat.two_pow_pos (more + 1)).ne', hvalue]
  refine .finite _ _ _ ?_
  unfold Format.targetExponent totalExponent
  rw [Nat.log2_two_pow]
  omega

theorem carried_stands (spec : Format) (sign : Sign) (mantissa : Nat) (exponent : Int)
    (hmin : spec.minExponent ≤ exponent) (hle : mantissa ≤ 2 ^ spec.mantissaBits)
    (hfull : spec.minExponent < exponent → 2 ^ (spec.mantissaBits - 1) ≤ mantissa) :
    Stands spec sign (carried spec sign mantissa exponent) (mantissa * 2 ^ exponent) := by
  rcases hle.lt_or_eq with hlt | rfl
  · refine carried_of_place spec sign mantissa exponent ?_
    unfold Format.targetExponent totalExponent
    rcases Nat.eq_zero_or_pos mantissa with rfl | hpos
    · have hbits := mantissaBits_pos spec
      have hfew := Nat.two_pow_pos (spec.mantissaBits - 1)
      rw [Nat.log2_zero]
      omega
    · have hlog := (Nat.log2_lt hpos.ne').mpr hlt
      rcases hmin.lt_or_eq with hmin | hmin
      · have hlog' := (Nat.le_log2 hpos.ne').mpr (hfull hmin)
        omega
      · omega
  · exact carried_two_pow spec sign exponent hmin

/-- What a number is rounded to is what stands for the nearest number of the format. -/
theorem roundWithAccuracy_stands (sign : Sign) {accuracy : Accuracy} {mantissa : Nat} {y : Rat}
    {e : Int} (hy : Tells accuracy (y - mantissa)) (hpos : 0 < y)
    (he : e ≤ spec.targetExponent (totalExponent mantissa e)) :
    Stands spec sign (roundWithAccuracy spec sign mantissa e accuracy)
      (rounded spec (y * 2 ^ e)) := by
  have hplace := targetExponent_eq_lastPlace hy hpos he
  have hx : 0 < y * 2 ^ e := mul_pos hpos (two_zpow_pos e)
  rw [hplace] at he
  rw [rounded]
  generalize hplaceEq : lastPlace spec (y * 2 ^ e) = place at he ⊢
  have hexponent : e + ((place - e).toNat : Int) = place := by omega
  have hvalue : y / 2 ^ (place - e).toNat = y * 2 ^ e / 2 ^ place := by
    rw [div_eq_div_iff (by positivity) (two_zpow_pos place).ne', ← zpow_natCast, mul_assoc,
      ← zpow_add₀ two_ne_zero, hexponent]
  have hholds := (holds_ofMantissaAndAccuracy hy).shiftRight (place - e).toNat
  rw [hvalue] at hholds
  have hshape : roundWithAccuracy spec sign mantissa e accuracy
      = carried spec sign (nearestEven (y * 2 ^ e / 2 ^ place)) place := by
    rw [← hholds.roundedMantissa, roundWithAccuracy, shiftToTargetExponent, hplace, hplaceEq,
      shiftToExponent]
    simp only [hexponent]
    rfl
  rw [hshape]
  subst hplaceEq
  refine carried_stands spec sign _ _ (minExponent_le_lastPlace spec _) ?_ fun hmin => ?_
  · rw [← nearestEven_natCast (2 ^ spec.mantissaBits)]
    refine nearestEven_mono _ _ (le_of_lt ?_)
    exact_mod_cast div_lastPlace_lt spec (y * 2 ^ e)
  · rw [← nearestEven_natCast (2 ^ (spec.mantissaBits - 1))]
    refine nearestEven_mono _ _ ?_
    exact_mod_cast le_div_lastPlace spec _ hx hmin

/-! ## Order -/

theorem lastPlace_mono (spec : Format) (x y : Rat) (hpos : 0 < x) (h : x ≤ y) :
    lastPlace spec x ≤ lastPlace spec y := by
  have hlog := Int.log_mono_right (b := 2) hpos h
  unfold lastPlace Format.targetExponent
  omega

/-- Numbers below a whole number of places are not rounded above it. -/
theorem rounded_le (spec : Format) (x : Rat) (count : Nat)
    (h : x ≤ count * 2 ^ lastPlace spec x) : rounded spec x ≤ count * 2 ^ lastPlace spec x := by
  refine mul_le_mul_of_nonneg_right ?_ (two_zpow_pos _).le
  rw [← div_le_iff₀ (two_zpow_pos _)] at h
  have hround := nearestEven_mono _ _ h
  rw [nearestEven_natCast] at hround
  exact_mod_cast hround

/-- Nor are numbers above it rounded below. -/
theorem le_rounded (spec : Format) (x : Rat) (count : Nat)
    (h : count * 2 ^ lastPlace spec x ≤ x) : count * 2 ^ lastPlace spec x ≤ rounded spec x := by
  refine mul_le_mul_of_nonneg_right ?_ (two_zpow_pos _).le
  rw [← le_div_iff₀ (two_zpow_pos _)] at h
  have hround := nearestEven_mono _ _ h
  rw [nearestEven_natCast] at hround
  exact_mod_cast hround

/-- A power of two is a whole number of places, unless it is below the last. -/
theorem two_zpow_eq_places (power place : Int) (h : place ≤ power) :
    (2 : Rat) ^ power = (2 ^ (power - place).toNat : Nat) * 2 ^ place := by
  have hvalue := longer_mantissa 1 (power - place).toNat power
  rw [Int.toNat_of_nonneg (sub_nonneg.mpr h), sub_sub_cancel, Nat.cast_one, one_mul, one_mul]
    at hvalue
  exact hvalue.symm

/-- Rounding to a format keeps the order. -/
theorem rounded_mono (spec : Format) (x y : Rat) (hpos : 0 < x) (h : x ≤ y) :
    rounded spec x ≤ rounded spec y := by
  have hy := hpos.trans_le h
  rcases (lastPlace_mono spec x y hpos h).lt_or_eq with hlt | heq
  · -- A power of two is in between that is a whole number of places of both.
    have hlogs : Int.log 2 x + 1 ≤ Int.log 2 y ∧
        lastPlace spec y = Int.log 2 y + 1 - spec.mantissaBits := by
      have hlog := Int.log_mono_right (b := 2) hpos h
      unfold lastPlace Format.targetExponent at hlt ⊢
      omega
    have hbits := mantissaBits_pos spec
    have hbelow := (Int.lt_zpow_succ_log_self Nat.one_lt_two x).le.trans
      (zpow_le_zpow_right₀ (by norm_num) hlogs.1)
    have habove := Int.zpow_log_le_self Nat.one_lt_two hy
    have hplaces := two_zpow_eq_places (Int.log 2 y) (lastPlace spec x) (by omega)
    have hplaces' := two_zpow_eq_places (Int.log 2 y) (lastPlace spec y) (by omega)
    rw [Nat.cast_ofNat] at hbelow habove
    calc rounded spec x
        ≤ 2 ^ Int.log 2 y := by
          rw [hplaces] at hbelow ⊢
          exact rounded_le spec x _ hbelow
      _ ≤ rounded spec y := by
          rw [hplaces'] at habove ⊢
          exact le_rounded spec y _ habove
  · unfold rounded
    rw [heq]
    refine mul_le_mul_of_nonneg_right ?_ (two_zpow_pos _).le
    exact_mod_cast nearestEven_mono _ _ (div_le_div_of_nonneg_right h (two_zpow_pos _).le)

theorem rounded_nonneg (spec : Format) (x : Rat) : 0 ≤ rounded spec x :=
  mul_nonneg (Nat.cast_nonneg _) (two_zpow_pos _).le

/-- A mantissa that is at its last place gives that place. -/
theorem lastPlace_of_place (mantissa : Nat) (exponent : Int) (hpos : 0 < mantissa)
    (hplace : spec.targetExponent (totalExponent mantissa exponent) = exponent) :
    lastPlace spec (mantissa * 2 ^ exponent) = exponent := by
  rw [lastPlace, log_of_floor mantissa mantissa exponent hpos le_rfl (lt_add_one _),
    add_right_comm]
  exact hplace

theorem rounded_zero (spec : Format) : rounded spec 0 = 0 := by
  rw [rounded, zero_div, ← Nat.cast_zero, nearestEven_natCast, Nat.cast_zero, zero_mul]

/-- A number of the format is not changed. -/
theorem rounded_of_stands {sign : Sign} {u : UnpackedFloat} {x : Rat}
    (h : Stands spec sign u x) : rounded spec x = x := by
  cases h with
  | zero => exact rounded_zero spec
  | finite mantissa exponent hpos hplace =>
      rw [rounded, lastPlace_of_place mantissa exponent hpos hplace,
        mul_div_cancel_right₀ _ (two_zpow_pos _).ne', nearestEven_natCast]

/-- What stands for a number is determined by the number. -/
theorem Stands.unique {sign : Sign} {u v : UnpackedFloat} {x : Rat} (hu : Stands spec sign u x)
    (hv : Stands spec sign v x) : u = v := by
  have hfinite (mantissa : Nat) (exponent : Int) (hpos : 0 < mantissa) :
      (mantissa : Rat) * 2 ^ exponent ≠ 0 :=
    (mul_pos (Nat.cast_pos.mpr hpos) (two_zpow_pos exponent)).ne'
  generalize hx : x = x' at hv
  cases hu with
  | zero =>
      cases hv with
      | zero => rfl
      | finite mantissa exponent hpos hplace => exact absurd hx.symm (hfinite _ _ hpos)
  | finite mantissa exponent hpos hplace =>
      cases hv with
      | zero => exact absurd hx (hfinite _ _ hpos)
      | finite mantissa' exponent' hpos' hplace' =>
          have hexponent : exponent = exponent' := by
            rw [← lastPlace_of_place mantissa exponent hpos hplace, hx,
              lastPlace_of_place mantissa' exponent' hpos' hplace']
          subst hexponent
          have hmantissa := mul_right_cancel₀ (two_zpow_pos exponent).ne' hx
          rw [Nat.cast_inj] at hmantissa
          subst hmantissa
          rfl

/-- Floats that are not negative are compared like what they stand for. -/
theorem Stands.le_iff {u v : UnpackedFloat} {x y : Rat} (hu : Stands spec .positive u x)
    (hv : Stands spec .positive v y) : u.le v = true ↔ x ≤ y := by
  cases hu with
  | zero =>
      cases hv with
      | zero => exact iff_of_true rfl le_rfl
      | finite mantissa exponent hpos hplace =>
          exact iff_of_true rfl (mul_pos (Nat.cast_pos.mpr hpos) (two_zpow_pos exponent)).le
  | finite mantissa exponent hpos hplace =>
      have hpositive : (0 : Rat) < mantissa * 2 ^ exponent :=
        mul_pos (Nat.cast_pos.mpr hpos) (two_zpow_pos exponent)
      cases hv with
      | zero => exact iff_of_false Bool.false_ne_true hpositive.not_ge
      | finite mantissa' exponent' hpos' hplace' =>
          have hpositive' : (0 : Rat) < mantissa' * 2 ^ exponent' :=
            mul_pos (Nat.cast_pos.mpr hpos') (two_zpow_pos exponent')
          -- A number with a higher last place is larger.
          have hplaces := lastPlace_mono spec _ (mantissa' * 2 ^ exponent') hpositive
          have hplaces' := lastPlace_mono spec _ (mantissa * 2 ^ exponent) hpositive'
          rw [lastPlace_of_place _ _ hpos hplace, lastPlace_of_place _ _ hpos' hplace']
            at hplaces hplaces'
          change ((compare exponent exponent').then (compare mantissa mantissa')).isLE = true ↔ _
          rcases lt_trichotomy exponent exponent' with hlt | rfl | hgt
          · rw [Int.compare_eq_lt.mpr hlt]
            exact iff_of_true rfl (le_of_not_ge fun hge => absurd (hplaces' hge) (by omega))
          · rw [Int.compare_eq_eq.mpr rfl, mul_le_mul_iff_left₀ (two_zpow_pos _), Nat.cast_le]
            exact Nat.isLE_compare
          · rw [Int.compare_eq_gt.mpr hgt]
            exact iff_of_false Bool.false_ne_true fun hle => absurd (hplaces hle) (by omega)

end CommitRisk
