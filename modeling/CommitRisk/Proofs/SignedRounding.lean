import CommitRisk.Proofs.FloatBits
import CommitRisk.Proofs.RoundedArithmetic

/-!
# Rounding with a Sign

A number below zero is rounded like the number above it, so `nearest` is `rounded` on both sides
and keeps the order across zero. A float is tied to its number by `Denotes`, whichever sign it
has; the two zeros denote the same number.

A sum is exact before it is rounded. The mantissas are brought to the smaller of the two
places, where they are whole numbers, and these are added with their signs. So a sum is rounded
once, like a product or a quotient. Doubling a number of the format makes a number of the format
again, and therefore half of a sum stays between what was added however it is rounded.

A format has a largest number, and rounding does not stop at it. `le_rounded_two_zpow_iff` says
from where on a number is rounded to a power of two or above it: from half a place below the
power, for then the even one of the two nearest numbers is the power. What is packed above the
range becomes the infinity of its sign.

## Main definitions

* `withSign`: A number with a sign put to it.
* `Denotes`: What a finite float is as a number.
* `nearest`: The number of a format nearest to a number.

## Theorems

* `nearest_mono`: Rounding to a format keeps the order.
* `Denotes.nearest_eq`: A number of the format is not changed.
* `Denotes.nearest_double`: Nor is its double.
* `Denotes.add`, `Denotes.div`: A sum and a quotient are rounded to the nearest number.
* `Denotes.half_add_between`: Half of a rounded sum is between what was added.
* `Denotes.le_iff`: Floats are compared like numbers.
* `le_rounded_two_zpow_iff`: When a number is rounded out of a range.
* `Stands.unpack_pack_infinity`: What is packed above the range.
-/

namespace CommitRisk

open Float.Model (Format UnpackedFloat totalExponent)
open Float.Model.UnpackedFloat

variable {spec : Format} {sign sign' : Sign} {u v : UnpackedFloat} {x y : Rat}

/-! ## Numbers with a sign -/

/-- A number with a sign put to it. -/
def withSign (sign : Sign) (x : Rat) : Rat :=
  match sign with
  | .negative => -x
  | .positive => x

/-- What a finite float is as a number. -/
inductive Denotes (spec : Format) (u : UnpackedFloat) : Rat → Prop where
  | of (sign : Sign) (x : Rat) (h : Stands spec sign u x) : Denotes spec u (withSign sign x)

theorem exists_withSign (x : Rat) : ∃ sign y, 0 ≤ y ∧ x = withSign sign y := by
  rcases le_total 0 x with h | h
  · exact ⟨.positive, x, h, rfl⟩
  · exact ⟨.negative, -x, neg_nonneg.mpr h, (neg_neg x).symm⟩

theorem withSign_mul (sign : Sign) (x y : Rat) : withSign sign (x * y) = withSign sign x * y := by
  cases sign with
  | negative => exact (neg_mul x y).symm
  | positive => rfl

theorem withSign_div (sign : Sign) (x y : Rat) : withSign sign (x / y) = withSign sign x / y := by
  rw [div_eq_mul_inv, div_eq_mul_inv, withSign_mul]

theorem withSign_zero (sign : Sign) : withSign sign 0 = 0 := by
  cases sign with
  | positive => rfl
  | negative => exact neg_zero

theorem abs_withSign (sign : Sign) (h : 0 ≤ x) : |withSign sign x| = x := by
  cases sign with
  | positive => exact abs_of_nonneg h
  | negative => exact (abs_neg x).trans (abs_of_nonneg h)

theorem cast_apply (sign : Sign) (n : Nat) : ((sign.apply n : Int) : Rat) = withSign sign n := by
  cases sign with
  | negative => exact Int.cast_neg _
  | positive => rfl

theorem Stands.nonneg (h : Stands spec sign u x) : 0 ≤ x := by
  cases h with
  | zero => exact le_rfl
  | finite mantissa exponent _ _ =>
      exact mul_nonneg (Nat.cast_nonneg _) (two_zpow_pos exponent).le

/-! ## The nearest number -/

/-- The number of a format nearest to a number, without regard to how large the numbers of the
    format can get. -/
def nearest (spec : Format) (x : Rat) : Rat :=
  if 0 ≤ x then rounded spec x else -rounded spec (-x)

theorem nearest_withSign (spec : Format) (sign : Sign) (h : 0 ≤ x) :
    nearest spec (withSign sign x) = withSign sign (rounded spec x) := by
  cases sign with
  | positive => exact if_pos h
  | negative =>
      change nearest spec (-x) = -rounded spec x
      rcases h.eq_or_lt with rfl | hpos
      · rw [neg_zero, nearest, if_pos le_rfl, rounded_zero, neg_zero]
      · rw [nearest, if_neg (neg_neg_of_pos hpos).not_ge, neg_neg]

theorem nearest_neg (spec : Format) (x : Rat) : nearest spec (-x) = -nearest spec x := by
  rcases exists_withSign x with ⟨sign, y, hy, rfl⟩
  rw [nearest_withSign spec sign hy]
  cases sign with
  | positive => exact nearest_withSign spec .negative hy
  | negative =>
      change nearest spec (- -y) = - -rounded spec y
      rw [neg_neg, neg_neg]
      exact nearest_withSign spec .positive hy

theorem nearest_nonneg (spec : Format) (h : 0 ≤ x) : 0 ≤ nearest spec x := by
  rw [nearest, if_pos h]
  exact rounded_nonneg spec x

theorem nearest_abs (spec : Format) (x : Rat) : nearest spec |x| = |nearest spec x| := by
  rcases le_total 0 x with hx | hx
  · rw [abs_of_nonneg hx, abs_of_nonneg (nearest_nonneg spec hx)]
  · have hneg := nearest_nonneg spec (neg_nonneg.mpr hx)
    rw [nearest_neg] at hneg
    rw [abs_of_nonpos hx, abs_of_nonpos (neg_nonneg.mp hneg), nearest_neg]

/-- Rounding to a format keeps the order, also across zero. -/
theorem nearest_mono (spec : Format) (h : x ≤ y) : nearest spec x ≤ nearest spec y := by
  have hpositive : ∀ x y : Rat, 0 ≤ x → x ≤ y → nearest spec x ≤ nearest spec y := by
    intro x y hx h
    rw [nearest, if_pos hx, nearest, if_pos (hx.trans h)]
    rcases hx.eq_or_lt with rfl | hpos
    · rw [rounded_zero]
      exact rounded_nonneg spec y
    · exact rounded_mono spec x y hpos h
  rcases le_total 0 x with hx | hx
  · exact hpositive x y hx h
  · rcases le_total 0 y with hy | hy
    · have hbelow := nearest_nonneg spec (neg_nonneg.mpr hx)
      rw [nearest_neg] at hbelow
      exact (neg_nonneg.mp hbelow).trans (nearest_nonneg spec hy)
    · -- Below zero the order is turned round twice.
      have hturned := hpositive (-y) (-x) (neg_nonneg.mpr hy) (neg_le_neg h)
      rw [nearest_neg, nearest_neg] at hturned
      exact neg_le_neg_iff.mp hturned

/-- A number of the format is not changed. -/
theorem Denotes.nearest_eq (h : Denotes spec u x) : nearest spec x = x := by
  rcases h with ⟨sign, x, h⟩
  rw [nearest_withSign spec sign h.nonneg, rounded_of_stands h]

/-- A whole number of places is not changed by rounding. -/
theorem rounded_of_places (spec : Format) (mantissa : Nat) (exponent : Int)
    (h : lastPlace spec (mantissa * 2 ^ exponent) ≤ exponent) :
    rounded spec (mantissa * 2 ^ exponent) = mantissa * 2 ^ exponent := by
  rcases Int.eq_ofNat_of_zero_le (sub_nonneg.mpr h) with ⟨shift, hshift⟩
  have hvalue := longer_mantissa mantissa shift exponent
  have hplace : exponent - shift = lastPlace spec (mantissa * 2 ^ exponent) := by omega
  rw [hplace] at hvalue
  rw [rounded]
  nth_rewrite 1 [← hvalue]
  rw [mul_div_cancel_right₀ _ (two_zpow_pos _).ne', nearestEven_natCast, hvalue]

/-- The double of a number of the format is not changed either. -/
theorem Denotes.nearest_double (h : Denotes spec u x) : nearest spec (x * 2) = x * 2 := by
  rcases h with ⟨sign, x, h⟩
  rw [← withSign_mul, nearest_withSign spec sign (mul_nonneg h.nonneg zero_le_two)]
  congr 1
  cases h with
  | zero => rw [zero_mul, rounded_zero]
  | finite mantissa exponent hpos hplace =>
      have hdouble : (mantissa : Rat) * 2 ^ exponent * 2 = mantissa * 2 ^ (exponent + 1) := by
        rw [zpow_add_one₀ two_ne_zero, mul_assoc]
      rw [hdouble]
      refine rounded_of_places spec mantissa (exponent + 1) ?_
      -- The last place moves up by one at most.
      rw [lastPlace, log_of_floor mantissa mantissa _ hpos le_rfl (lt_add_one _)]
      unfold Format.targetExponent at hplace ⊢
      rw [totalExponent] at hplace
      omega

/-! ## Sums and quotients -/

theorem denotes_zero (spec : Format) (sign : Sign) : Denotes spec (.zero sign) 0 := by
  rw [← withSign_zero sign]
  exact .of sign 0 .zero

theorem normalize_denotes (spec : Format) (mantissa exponent : Int) (zeroSign : Sign) :
    Denotes spec (normalize spec mantissa exponent zeroSign)
      (nearest spec (mantissa * 2 ^ exponent)) := by
  unfold UnpackedFloat.normalize
  rcases lt_trichotomy mantissa 0 with hneg | rfl | hpos
  · rw [Int.compare_eq_lt.mpr hneg]
    obtain ⟨count, hcount, rfl⟩ : ∃ count : Nat, 0 < count ∧ mantissa = -count :=
      ⟨mantissa.natAbs, by omega, by omega⟩
    have hvalue : ((-count : Int) : Rat) * 2 ^ exponent
        = withSign .negative ((count : Rat) * 2 ^ exponent) := by
      rw [Int.cast_neg, Int.cast_natCast, neg_mul]
      rfl
    rw [hvalue, nearest_withSign spec .negative
      (mul_nonneg (Nat.cast_nonneg _) (two_zpow_pos exponent).le)]
    simp only [neg_neg, Int.toNat_natCast]
    exact .of .negative _ (round_stands spec .negative count exponent hcount)
  · rw [Int.compare_eq_eq.mpr rfl, Int.cast_zero, zero_mul, nearest, if_pos le_rfl, rounded_zero]
    exact denotes_zero spec zeroSign
  · rw [Int.compare_eq_gt.mpr hpos]
    obtain ⟨count, hcount, rfl⟩ : ∃ count : Nat, 0 < count ∧ mantissa = count :=
      ⟨mantissa.natAbs, by omega, by omega⟩
    rw [Int.cast_natCast, nearest,
      if_pos (mul_nonneg (Nat.cast_nonneg _) (two_zpow_pos exponent).le)]
    exact .of .positive _ (round_stands spec .positive count exponent hcount)

/-- Brought to a smaller place, a mantissa with its sign is the same number. -/
theorem decreaseExponent_value (sign : Sign) (mantissa : Nat) (exponent place : Int)
    (h : place ≤ exponent) :
    (((sign.apply (decreaseExponent mantissa exponent place).1 : Int)) : Rat) * 2 ^ place
      = withSign sign (mantissa * 2 ^ exponent) := by
  rcases Int.eq_ofNat_of_zero_le (sub_nonneg.mpr h) with ⟨shift, hshift⟩
  have hvalue := longer_mantissa mantissa shift exponent
  rw [show exponent - shift = place by omega] at hvalue
  rw [cast_apply, ← withSign_mul, decreaseExponent, hshift]
  simp only [Int.toNat_natCast, Nat.shiftLeft_eq]
  rw [hvalue]

/-- A sum is rounded to the nearest number. -/
theorem Denotes.add (hu : Denotes spec u x) (hv : Denotes spec v y) :
    Denotes spec (UnpackedFloat.add spec u v) (nearest spec (x + y)) := by
  have hu' := hu
  have hv' := hv
  rcases hu with ⟨sign, x, hx⟩
  rcases hv with ⟨sign', y, hy⟩
  cases hx with
  | zero =>
      rw [withSign_zero, zero_add]
      cases hy with
      | zero =>
          rw [withSign_zero, nearest, if_pos le_rfl, rounded_zero, UnpackedFloat.add]
          split
          · exact denotes_zero spec sign
          · exact denotes_zero spec .positive
      | finite mantissa exponent hpos hplace =>
          rw [hv'.nearest_eq]
          exact hv'
  | finite mantissa exponent hpos hplace =>
      cases hy with
      | zero =>
          rw [withSign_zero, add_zero, hu'.nearest_eq]
          exact hu'
      | finite mantissa' exponent' hpos' hplace' =>
          -- At the smaller place both mantissas are whole numbers.
          rw [← decreaseExponent_value sign mantissa exponent _ (min_le_left exponent exponent'),
            ← decreaseExponent_value sign' mantissa' exponent' _ (min_le_right exponent exponent'),
            ← add_mul, ← Int.cast_add]
          exact normalize_denotes spec _ _ _

/-- A quotient by a positive number is rounded to the nearest number. -/
theorem Denotes.div (hu : Denotes spec u x) (hv : Stands spec .positive v y) (hy : 0 < y) :
    Denotes spec (UnpackedFloat.div spec u v) (nearest spec (x / y)) := by
  have hsign : ∀ sign : Sign, sign / .positive = sign := by
    rintro (_ | _) <;> rfl
  rcases hu with ⟨sign, x, hx⟩
  rw [← withSign_div, nearest_withSign spec sign (div_nonneg hx.nonneg hy.le)]
  rcases hx.nonneg.eq_or_lt with rfl | hpos
  · have hzero : Stands spec sign (.zero sign) 0 := .zero
    have hquotient : Stands spec (sign / .positive) (UnpackedFloat.div spec (.zero sign) v) 0 :=
      hv.zero_div hy
    rw [hsign] at hquotient
    rw [hx.unique hzero, zero_div, rounded_zero]
    exact .of sign 0 hquotient
  · have hquotient := hx.div hv hpos hy
    rw [hsign] at hquotient
    exact .of sign _ hquotient

/-- Half of a rounded sum is between what was added. -/
theorem Denotes.half_add_between (hu : Denotes spec u x) (hv : Denotes spec v y) (h : x ≤ y) :
    x ≤ nearest spec (nearest spec (x + y) / 2) ∧
      nearest spec (nearest spec (x + y) / 2) ≤ y := by
  have hlow := nearest_mono spec (show x * 2 ≤ x + y by linarith)
  have hhigh := nearest_mono spec (show x + y ≤ y * 2 by linarith)
  rw [hu.nearest_double] at hlow
  rw [hv.nearest_double] at hhigh
  constructor
  · have hhalf := nearest_mono spec (show x ≤ nearest spec (x + y) / 2 by linarith)
    rwa [hu.nearest_eq] at hhalf
  · have hhalf := nearest_mono spec (show nearest spec (x + y) / 2 ≤ y by linarith)
    rwa [hv.nearest_eq] at hhalf

/-! ## Order -/

/-- Comparing with turned signs is comparing the other way round. -/
theorem neg_le_neg_eq (u v : UnpackedFloat) : v.neg.le u.neg = u.le v := by
  rcases u with ⟨_ | _⟩ | _ | ⟨_ | _⟩ | ⟨_ | _⟩ <;>
    rcases v with ⟨_ | _⟩ | _ | ⟨_ | _⟩ | ⟨_ | _⟩ <;>
    first
    | rfl
    | simp only [UnpackedFloat.le, UnpackedFloat.compare, UnpackedFloat.neg, Ordering.swap_then,
        Int.compare_swap, Nat.compare_swap]

theorem Stands.neg (h : Stands spec .negative u x) : Stands spec .positive u.neg x := by
  cases h with
  | zero => exact .zero
  | finite mantissa exponent hpos hplace => exact .finite mantissa exponent hpos hplace

/-- A float that is not above zero is at most one that is not below it. -/
theorem Stands.negative_le (hu : Stands spec .negative u x) (hv : Stands spec .positive v y) :
    u.le v = true := by
  cases hu <;> cases hv <;> rfl

/-- One that is not below zero is at most one that is not above it only if both are zero. -/
theorem Stands.positive_le_iff (hu : Stands spec .positive u x) (hv : Stands spec .negative v y) :
    u.le v = true ↔ x ≤ -y := by
  have hx := hu.nonneg
  have hy := hv.nonneg
  cases hu with
  | zero =>
      cases hv with
      | zero => exact iff_of_true rfl neg_zero.ge
      | finite mantissa exponent hpos _ =>
          have hpositive : (0 : Rat) < mantissa * 2 ^ exponent :=
            mul_pos (Nat.cast_pos.mpr hpos) (two_zpow_pos exponent)
          exact iff_of_false Bool.false_ne_true (by linarith)
  | finite mantissa exponent hpos _ =>
      have hpositive : (0 : Rat) < mantissa * 2 ^ exponent :=
        mul_pos (Nat.cast_pos.mpr hpos) (two_zpow_pos exponent)
      cases hv <;> exact iff_of_false Bool.false_ne_true (by linarith)

/-- Floats are compared like what they denote. -/
theorem Denotes.le_iff (hu : Denotes spec u x) (hv : Denotes spec v y) :
    u.le v = true ↔ x ≤ y := by
  rcases hu with ⟨_ | _, x, hx⟩ <;> rcases hv with ⟨_ | _, y, hy⟩
  case negative.negative =>
    rw [← neg_le_neg_eq, hy.neg.le_iff hx.neg]
    exact neg_le_neg_iff.symm
  case negative.positive =>
    exact iff_of_true (hx.negative_le hy) ((neg_nonpos.mpr hx.nonneg).trans hy.nonneg)
  case positive.negative => exact hx.positive_le_iff hy
  case positive.positive => exact hx.le_iff hy

/-- A float denotes one number. -/
theorem Denotes.unique (hx : Denotes spec u x) (hy : Denotes spec u y) : x = y := by
  have hself := (hx.le_iff hx).mpr le_rfl
  exact le_antisymm ((hx.le_iff hy).mp hself) ((hy.le_iff hx).mp hself)

/-- A number is above the one infinity and below the other. -/
theorem Denotes.between_infinities (h : Denotes spec u x) :
    (UnpackedFloat.infinity .negative).le u = true ∧ u.le (.infinity .negative) = false ∧
      u.le (.infinity .positive) = true ∧ (UnpackedFloat.infinity .positive).le u = false := by
  rcases h with ⟨_ | _, x, _ | _⟩ <;> exact ⟨rfl, rfl, rfl, rfl⟩

/-! ## The range of a format -/

/-- Less than half below a whole number is rounded below it. -/
theorem nearestEven_lt (y : Rat) (n : Nat) (hy : 0 ≤ y) (h : y < n - 1 / 2) :
    nearestEven y < n := by
  have hfloor : ⌊y⌋₊ < n := by
    rw [Nat.floor_lt hy]
    linarith
  rcases (Nat.succ_le_of_lt hfloor).lt_or_eq with hlt | heq
  · exact (nearestEven_le_floor_add_one y).trans_lt hlt
  · -- Just below the number the rest is less than half.
    have hcast : (n : Rat) = ⌊y⌋₊ + 1 := by
      rw [← heq]
      push_cast
      ring
    rw [nearestEven_below y (by linarith)]
    exact hfloor

/-- Half below an even number is rounded to it. -/
theorem nearestEven_half_below (n : Nat) (hpos : 0 < n) (heven : n % 2 = 0) :
    nearestEven (n - 1 / 2) = n := by
  have hone : (1 : Rat) ≤ n := Nat.one_le_cast.mpr hpos
  have hfloor : ⌊(n : Rat) - 1 / 2⌋₊ = n - 1 := by
    rw [Nat.floor_eq_iff (by linarith), Nat.cast_sub hpos, Nat.cast_one]
    constructor <;> linarith
  rw [nearestEven_half, hfloor]
  · omega
  · rw [hfloor, Nat.cast_sub hpos, Nat.cast_one]
    ring

/-- Below a power of two the last place follows from the length of a mantissa. -/
theorem lastPlace_below_two_zpow (spec : Format) (power : Int)
    (hpower : spec.minExponent + spec.mantissaBits ≤ power) (hlog : Int.log 2 x = power - 1) :
    lastPlace spec x = power - spec.mantissaBits := by
  rw [lastPlace, hlog]
  unfold Format.targetExponent
  omega

/-- Half a place below a power of two, in places. -/
theorem half_below_two_zpow (spec : Format) (power : Int) :
    (2 : Rat) ^ power - 2 ^ (power - spec.mantissaBits - 1)
      = ((2 ^ spec.mantissaBits : Nat) - 1 / 2) * 2 ^ (power - spec.mantissaBits) := by
  have hplaces := longer_mantissa 1 spec.mantissaBits power
  rw [one_mul, Nat.cast_one, one_mul] at hplaces
  rw [← hplaces, zpow_sub_one₀ two_ne_zero]
  ring

theorem log_half_below_two_zpow (spec : Format) (power : Int) :
    Int.log 2 (((2 ^ spec.mantissaBits : Nat) - 1 / 2 : Rat) * 2 ^ (power - spec.mantissaBits))
      = power - 1 := by
  have hbits := mantissaBits_pos spec
  have hdouble : 2 ^ spec.mantissaBits = 2 * 2 ^ (spec.mantissaBits - 1) := by
    rw [← pow_succ', Nat.sub_add_cancel (one_le_two.trans hbits)]
  have hfew := Nat.one_lt_two_pow (show spec.mantissaBits - 1 ≠ 0 by omega)
  have hcast : ((2 ^ spec.mantissaBits - 1 : Nat) : Rat) = (2 ^ spec.mantissaBits : Nat) - 1 := by
    rw [Nat.cast_sub (by omega), Nat.cast_one]
  -- The whole part has all the bits of a mantissa.
  have hlog : (2 ^ spec.mantissaBits - 1).log2 = spec.mantissaBits - 1 := by
    rw [Nat.log2_eq_iff (by omega), Nat.sub_add_cancel (one_le_two.trans hbits)]
    omega
  rw [log_of_floor (2 ^ spec.mantissaBits - 1) _ _ (by omega) (by rw [hcast]; linarith)
    (by rw [hcast]; linarith), hlog]
  omega

/-- Half a place below a power of two is rounded to the power, which is the even one of the
    two nearest numbers. -/
theorem rounded_half_below_two_zpow (spec : Format) (power : Int)
    (hpower : spec.minExponent + spec.mantissaBits ≤ power) :
    rounded spec (2 ^ power - 2 ^ (power - spec.mantissaBits - 1)) = 2 ^ power := by
  have hbits := mantissaBits_pos spec
  have heven : 2 ^ spec.mantissaBits % 2 = 0 := by
    rw [← Nat.sub_add_cancel (one_le_two.trans hbits), pow_succ, Nat.mul_mod_left]
  have hplaces := longer_mantissa 1 spec.mantissaBits power
  rw [one_mul, Nat.cast_one, one_mul] at hplaces
  rw [half_below_two_zpow, rounded,
    lastPlace_below_two_zpow spec power hpower (log_half_below_two_zpow spec power),
    mul_div_cancel_right₀ _ (two_zpow_pos _).ne',
    nearestEven_half_below _ (Nat.two_pow_pos _) heven, hplaces]

/-- Anything less is rounded below the power. -/
theorem rounded_lt_two_zpow (spec : Format) (power : Int) (hpos : 0 < x)
    (hpower : spec.minExponent + spec.mantissaBits ≤ power)
    (h : x < 2 ^ power - 2 ^ (power - spec.mantissaBits - 1)) : rounded spec x < 2 ^ power := by
  have hless := h.trans (sub_lt_self _ (two_zpow_pos _))
  have hlog : Int.log 2 x < power := by
    rw [← Int.lt_zpow_iff_log_lt Nat.one_lt_two hpos, Nat.cast_ofNat]
    exact hless
  rcases (Int.le_sub_one_of_lt hlog).lt_or_eq with hlower | hlast
  · -- Then there is a smaller power in between.
    have hnext := (Int.lt_zpow_iff_log_lt Nat.one_lt_two hpos).mpr hlower
    have hround := rounded_mono spec x _ hpos hnext.le
    rw [Nat.cast_ofNat, rounded_two_zpow spec (power - 1)
      (by rw [Format.mantissaBits] at hpower; omega)] at hround
    exact hround.trans_lt (zpow_lt_zpow_right₀ one_lt_two (by omega))
  · -- In its last places the number is more than half below a whole number.
    have hplaces := longer_mantissa 1 spec.mantissaBits power
    have hunit := two_zpow_pos (power - spec.mantissaBits)
    rw [one_mul, Nat.cast_one, one_mul] at hplaces
    rw [half_below_two_zpow, ← div_lt_iff₀ hunit] at h
    rw [rounded, lastPlace_below_two_zpow spec power hpower hlast, ← hplaces]
    refine mul_lt_mul_of_pos_right ?_ hunit
    exact Nat.cast_lt.mpr (nearestEven_lt _ _ (div_nonneg hpos.le hunit.le) h)

/-- A power of two is reached by rounding from half a place below it on. -/
theorem le_rounded_two_zpow_iff (spec : Format) (power : Int) (hpos : 0 < x)
    (hpower : spec.minExponent + spec.mantissaBits ≤ power) :
    2 ^ power ≤ rounded spec x ↔ 2 ^ power - 2 ^ (power - spec.mantissaBits - 1) ≤ x := by
  constructor
  · intro hreached
    by_contra hbelow
    exact hreached.not_gt (rounded_lt_two_zpow spec power hpos hpower (not_le.mp hbelow))
  · intro h
    have hbits := mantissaBits_pos spec
    have hlimit : (0 : Rat) < 2 ^ power - 2 ^ (power - spec.mantissaBits - 1) :=
      sub_pos.mpr (zpow_lt_zpow_right₀ one_lt_two (by omega))
    have hround := rounded_mono spec _ x hlimit h
    rwa [rounded_half_below_two_zpow spec power hpower] at hround

/-- A mantissa whose exponent fits the field is in the range of a format. -/
theorem lt_range_of_field (hwide : 2 ≤ spec.exponentBits) (mantissa : Nat) (exponent : Int)
    (hpos : 0 < mantissa)
    (hplace : spec.targetExponent (totalExponent mantissa exponent) = exponent)
    (hfield : exponent + spec.exponentBias + spec.mantissaBitsWithoutImplicit + 1
      < (2 ^ spec.exponentBits : Nat)) :
    (mantissa : Rat) * 2 ^ exponent < 2 ^ 2 ^ (spec.exponentBits - 1) := by
  rcases exponents_of_half spec hwide with ⟨half, htwo, hhalf, hrange, hbias, hmin⟩
  have hbits : spec.mantissaBits = spec.mantissaBitsWithoutImplicit + 1 := Nat.add_comm _ _
  have hshape := bits_of_place mantissa exponent hplace
  have hlog : Int.log 2 ((mantissa : Rat) * 2 ^ exponent) < half := by
    rw [log_of_floor mantissa mantissa exponent hpos le_rfl (lt_add_one _)]
    omega
  rw [← Int.lt_zpow_iff_log_lt Nat.one_lt_two
    (mul_pos (Nat.cast_pos.mpr hpos) (two_zpow_pos exponent)), ← hhalf] at hlog
  exact_mod_cast hlog

theorem unpack_packedInfinity (spec : Format) (sign : Sign) :
    UnpackedFloat.unpack spec (packedInfinity spec sign) = .infinity sign := by
  have hexponent : unpackExponent (packedInfinity spec sign) = -1#_ :=
    unpackExponent_packComponents
  have hmantissa : unpackMantissa (packedInfinity spec sign) = 0#_ :=
    unpackMantissa_packComponents
  rw [UnpackedFloat.unpack, if_pos hexponent, if_pos hmantissa, packedInfinity,
    unpackSign_packComponents, Sign.ofBitVec_toBitVec]

/-- What is packed above the range of a format becomes the infinity of its sign. -/
theorem Stands.unpack_pack_infinity (hwide : 2 ≤ spec.exponentBits) (h : Stands spec sign u x)
    (hle : 2 ^ 2 ^ (spec.exponentBits - 1) ≤ x) :
    UnpackedFloat.unpack spec (UnpackedFloat.pack spec u) = .infinity sign := by
  cases h with
  | zero => exact absurd hle (not_le.mpr (by positivity))
  | finite mantissa exponent hpos hplace =>
      rcases exponents_of_half spec hwide with ⟨half, htwo, hhalf, hrange, hbias, hmin⟩
      have hbits : spec.mantissaBits = spec.mantissaBitsWithoutImplicit + 1 := Nat.add_comm _ _
      have hlog : (half : Int) ≤ mantissa.log2 + exponent := by
        rw [← log_of_floor mantissa mantissa exponent hpos le_rfl (lt_add_one _),
          ← Int.zpow_le_iff_le_log Nat.one_lt_two
            (mul_pos (Nat.cast_pos.mpr hpos) (two_zpow_pos exponent)), ← hhalf]
        exact_mod_cast hle
      have hshape := bits_of_place mantissa exponent hplace
      rw [UnpackedFloat.pack, if_pos (by omega)]
      exact unpack_packedInfinity spec sign

/-- Within the range of a format a number is packed without loss. -/
theorem Denotes.unpack_pack (hwide : 2 ≤ spec.exponentBits) (h : Denotes spec u x)
    (hlt : |x| < 2 ^ 2 ^ (spec.exponentBits - 1)) :
    UnpackedFloat.unpack spec (UnpackedFloat.pack spec u) = u := by
  rcases h with ⟨sign, x, h⟩
  rw [abs_withSign sign h.nonneg] at hlt
  exact h.unpack_pack hwide hlt

/-- Above it there is the one infinity. -/
theorem Denotes.unpack_pack_above (hwide : 2 ≤ spec.exponentBits) (h : Denotes spec u x)
    (hle : 2 ^ 2 ^ (spec.exponentBits - 1) ≤ x) :
    UnpackedFloat.unpack spec (UnpackedFloat.pack spec u) = .infinity .positive := by
  have hrange : (0 : Rat) < 2 ^ 2 ^ (spec.exponentBits - 1) := by positivity
  rcases h with ⟨_ | _, x, h⟩
  · exact absurd (hrange.trans_le hle) (neg_nonpos.mpr h.nonneg).not_gt
  · exact h.unpack_pack_infinity hwide hle

/-- Below it there is the other. -/
theorem Denotes.unpack_pack_below (hwide : 2 ≤ spec.exponentBits) (h : Denotes spec u x)
    (hle : x ≤ -2 ^ 2 ^ (spec.exponentBits - 1)) :
    UnpackedFloat.unpack spec (UnpackedFloat.pack spec u) = .infinity .negative := by
  have hrange : (0 : Rat) < 2 ^ 2 ^ (spec.exponentBits - 1) := by positivity
  rcases h with ⟨_ | _, x, h⟩
  · exact h.unpack_pack_infinity hwide (neg_le_neg_iff.mp hle)
  · exact absurd (hle.trans_lt (neg_neg_of_pos hrange)) h.nonneg.not_gt

end CommitRisk
