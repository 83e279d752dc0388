import CommitRisk.Proofs.Parts
import CommitRisk.Proofs.SignedRounding

/-!
# The Mean of Two Doubles

The mean of two doubles is half of their sum, and the sum is worked out first. So the mean can
be lost although it is in range: the sum of two large doubles is out of range and becomes an
infinity, which half of it is too, and the two infinities have no sum at all.
`MeanOf` lists what can come of two doubles. In all other cases the mean lies between them.

Doubles other than a NaN lie on a line from below all numbers to above all numbers, and this is
how they are compared.

## Main definitions

* `numberOf?`: The number that a double is.
* `doubleRange`, `sumLimit`: The end of the range, and where sums get out of it.
* `nearestDouble`: The double nearest to a number.
* `LiesAt`: Where a double lies on the line.
* `MeanOf`: What comes of halving the sum of two doubles.

## Theorems

* `denotes_of_numberOf?`: The number read off the bits is the one that is denoted.
* `LiesAt.le_iff`: Doubles are compared by where they lie.
* `sumLimit_le_iff`: When a sum is rounded out of range.
* `numberOf?_add`, `numberOf?_half`: Sums and halves that are in range.
* `meanOf_half_sum`: The mean of two doubles is one of those listed.
-/

namespace CommitRisk

open Float.Model (Format UnpackedFloat totalExponent)
open Float.Model.UnpackedFloat

variable {a b c : Float} {x y : Rat} {sign : Sign}

/-! ## Reading doubles -/

/-- The number that a double is, unless it is infinite or none. -/
def numberOf? (a : Float) : Option Rat :=
  match Binary.ofFloat a with
  | .finite negative mantissa exponent => some (signedValue negative mantissa exponent)
  | _ => none

theorem signedValue_eq (sign : Sign) (mantissa : Nat) (exponent : Int) :
    signedValue (sign == .negative) mantissa exponent
      = withSign sign (mantissa * 2 ^ exponent) := by
  cases sign with
  | positive => exact congrArg (· * _) (one_mul _)
  | negative =>
      change -1 * (mantissa : Rat) * 2 ^ exponent = -(mantissa * 2 ^ exponent)
      ring

/-- The number that is read off the bits of a double is the one it denotes. -/
theorem numberOf?_of_denotes (h : Denotes Format.binary64 a.toModel.unpack x) :
    numberOf? a = some x := by
  rcases h with ⟨sign, x, h⟩
  rw [numberOf?, Binary.ofFloat_eq]
  generalize a.toModel.unpack = u at h
  cases h with
  | zero =>
      simp only [Binary.ofUnpacked, signedValue_eq, Nat.cast_zero, zero_mul]
  | finite mantissa exponent _ _ => simp only [Binary.ofUnpacked, signedValue_eq]

/-- Where the range of doubles ends. -/
def doubleRange : Rat :=
  2 ^ 2 ^ (Format.binary64.exponentBits - 1)

theorem doubleRange_pos : 0 < doubleRange :=
  pow_pos two_pos _

/-- A double that is a number denotes it, and the number is in range. -/
theorem denotes_of_numberOf? (h : numberOf? a = some x) :
    Denotes Format.binary64 a.toModel.unpack x ∧ |x| < doubleRange := by
  rw [numberOf?, Binary.ofFloat_eq] at h
  cases hu : a.toModel.unpack with
  | notANumber => simp only [hu, Binary.ofUnpacked, reduceCtorEq] at h
  | infinity sign => simp only [hu, Binary.ofUnpacked, reduceCtorEq] at h
  | zero sign =>
      simp only [hu, Binary.ofUnpacked, signedValue_eq, Nat.cast_zero, zero_mul, withSign_zero,
        Option.some.injEq] at h
      rw [← h, abs_zero]
      exact ⟨denotes_zero _ sign, doubleRange_pos⟩
  | finite sign mantissa exponent hpos =>
      simp only [hu, Binary.ofUnpacked, signedValue_eq, Option.some.injEq] at h
      -- The bits of a mantissa and its exponent are those of a number in its place.
      rcases place_of_unpack Format.binary64 (by decide) _ mantissa exponent hpos hu with
        ⟨hplace, hfield⟩
      have hstands : Stands Format.binary64 sign (.finite sign mantissa exponent hpos)
          (mantissa * 2 ^ exponent) := .finite mantissa exponent hpos hplace
      refine ⟨h ▸ .of sign _ hstands, ?_⟩
      rw [← h, abs_withSign sign hstands.nonneg]
      exact lt_range_of_field (by decide) mantissa exponent hpos hplace hfield

/-- The sign that a bit stands for. -/
def signOf (negative : Bool) : Sign :=
  if negative then .negative else .positive

/-- An infinity is read off the bits of an infinity. -/
theorem ofFloat_eq_infinite_iff (a : Float) (negative : Bool) :
    Binary.ofFloat a = .infinite negative ↔ a.toModel.unpack = .infinity (signOf negative) := by
  have hsign : (signOf negative == .negative) = negative := by
    cases negative <;> rfl
  rw [Binary.ofFloat_eq]
  constructor
  · intro h
    refine Binary.ofUnpacked_inj Format.binary64 ?_
    rw [h, Binary.ofUnpacked, hsign]
  · intro h
    rw [h, Binary.ofUnpacked, hsign]

theorem isNaN_eq_true_iff (a : Float) : a.isNaN = true ↔ a.toModel.unpack = .notANumber :=
  UnpackedFloat.isNaN_iff

/-- What is no NaN is an infinity or a number. -/
theorem double_cases (a : Float) (h : a.isNaN = false) :
    (∃ negative, Binary.ofFloat a = .infinite negative) ∨ ∃ x, numberOf? a = some x := by
  rw [numberOf?, Binary.ofFloat_eq]
  cases hu : a.toModel.unpack with
  | notANumber => exact absurd ((isNaN_eq_true_iff a).mpr hu) (by rw [h]; exact Bool.false_ne_true)
  | infinity sign => exact .inl ⟨_, rfl⟩
  | zero sign => exact .inr ⟨_, rfl⟩
  | finite sign mantissa exponent hpos => exact .inr ⟨_, rfl⟩

theorem ofFloat_ne_infinite (h : numberOf? a = some x) (negative : Bool) :
    Binary.ofFloat a ≠ .infinite negative := by
  intro hinfinite
  simp only [numberOf?, hinfinite, reduceCtorEq] at h

theorem isNaN_of_infinite (negative : Bool) (h : Binary.ofFloat a = .infinite negative) :
    a.isNaN = false := by
  rw [ofFloat_eq_infinite_iff] at h
  rw [Bool.eq_false_iff, ne_eq, isNaN_eq_true_iff, h]
  exact UnpackedFloat.noConfusion

theorem isNaN_of_number (h : numberOf? a = some x) : a.isNaN = false := by
  rw [Bool.eq_false_iff, ne_eq, isNaN_eq_true_iff]
  intro hnan
  simp only [numberOf?, Binary.ofFloat_eq, hnan, Binary.ofUnpacked, reduceCtorEq] at h

/-! ## The line -/

/-- Where a double lies: at its number, or at one of the two ends. -/
inductive LiesAt (a : Float) : WithBot (WithTop Rat) → Prop where
  | bottom (h : Binary.ofFloat a = .infinite true) : LiesAt a ⊥
  | number (x : Rat) (h : numberOf? a = some x) :
      LiesAt a ((x : WithTop Rat) : WithBot (WithTop Rat))
  | top (h : Binary.ofFloat a = .infinite false) :
      LiesAt a ((⊤ : WithTop Rat) : WithBot (WithTop Rat))

theorem exists_liesAt (a : Float) (h : a.isNaN = false) : ∃ place, LiesAt a place := by
  rcases double_cases a h with ⟨_ | _, hinfinite⟩ | ⟨x, hx⟩
  · exact ⟨_, .top hinfinite⟩
  · exact ⟨_, .bottom hinfinite⟩
  · exact ⟨_, .number x hx⟩

theorem float_le_eq (a b : Float) : a ≤ b ↔ a.toModel.unpack.le b.toModel.unpack = true := by
  change decide (a.toModel ≤ b.toModel) = true ↔ _
  rw [decide_eq_true_eq]
  exact Iff.rfl

/-- Doubles are compared by where they lie. -/
theorem LiesAt.le_iff {k l : WithBot (WithTop Rat)} (ha : LiesAt a k) (hb : LiesAt b l) :
    a ≤ b ↔ k ≤ l := by
  have hbottom : ∀ c : Float, Binary.ofFloat c = .infinite true →
      c.toModel.unpack = .infinity .negative := fun c => (ofFloat_eq_infinite_iff c true).mp
  have htop : ∀ c : Float, Binary.ofFloat c = .infinite false →
      c.toModel.unpack = .infinity .positive := fun c => (ofFloat_eq_infinite_iff c false).mp
  rw [float_le_eq]
  cases ha with
  | bottom ha =>
      rw [hbottom a ha]
      refine iff_of_true ?_ bot_le
      cases hb with
      | bottom hb => rw [hbottom b hb]; rfl
      | number y hb => exact (denotes_of_numberOf? hb).1.between_infinities.1
      | top hb => rw [htop b hb]; rfl
  | number x ha =>
      have hx := (denotes_of_numberOf? ha).1
      cases hb with
      | bottom hb =>
          rw [hbottom b hb, hx.between_infinities.2.1]
          exact iff_of_false Bool.false_ne_true (by simp)
      | number y hb =>
          rw [hx.le_iff (denotes_of_numberOf? hb).1, WithBot.coe_le_coe, WithTop.coe_le_coe]
      | top hb =>
          rw [htop b hb, hx.between_infinities.2.2.1]
          exact iff_of_true rfl (WithBot.coe_le_coe.mpr le_top)
  | top ha =>
      rw [htop a ha]
      cases hb with
      | bottom hb =>
          rw [hbottom b hb]
          exact iff_of_false Bool.false_ne_true (by simp)
      | number y hb =>
          rw [(denotes_of_numberOf? hb).1.between_infinities.2.2.2]
          exact iff_of_false Bool.false_ne_true (by simp)
      | top hb =>
          rw [htop b hb]
          exact iff_of_true rfl le_rfl

/-! ## Sums -/

/-- Half a place below the end of the range, from where on a sum is rounded out of it. -/
def sumLimit : Rat :=
  2 ^ 1024 - 2 ^ 970

theorem doubleRange_eq : doubleRange = 2 ^ (1024 : Int) := by
  have hpower : 2 ^ (Format.binary64.exponentBits - 1) = 1024 := by decide
  rw [doubleRange, hpower]
  exact (zpow_natCast (2 : Rat) 1024).symm

theorem sumLimit_eq : sumLimit = 2 ^ (1024 : Int) - 2 ^ (970 : Int) := by
  rw [sumLimit]
  exact congrArg₂ (· - ·) (zpow_natCast (2 : Rat) 1024).symm (zpow_natCast (2 : Rat) 970).symm

theorem sumLimit_pos : 0 < sumLimit := by
  rw [sumLimit_eq]
  exact sub_pos.mpr (zpow_lt_zpow_right₀ one_lt_two (by decide))

/-- The number of the format of doubles nearest to a number. -/
def nearestDouble (x : Rat) : Rat :=
  nearest Format.binary64 x

/-- A number is rounded out of the range from the limit on. -/
theorem sumLimit_le_iff (x : Rat) : doubleRange ≤ nearestDouble x ↔ sumLimit ≤ x := by
  rcases le_or_gt x 0 with hx | hx
  · have hnearest := nearest_nonneg Format.binary64 (neg_nonneg.mpr hx)
    rw [nearest_neg] at hnearest
    exact iff_of_false ((neg_nonneg.mp hnearest).trans_lt doubleRange_pos).not_ge
      (hx.trans_lt sumLimit_pos).not_ge
  · rw [nearestDouble, nearest, if_pos hx.le, doubleRange_eq, sumLimit_eq]
    exact le_rounded_two_zpow_iff Format.binary64 1024 hx (by decide)

theorem le_neg_sumLimit_iff (x : Rat) : nearestDouble x ≤ -doubleRange ↔ x ≤ -sumLimit := by
  have hturned := sumLimit_le_iff (-x)
  rw [nearestDouble, nearest_neg] at hturned
  exact le_neg.trans (hturned.trans le_neg)

/-- A sum is worked out exactly as far as it is needed, and packed. -/
theorem unpack_add (a b : Float) : (a + b).toModel.unpack
    = UnpackedFloat.unpack Format.binary64 (UnpackedFloat.pack Format.binary64
        (UnpackedFloat.add Format.binary64 a.toModel.unpack b.toModel.unpack)) :=
  rfl

/-- So is a half. -/
theorem unpack_half (c : Float) : (c / 2.0).toModel.unpack
    = UnpackedFloat.unpack Format.binary64 (UnpackedFloat.pack Format.binary64
        (UnpackedFloat.div Format.binary64 c.toModel.unpack (2.0 : Float).toModel.unpack)) :=
  rfl

/-- The sum of two numbers is the double nearest to it, unless that is out of range. -/
theorem numberOf?_add (ha : numberOf? a = some x) (hb : numberOf? b = some y)
    (h : |nearestDouble (x + y)| < doubleRange) :
    numberOf? (a + b) = some (nearestDouble (x + y)) := by
  have hsum := (denotes_of_numberOf? ha).1.add (denotes_of_numberOf? hb).1
  refine numberOf?_of_denotes ?_
  rw [unpack_add, hsum.unpack_pack (by decide) h]
  exact hsum

theorem ofFloat_add_above (ha : numberOf? a = some x) (hb : numberOf? b = some y)
    (h : doubleRange ≤ nearestDouble (x + y)) : Binary.ofFloat (a + b) = .infinite false := by
  have hsum := (denotes_of_numberOf? ha).1.add (denotes_of_numberOf? hb).1
  rw [ofFloat_eq_infinite_iff, unpack_add, hsum.unpack_pack_above (by decide) h]
  rfl

theorem ofFloat_add_below (ha : numberOf? a = some x) (hb : numberOf? b = some y)
    (h : nearestDouble (x + y) ≤ -doubleRange) : Binary.ofFloat (a + b) = .infinite true := by
  have hsum := (denotes_of_numberOf? ha).1.add (denotes_of_numberOf? hb).1
  rw [ofFloat_eq_infinite_iff, unpack_add, hsum.unpack_pack_below (by decide) h]
  rfl

theorem two_stands : Stands Format.binary64 .positive (2.0 : Float).toModel.unpack 2 := by
  have hvalue : (2 : Rat) = (2 ^ 52 : Nat) * 2 ^ (-51 : Int) := by norm_num
  rw [hvalue]
  exact .finite _ _ (Nat.two_pow_pos 52) (by decide)

/-- Half of a number is the double nearest to it. -/
theorem numberOf?_half (h : numberOf? c = some x) :
    numberOf? (c / 2.0) = some (nearestDouble (x / 2)) := by
  rcases denotes_of_numberOf? h with ⟨hc, hrange⟩
  have hhalf := hc.div two_stands two_pos
  -- Half of a number is no larger than the number, which is in range.
  have hin : |nearestDouble (x / 2)| < doubleRange := by
    have hless : |x / 2| ≤ |x| := by
      rw [abs_div, abs_two]
      exact half_le_self (abs_nonneg x)
    have hmono := nearest_mono Format.binary64 hless
    rw [nearest_abs, nearest_abs, hc.nearest_eq] at hmono
    exact hmono.trans_lt hrange
  refine numberOf?_of_denotes ?_
  rw [unpack_half, hhalf.unpack_pack (by decide) hin]
  exact hhalf

/-! ## Infinities -/

/-- Half of an infinity is the infinity. -/
theorem ofFloat_half_infinite (negative : Bool) (h : Binary.ofFloat c = .infinite negative) :
    Binary.ofFloat (c / 2.0) = .infinite negative := by
  rw [ofFloat_eq_infinite_iff] at h ⊢
  have hquotient : UnpackedFloat.div Format.binary64 (.infinity (signOf negative))
      (2.0 : Float).toModel.unpack = .infinity (signOf negative) := by
    cases negative <;> rfl
  rw [unpack_half, h, hquotient]
  exact unpack_packedInfinity Format.binary64 _

/-- An infinity takes over every sum but that with the other infinity. -/
theorem ofFloat_add_infinite (negative : Bool)
    (h : Binary.ofFloat a = .infinite negative ∧ b.isNaN = false ∧
        Binary.ofFloat b ≠ .infinite (!negative) ∨
      Binary.ofFloat b = .infinite negative ∧ a.isNaN = false ∧
        Binary.ofFloat a ≠ .infinite (!negative)) :
    Binary.ofFloat (a + b) = .infinite negative := by
  have hnan : ∀ c : Float, c.isNaN = false ↔ c.toModel.unpack ≠ .notANumber := by
    intro c
    rw [ne_eq, ← isNaN_eq_true_iff, Bool.not_eq_true]
  simp only [ne_eq, ofFloat_eq_infinite_iff, hnan] at h ⊢
  -- The other summand is a number or the same infinity.
  have hsum : UnpackedFloat.add Format.binary64 a.toModel.unpack b.toModel.unpack
      = .infinity (signOf negative) := by
    generalize a.toModel.unpack = u at h
    generalize b.toModel.unpack = v at h
    rcases h with ⟨rfl, hnumber, hother⟩ | ⟨rfl, hnumber, hother⟩
    · rcases v with ⟨_ | _⟩ | _ | ⟨_ | _⟩ | _ <;> cases negative <;>
        first | rfl | exact absurd rfl hnumber | exact absurd rfl hother
    · rcases u with ⟨_ | _⟩ | _ | ⟨_ | _⟩ | _ <;> cases negative <;>
        first | rfl | exact absurd rfl hnumber | exact absurd rfl hother
  rw [unpack_add, hsum]
  exact unpack_packedInfinity Format.binary64 _

/-- The two infinities have no mean. -/
theorem isNaN_half_opposite (negative : Bool) (ha : Binary.ofFloat a = .infinite negative)
    (hb : Binary.ofFloat b = .infinite (!negative)) : ((a + b) / 2.0).isNaN = true := by
  rw [ofFloat_eq_infinite_iff] at ha hb
  have hsum : (a + b).toModel.unpack = .notANumber := by
    rw [unpack_add, ha, hb]
    cases negative <;> exact unpack_packedNaN
  rw [isNaN_eq_true_iff, unpack_half, hsum]
  exact unpack_packedNaN

/-! ## Means -/

/-- What can come of halving the sum of two doubles. -/
inductive MeanOf (a b m : Float) : Prop where
  /-- Opposite infinities have no mean. -/
  | opposite (negative : Bool) (ha : Binary.ofFloat a = .infinite negative)
      (hb : Binary.ofFloat b = .infinite (!negative)) (hm : m.isNaN = true)
  /-- A single infinity is the mean. -/
  | infinite (negative : Bool) (hm : Binary.ofFloat m = .infinite negative)
      (h : Binary.ofFloat a = .infinite negative ∧ Binary.ofFloat b ≠ .infinite (!negative) ∨
        Binary.ofFloat b = .infinite negative ∧ Binary.ofFloat a ≠ .infinite (!negative))
  /-- Two large numbers have an infinite sum. -/
  | above (x y : Rat) (ha : numberOf? a = some x) (hb : numberOf? b = some y)
      (hsum : sumLimit ≤ x + y) (hm : Binary.ofFloat m = .infinite false)
  /-- So have two numbers far below zero. -/
  | below (x y : Rat) (ha : numberOf? a = some x) (hb : numberOf? b = some y)
      (hsum : x + y ≤ -sumLimit) (hm : Binary.ofFloat m = .infinite true)
  /-- All other numbers have a mean between them. -/
  | number (x y z : Rat) (ha : numberOf? a = some x) (hb : numberOf? b = some y)
      (hsum : |x + y| < sumLimit) (hm : numberOf? m = some z) (hlow : min x y ≤ z)
      (hhigh : z ≤ max x y)

theorem half_sum_between (ha : numberOf? a = some x) (hb : numberOf? b = some y) :
    min x y ≤ nearestDouble (nearestDouble (x + y) / 2) ∧
      nearestDouble (nearestDouble (x + y) / 2) ≤ max x y := by
  have hx := (denotes_of_numberOf? ha).1
  have hy := (denotes_of_numberOf? hb).1
  rcases le_total x y with h | h
  · rw [min_eq_left h, max_eq_right h]
    exact hx.half_add_between hy h
  · rw [min_eq_right h, max_eq_left h, add_comm]
    exact hy.half_add_between hx h

theorem meanOf_half_sum (a b : Float) (ha : a.isNaN = false) (hb : b.isNaN = false) :
    MeanOf a b ((a + b) / 2.0) := by
  rcases double_cases a ha with ⟨negative, hinfinite⟩ | ⟨x, hx⟩
  · by_cases hother : Binary.ofFloat b = .infinite (!negative)
    · exact .opposite negative hinfinite hother (isNaN_half_opposite negative hinfinite hother)
    · have hsum := ofFloat_add_infinite negative (.inl ⟨hinfinite, hb, hother⟩)
      exact .infinite negative (ofFloat_half_infinite negative hsum) (.inl ⟨hinfinite, hother⟩)
  · rcases double_cases b hb with ⟨negative, hinfinite⟩ | ⟨y, hy⟩
    · have hother := ofFloat_ne_infinite hx (!negative)
      have hsum := ofFloat_add_infinite negative (.inr ⟨hinfinite, ha, hother⟩)
      exact .infinite negative (ofFloat_half_infinite negative hsum) (.inr ⟨hinfinite, hother⟩)
    · -- Of two numbers it is the exact sum that decides.
      rcases le_or_gt sumLimit (x + y) with habove | habove
      · have hsum := ofFloat_add_above hx hy ((sumLimit_le_iff (x + y)).mpr habove)
        exact .above x y hx hy habove (ofFloat_half_infinite false hsum)
      · rcases le_or_gt (x + y) (-sumLimit) with hbelow | hbelow
        · have hsum := ofFloat_add_below hx hy ((le_neg_sumLimit_iff (x + y)).mpr hbelow)
          exact .below x y hx hy hbelow (ofFloat_half_infinite true hsum)
        · have hin : |nearestDouble (x + y)| < doubleRange := by
            rw [abs_lt]
            constructor
            · exact not_le.mp ((le_neg_sumLimit_iff (x + y)).not.mpr hbelow.not_ge)
            · exact not_le.mp ((sumLimit_le_iff (x + y)).not.mpr habove.not_ge)
          have hmean := numberOf?_half (numberOf?_add hx hy hin)
          rcases half_sum_between hx hy with ⟨hlow, hhigh⟩
          exact .number x y _ hx hy (abs_lt.mpr ⟨hbelow, habove⟩) hmean hlow hhigh

end CommitRisk
