import CommitRisk.Number.Binary
import CommitRisk.Proofs.Rounding

/-!
# Floats and Their Bits

The bits of a float are three fields, and they are read in two places: where a float is taken
apart into a mantissa at its last place, and where it is read into `Binary`. Both give the same
(`Binary.ofFloat32_eq`, `Binary.ofFloat_eq`), since both are `Binary.ofFields` of the fields.

Packing a float and taking it apart again gives it back as long as its number is in the range
of the format. This is where rounding without regard to the range meets the range: a result
that is rounded and then packed stands for what it was rounded to if that is not too large.

Widening works on the bits. A single has a shorter mantissa and a smaller range than a double,
so the mantissa is made longer, the field of the exponent fits, and the number stays the
same.

## Main definitions

* `Binary.ofFields`: What the fields of a float stand for.
* `Binary.ofUnpacked`: A float that was taken apart, as it is read.

## Theorems

* `Binary.ofUnpacked_unpack`: Taking a float apart reads its fields.
* `Stands.unpack_pack`: A number in the range of a format is packed without loss.
* `place_of_unpack`: A finite float is at its last place.
* `widen_stands`: Widening keeps the number.
* `isNaN_narrow`: Narrowing a number does not give a NaN.
* `single_not_le_iff`: When a single is not at most another.
* `Stands.ofFloat`: The number of a double is read off its bits.
* `float_eq_of_stands`, `float_le_iff`: Doubles are compared like their numbers.
-/

namespace CommitRisk

open Float.Model (Format UnpackedFloat totalExponent)
open Float.Model.UnpackedFloat

variable {spec : Format} {sign : Sign} {u v : UnpackedFloat} {x y : Rat}

/-! ## Bits -/

namespace Binary

/-- What the fields of a float stand for. -/
def ofFields (spec : Format) (negative : Bool) (field fraction : Nat) : Binary :=
  if field = 2 ^ spec.exponentBits - 1 then
    if fraction = 0 then .infinite negative else .nan
  else if field = 0 then .finite negative fraction spec.minExponent
  else .finite negative (2 ^ spec.mantissaBitsWithoutImplicit + fraction)
    (field - (spec.exponentBias + spec.mantissaBitsWithoutImplicit))

/-- A float that was taken apart, read as its bits are. -/
def ofUnpacked (spec : Format) : UnpackedFloat → Binary
  | .notANumber => .nan
  | .infinity sign => .infinite (sign == .negative)
  | .zero sign => .finite (sign == .negative) 0 spec.minExponent
  | .finite sign mantissa exponent _ => .finite (sign == .negative) mantissa exponent

theorem sign_inj (sign sign' : Sign) (h : (sign == .negative) = (sign' == .negative)) :
    sign = sign' := by
  cases sign with
  | positive =>
      cases sign' with
      | positive => rfl
      | negative => cases h
  | negative =>
      cases sign' with
      | positive => cases h
      | negative => rfl

theorem ofUnpacked_inj (spec : Format) (h : ofUnpacked spec u = ofUnpacked spec v) : u = v := by
  cases u <;> cases v <;> simp only [ofUnpacked, reduceCtorEq, Binary.finite.injEq,
    Binary.infinite.injEq] at h
  case infinity.infinity => rw [sign_inj _ _ h]
  case notANumber.notANumber => rfl
  case zero.zero => rw [sign_inj _ _ h.1]
  case zero.finite hpos => omega
  case finite.zero hpos => omega
  case finite.finite =>
    rcases h with ⟨hsign, rfl, rfl⟩
    rw [sign_inj _ _ hsign]

theorem ofUnpacked_unpack (b : BitVec spec.numBits) :
    ofUnpacked spec (unpack spec b)
      = ofFields spec ((unpackSign b).toNat == 1) (unpackExponent b).toNat
          (unpackMantissa b).toNat := by
  have hsign : ∀ bit : BitVec 1, (Sign.ofBitVec bit == .negative) = (bit.toNat == 1) := by
    decide
  have hones : unpackExponent b = -1#_ ↔ (unpackExponent b).toNat = 2 ^ spec.exponentBits - 1 := by
    rw [← BitVec.toNat_inj, BitVec.neg_one_eq_allOnes, BitVec.toNat_allOnes]
  have hzero : unpackExponent b = 0#_ ↔ (unpackExponent b).toNat = 0 := by
    rw [← BitVec.toNat_inj, BitVec.toNat_ofNat, Nat.zero_mod]
  have hfraction : unpackMantissa b = 0#_ ↔ (unpackMantissa b).toNat = 0 := by
    rw [← BitVec.toNat_inj, BitVec.toNat_ofNat, Nat.zero_mod]
  have hmin : (0 : Nat) - ((spec.exponentBias : Int) + spec.mantissaBitsWithoutImplicit) + 1
      = spec.minExponent := by
    rw [Format.minExponent, Format.mantissaBits, Format.exponentBias,
      Nat.cast_sub Nat.one_le_two_pow]
    push_cast
    ring
  have hnormal : (1#1 ++ unpackMantissa b).toNat
      = 2 ^ spec.mantissaBitsWithoutImplicit + (unpackMantissa b).toNat := by
    have hor := Nat.two_pow_add_eq_or_of_lt (unpackMantissa b).isLt 1
    rw [mul_one] at hor
    rw [BitVec.toNat_append, Nat.shiftLeft_eq, hor]
    exact congrArg (· ||| (unpackMantissa b).toNat) (one_mul _)
  rw [UnpackedFloat.unpack, ofFields]
  by_cases hfield : unpackExponent b = -1#_
  · rw [if_pos hfield, if_pos (hones.mp hfield)]
    by_cases hrest : unpackMantissa b = 0#_
    · rw [if_pos hrest, if_pos (hfraction.mp hrest), ofUnpacked, hsign]
    · rw [if_neg hrest, if_neg (hfraction.not.mp hrest), ofUnpacked]
  · rw [if_neg hfield, if_neg (hones.not.mp hfield)]
    by_cases hnone : unpackExponent b = 0#_
    · rw [if_pos hnone, if_pos (hzero.mp hnone)]
      by_cases hrest : unpackMantissa b = 0#_
      · rw [dif_pos hrest, ofUnpacked, hsign, hfraction.mp hrest]
      · rw [dif_neg hrest, ofUnpacked, hsign, hzero.mp hnone, hmin]
    · rw [if_neg hnone, if_neg (hzero.not.mp hnone), ofUnpacked, hsign, hnormal]

/-- The fields of a float, cut out of its bits. -/
theorem ofUnpacked_bits (b : BitVec spec.numBits) :
    ofUnpacked spec (UnpackedFloat.unpack spec b)
      = ofFields spec
          (b.toNat / 2 ^ (spec.mantissaBitsWithoutImplicit + spec.exponentBits) % 2 ^ 1 == 1)
          (b.toNat / 2 ^ spec.mantissaBitsWithoutImplicit % 2 ^ spec.exponentBits)
          (b.toNat % 2 ^ spec.mantissaBitsWithoutImplicit) := by
  rw [ofUnpacked_unpack, unpackSign_def, unpackExponent_def, unpackMantissa_def,
    BitVec.extractLsb'_toNat, BitVec.extractLsb'_toNat, BitVec.extractLsb'_toNat,
    Nat.shiftRight_eq_div_pow, Nat.shiftRight_eq_div_pow, Nat.shiftRight_zero]

end Binary

/-- At its last place a number has all the bits of a mantissa, unless that place is the
    smallest. -/
theorem bits_of_place (mantissa : Nat) (exponent : Int)
    (hplace : spec.targetExponent (totalExponent mantissa exponent) = exponent) :
    mantissa.log2 + 1 = spec.mantissaBits ∧ spec.minExponent ≤ exponent ∨
      mantissa.log2 + 1 < spec.mantissaBits ∧ exponent = spec.minExponent := by
  unfold Format.targetExponent totalExponent at hplace
  omega

/-- Half the range of the exponent field in the terms of a format. -/
theorem exponents_of_half (spec : Format) (hwide : 2 ≤ spec.exponentBits) :
    ∃ half : Nat, 2 ≤ half ∧ 2 ^ (spec.exponentBits - 1) = half ∧ 2 ^ spec.exponentBits = 2 * half ∧
      spec.exponentBias + 1 = half ∧
      spec.minExponent = 2 - half - (spec.mantissaBitsWithoutImplicit : Int) := by
  refine ⟨2 ^ (spec.exponentBits - 1), ?_, rfl, ?_, ?_, ?_⟩
  · exact Nat.pow_le_pow_right Nat.two_pos (show 1 ≤ spec.exponentBits - 1 by omega)
  · rw [← pow_succ', Nat.sub_add_cancel (by omega)]
  · rw [Format.exponentBias, Nat.sub_add_cancel Nat.one_le_two_pow]
  · rw [Format.minExponent, Format.mantissaBits]
    push_cast
    ring

/-- A mantissa at its last place is packed without loss if its exponent fits the field. -/
theorem unpack_pack_of_place (spec : Format) (hwide : 2 ≤ spec.exponentBits) (sign : Sign)
    (mantissa : Nat) (exponent : Int) (hpos : 0 < mantissa)
    (hplace : spec.targetExponent (totalExponent mantissa exponent) = exponent)
    (hfield : exponent + spec.exponentBias + spec.mantissaBitsWithoutImplicit + 1
      < (2 ^ spec.exponentBits : Nat)) :
    UnpackedFloat.unpack spec (UnpackedFloat.pack spec (.finite sign mantissa exponent hpos))
      = .finite sign mantissa exponent hpos := by
  have hbits : spec.mantissaBits = spec.mantissaBitsWithoutImplicit + 1 := Nat.add_comm _ _
  rcases exponents_of_half spec hwide with ⟨half, htwo, _, hrange, hbias, hmin⟩
  have hsign : (sign.toBitVec.toNat == 1) = (sign == .negative) := by
    cases sign <;> rfl
  have hlow := Nat.log2_self_le hpos.ne'
  have hhigh := Nat.lt_log2_self (n := mantissa)
  refine Binary.ofUnpacked_inj spec ?_
  rw [Binary.ofUnpacked_unpack, UnpackedFloat.pack]
  rcases bits_of_place mantissa exponent hplace with ⟨hfull, hexponent⟩ | ⟨hfew, rfl⟩
  · -- The field holds the exponent, and the fraction is the mantissa without its first bit.
    rw [if_neg (by omega), if_pos hfull, unpackSign_packComponents,
      unpackExponent_packComponents, unpackMantissa_packComponents, BitVec.toNat_ofNat,
      BitVec.toNat_ofNat, Nat.mod_eq_of_lt (by omega), Binary.ofFields, if_neg (by omega),
      if_neg (by omega), hsign, Binary.ofUnpacked]
    rw [show mantissa.log2 = spec.mantissaBitsWithoutImplicit by omega, pow_succ] at hhigh
    rw [show mantissa.log2 = spec.mantissaBitsWithoutImplicit by omega] at hlow
    rw [Nat.mod_eq_sub_mod hlow, Nat.mod_eq_of_lt (by omega), Nat.add_sub_cancel' hlow]
    congr 1
    omega
  · rw [if_neg (by omega), if_neg (by omega), unpackSign_packComponents,
      unpackExponent_packComponents, unpackMantissa_packComponents, BitVec.toNat_ofNat,
      BitVec.toNat_ofNat, Nat.zero_mod,
      Nat.mod_eq_of_lt ((Nat.log2_lt hpos.ne').mp (by omega)), Binary.ofFields,
      if_neg (by omega), if_pos rfl, hsign, Binary.ofUnpacked]

/-- A number that is not too large for a format is packed without loss. -/
theorem Stands.unpack_pack (hwide : 2 ≤ spec.exponentBits) (h : Stands spec sign u x)
    (hlt : x < 2 ^ 2 ^ (spec.exponentBits - 1)) :
    UnpackedFloat.unpack spec (UnpackedFloat.pack spec u) = u := by
  cases h with
  | zero => exact unpack_packedZero
  | finite mantissa exponent hpos hplace =>
      rcases exponents_of_half spec hwide with ⟨half, htwo, hhalf, hrange, hbias, hmin⟩
      have hbits : spec.mantissaBits = spec.mantissaBitsWithoutImplicit + 1 := Nat.add_comm _ _
      have hlog : (mantissa.log2 : Int) + exponent < half := by
        rw [← log_of_floor mantissa mantissa exponent hpos le_rfl (lt_add_one _),
          ← Int.lt_zpow_iff_log_lt Nat.one_lt_two
            (mul_pos (Nat.cast_pos.mpr hpos) (two_zpow_pos exponent)), ← hhalf]
        exact_mod_cast hlt
      have hshape := bits_of_place mantissa exponent hplace
      exact unpack_pack_of_place spec hwide sign mantissa exponent hpos hplace (by omega)

/-- A finite float is at its last place, and its exponent fits the field. -/
theorem place_of_unpack (spec : Format) (hwide : 2 ≤ spec.exponentBits) (b : BitVec spec.numBits)
    (mantissa : Nat) (exponent : Int) (hpos : 0 < mantissa)
    (h : UnpackedFloat.unpack spec b = .finite sign mantissa exponent hpos) :
    spec.targetExponent (totalExponent mantissa exponent) = exponent ∧
      exponent + spec.exponentBias + spec.mantissaBitsWithoutImplicit + 1
        < (2 ^ spec.exponentBits : Nat) := by
  have hbits : spec.mantissaBits = spec.mantissaBitsWithoutImplicit + 1 := Nat.add_comm _ _
  have hfield := (unpackExponent b).isLt
  have hfraction := (unpackMantissa b).isLt
  have hread := Binary.ofUnpacked_unpack b
  rcases exponents_of_half spec hwide with ⟨half, htwo, _, hrange, hbias, hmin⟩
  rw [h, Binary.ofUnpacked, Binary.ofFields] at hread
  unfold Format.targetExponent totalExponent
  split_ifs at hread with hones hrest hnone
  · -- At the smallest place the mantissa is the fraction.
    simp only [Binary.finite.injEq] at hread
    rcases hread with ⟨_, hmantissa, hexponent⟩
    have hlog : mantissa.log2 < spec.mantissaBitsWithoutImplicit :=
      (Nat.log2_lt hpos.ne').mpr (hmantissa ▸ hfraction)
    omega
  · simp only [Binary.finite.injEq] at hread
    rcases hread with ⟨_, hmantissa, hexponent⟩
    have hlog : mantissa.log2 = spec.mantissaBitsWithoutImplicit := by
      rw [Nat.log2_eq_iff hpos.ne', pow_succ]
      omega
    omega

/-! ## Singles and doubles -/

/-- The bits of a single are read like its fields. -/
theorem Binary.ofFloat32_eq (x : Float32) :
    Binary.ofFloat32 x = Binary.ofUnpacked Format.binary32 x.toModel.unpack := by
  have hsign : x.toBits.toNat / 2 ^ 31 % 2 ^ 1 = x.toBits.toNat / 2 ^ 31 :=
    Nat.mod_eq_of_lt (by have := x.toBits.toNat_lt; omega)
  rw [Float32.Model.unpack, Binary.ofUnpacked_bits]
  change _ = Binary.ofFields Format.binary32 (x.toBits.toNat / 2 ^ 31 % 2 ^ 1 == 1) _ _
  rw [hsign]
  unfold Binary.ofFloat32
  simp only [beq_iff_eq]
  rfl

/-- The bits of a double are read like its fields. -/
theorem Binary.ofFloat_eq (x : Float) :
    Binary.ofFloat x = Binary.ofUnpacked Format.binary64 x.toModel.unpack := by
  have hsign : x.toBits.toNat / 2 ^ 63 % 2 ^ 1 = x.toBits.toNat / 2 ^ 63 :=
    Nat.mod_eq_of_lt (by have := x.toBits.toNat_lt; omega)
  rw [Float.Model.unpack, Binary.ofUnpacked_bits]
  change _ = Binary.ofFields Format.binary64 (x.toBits.toNat / 2 ^ 63 % 2 ^ 1 == 1) _ _
  rw [hsign]
  unfold Binary.ofFloat
  simp only [beq_iff_eq]
  rfl

/-! ## Widening -/

/-- Bits that stand for a number other than zero are kept. -/
theorem unpack_ofBits (bits : UInt64) (mantissa : Nat) (exponent : Int) (hpos : 0 < mantissa)
    (h : UnpackedFloat.unpack Format.binary64 bits.toBitVec
      = .finite sign mantissa exponent hpos) :
    (Float.ofBits bits).toModel.unpack = .finite sign mantissa exponent hpos := by
  rcases place_of_unpack Format.binary64 (by decide) bits.toBitVec mantissa exponent hpos h with
    ⟨hplace, hfield⟩
  change UnpackedFloat.unpack Format.binary64 (UnpackedFloat.pack Format.binary64
    (UnpackedFloat.unpack Format.binary64 bits.toBitVec)) = _
  rw [h]
  exact unpack_pack_of_place Format.binary64 (by decide) sign mantissa exponent hpos hplace hfield

/-- The bits of a double that is a mantissa of full length at a place in range. -/
theorem unpack_fullLength (sign : Sign) (mantissa field : Nat) (hpos : 0 < mantissa)
    (hlow : 2 ^ 52 ≤ mantissa) (hhigh : mantissa < 2 ^ 53) (hfield : field < 2046) :
    UnpackedFloat.unpack Format.binary64 (UInt64.ofNat
        ((sign == .negative).toNat * 2 ^ 63 + (field * 2 ^ 52 + mantissa))).toBitVec
      = .finite sign mantissa (field - 1074) hpos := by
  have hbit := Bool.toNat_le (sign == .negative)
  have hsign : ((sign == .negative).toNat == 1) = (sign == .negative) := by
    cases sign <;> rfl
  refine Binary.ofUnpacked_inj Format.binary64 ?_
  rw [Binary.ofUnpacked_bits, UInt64.toNat_toBitVec,
    UInt64.toNat_ofNat_of_lt' (show _ < 2 ^ 64 by omega)]
  simp only [Nat.reduceAdd]
  generalize (sign == .negative).toNat = bit at hbit hsign ⊢
  rw [show (bit * 2 ^ 63 + (field * 2 ^ 52 + mantissa)) / 2 ^ 63 % 2 ^ 1 = bit by omega,
    show (bit * 2 ^ 63 + (field * 2 ^ 52 + mantissa)) / 2 ^ 52 % 2 ^ 11 = field + 1 by omega,
    show (bit * 2 ^ 63 + (field * 2 ^ 52 + mantissa)) % 2 ^ 52 = mantissa - 2 ^ 52 by omega,
    hsign, Binary.ofFields, if_neg (show field + 1 ≠ 2 ^ 11 - 1 by omega),
    if_neg (Nat.succ_ne_zero field), Binary.ofUnpacked,
    Nat.add_sub_cancel' hlow]
  congr 1
  rw [show (Format.binary64.exponentBias : Int) = 1023 by decide]
  push_cast
  ring

/-- Widening makes the mantissa as long as that of a double, and moves the place with it. -/
theorem widenMagnitude_eq (mantissa shift field : Nat) (exponent : Int) (hpos : 0 < mantissa)
    (hshift : 52 = mantissa.log2 + shift) (hfield : exponent - shift + 1074 = field) :
    widenMagnitude mantissa exponent = field * 2 ^ 52 + mantissa * 2 ^ shift := by
  rw [widenMagnitude, if_neg (by rw [beq_iff_eq]; exact hpos.ne')]
  simp only [show 52 - mantissa.log2 = shift by omega, hfield, Int.toNat_natCast]
  rfl

theorem unpack_widen (z : Float32) (mantissa shift field : Nat) (exponent : Int)
    (hpos : 0 < mantissa) (hz : z.toModel.unpack = .finite sign mantissa exponent hpos)
    (hshift : 52 = mantissa.log2 + shift) (hfield : exponent - shift + 1074 = field)
    (hrange : field < 2046) :
    (widen z).toModel.unpack = .finite sign (mantissa * 2 ^ shift) (field - 1074)
      (Nat.mul_pos hpos (Nat.two_pow_pos shift)) := by
  have hlong : 0 < mantissa * 2 ^ shift := Nat.mul_pos hpos (Nat.two_pow_pos shift)
  have hlog := log2_mul_two_pow mantissa shift hpos
  have hlow : 2 ^ 52 ≤ mantissa * 2 ^ shift := (Nat.le_log2 hlong.ne').mp (by omega)
  have hhigh : mantissa * 2 ^ shift < 2 ^ 53 := (Nat.log2_lt hlong.ne').mp (by omega)
  have hmagnitude := widenMagnitude_eq mantissa shift field exponent hpos hshift hfield
  have hbits : (if (sign == .negative) = true then Nat.pow 2 63 + widenMagnitude mantissa exponent
      else widenMagnitude mantissa exponent)
        = (sign == .negative).toNat * 2 ^ 63 + (field * 2 ^ 52 + mantissa * 2 ^ shift) := by
    rw [hmagnitude]
    cases sign
    · exact congrArg (· + _) (one_mul _).symm
    · exact (Nat.zero_add _).symm.trans (congrArg (· + _) (zero_mul _).symm)
  unfold widen
  rw [Binary.ofFloat32_eq, hz, Binary.ofUnpacked]
  simp only [hbits]
  exact unpack_ofBits _ _ _ hlong (unpack_fullLength sign _ field hlong hlow hhigh hrange)

/-- Widening keeps the number that a single stands for. -/
theorem widen_stands (z : Float32) (h : Stands Format.binary32 sign z.toModel.unpack x) :
    Stands Format.binary64 sign (widen z).toModel.unpack x := by
  generalize hz : z.toModel.unpack = u at h
  cases h with
  | zero =>
      unfold widen
      rw [Binary.ofFloat32_eq, hz]
      cases sign with
      | positive => exact .zero
      | negative => exact .zero
  | finite mantissa exponent hpos hplace =>
      rcases place_of_unpack Format.binary32 (by decide) _ mantissa exponent hpos hz with
        ⟨_, hfield⟩
      have hrange : exponent + 127 + 23 + 1 < 256 := hfield
      have hshape : mantissa.log2 + 1 = 24 ∧ -149 ≤ exponent ∨
          mantissa.log2 + 1 < 24 ∧ exponent = -149 := bits_of_place mantissa exponent hplace
      rcases Nat.exists_eq_add_of_le (show mantissa.log2 ≤ 52 by omega) with ⟨shift, hshift⟩
      rcases Int.eq_ofNat_of_zero_le (show 0 ≤ exponent - shift + 1074 by omega) with
        ⟨field, hplaceField⟩
      rw [unpack_widen z mantissa shift field exponent hpos hz hshift hplaceField (by omega),
        ← longer_mantissa mantissa shift exponent, show exponent - shift = field - 1074 by omega]
      refine .finite _ _ _ ?_
      rw [totalExponent, log2_mul_two_pow mantissa shift hpos]
      change max (_ - (53 : Int)) (-1074) = _
      omega

/-! ## Narrowing -/

/-- Bits of a single that stand for something else than a NaN do not become one. -/
theorem isNaN_ofBits_single (bits : UInt32)
    (h : UnpackedFloat.unpack Format.binary32 bits.toBitVec ≠ .notANumber) :
    (Float32.ofBits bits).isNaN = false := by
  change UnpackedFloat.isNaN (UnpackedFloat.unpack Format.binary32 (UnpackedFloat.pack
    Format.binary32 (UnpackedFloat.unpack Format.binary32 bits.toBitVec))) = false
  generalize hu : UnpackedFloat.unpack Format.binary32 bits.toBitVec = u at h
  cases u with
  | notANumber => exact absurd rfl h
  | infinity sign => cases sign <;> decide
  | zero sign => cases sign <;> decide
  | finite sign mantissa exponent hpos =>
      rcases place_of_unpack Format.binary32 (by decide) _ mantissa exponent hpos hu with
        ⟨hplace, hfield⟩
      rw [unpack_pack_of_place Format.binary32 (by decide) sign mantissa exponent hpos hplace
        hfield]
      rfl

theorem narrowMagnitude_le (mantissa : Nat) (exponent : Int) :
    narrowMagnitude mantissa exponent ≤ 255 * 2 ^ 23 := by
  unfold narrowMagnitude
  split
  · exact Nat.zero_le _
  · exact Nat.min_le_right _ _

/-- A sign and a magnitude that is not above infinity's are no NaN. -/
theorem isNaN_ofBits_magnitude (negative : Bool) (magnitude : Nat)
    (h : magnitude ≤ 255 * 2 ^ 23) :
    (Float32.ofBits (UInt32.ofNat (negative.toNat * 2 ^ 31 + magnitude))).isNaN = false := by
  refine isNaN_ofBits_single _ fun hnan => ?_
  have hbit := Bool.toNat_le negative
  have hfields := @Binary.ofUnpacked_bits Format.binary32
    (UInt32.ofNat (negative.toNat * 2 ^ 31 + magnitude)).toBitVec
  rw [hnan, UInt32.toNat_toBitVec, UInt32.toNat_ofNat_of_lt' (show _ < 2 ^ 32 by omega),
    Binary.ofFields] at hfields
  -- All ones in the exponent leave no room for a fraction.
  split at hfields
  · rename_i hfield
    rw [if_pos (by
      change (negative.toNat * 2 ^ 31 + magnitude) % 2 ^ 23 = 0
      change (negative.toNat * 2 ^ 31 + magnitude) / 2 ^ 23 % 2 ^ 8 = 2 ^ 8 - 1 at hfield
      omega)] at hfields
    cases hfields
  · split at hfields <;> cases hfields

/-- Narrowing gives a NaN for a NaN only. -/
theorem isNaN_narrow (x : Float) (h : x.isNaN = false) : (narrow x).isNaN = false := by
  unfold narrow
  cases hx : Binary.ofFloat x with
  | nan =>
      rw [Binary.ofFloat_eq] at hx
      have hunpacked : x.toModel.unpack = .notANumber :=
        Binary.ofUnpacked_inj (v := .notANumber) _ hx
      exact absurd (UnpackedFloat.isNaN_iff.mpr hunpacked) (Bool.not_eq_true _ ▸ h)
  | infinite negative => cases negative <;> decide
  | finite negative mantissa exponent =>
      have hmagnitude := narrowMagnitude_le mantissa exponent
      simp only []
      generalize narrowMagnitude mantissa exponent = magnitude at hmagnitude
      have hbits : (if negative = true then Nat.pow 2 31 + magnitude else magnitude)
          = negative.toNat * 2 ^ 31 + magnitude := by
        cases negative with
        | false =>
            simp only [Bool.false_eq_true, if_false, Bool.toNat_false, zero_mul, zero_add]
        | true => simp only [if_true, Bool.toNat_true, one_mul, Nat.pow_eq]
      rw [hbits]
      exact isNaN_ofBits_magnitude negative magnitude hmagnitude

/-! ## Order -/

/-- Comparing the other way round gives the opposite. -/
theorem compare_swap (u v : UnpackedFloat) :
    v.compare u = (u.compare v).map Ordering.swap := by
  have hsigns (sign sign' : Sign) : compare sign' sign = (compare sign sign').swap := by
    cases sign <;> cases sign' <;> rfl
  rcases u with ⟨_ | _⟩ | _ | _ | ⟨_ | _⟩ <;> rcases v with ⟨_ | _⟩ | _ | _ | ⟨_ | _⟩ <;>
    simp only [UnpackedFloat.compare, Option.map_some, Option.map_none, Ordering.swap_then,
      Int.compare_swap, Nat.compare_swap, ← hsigns, Ordering.swap_lt, Ordering.swap_gt,
      Ordering.swap_eq]

/-- Only what is no number is not compared. -/
theorem compare_eq_none_iff (u v : UnpackedFloat) :
    u.compare v = none ↔ u.isNaN = true ∨ v.isNaN = true := by
  rcases u with ⟨_ | _⟩ | _ | _ | ⟨_ | _⟩ <;> rcases v with ⟨_ | _⟩ | _ | _ | ⟨_ | _⟩ <;>
    simp [UnpackedFloat.compare, UnpackedFloat.isNaN]

/-- A single is not at most another if either is no number or the other is less. -/
theorem single_not_le_iff (a b : Float32) :
    ¬ a ≤ b ↔ a.isNaN = true ∨ b.isNaN = true ∨ b < a := by
  change ¬ decide (a.toModel ≤ b.toModel) = true ↔
    a.toModel.unpack.isNaN = true ∨ b.toModel.unpack.isNaN = true ∨
      decide (b.toModel < a.toModel) = true
  rw [decide_eq_true_eq, decide_eq_true_eq]
  change ¬ a.toModel.unpack.le b.toModel.unpack = true ↔
    a.toModel.unpack.isNaN = true ∨ b.toModel.unpack.isNaN = true ∨
      b.toModel.unpack.lt a.toModel.unpack = true
  rw [← or_assoc, ← compare_eq_none_iff, UnpackedFloat.le, UnpackedFloat.lt,
    compare_swap a.toModel.unpack]
  rcases a.toModel.unpack.compare b.toModel.unpack with _ | _ | _ | _ <;> decide

/-- What a double that is not negative stands for can be read off its bits. -/
theorem Stands.ofFloat {z : Float} (h : Stands Format.binary64 .positive z.toModel.unpack x) :
    ∃ mantissa exponent, Binary.ofFloat z = .finite false mantissa exponent ∧
      (mantissa : Rat) * 2 ^ exponent = x := by
  rw [Binary.ofFloat_eq]
  generalize z.toModel.unpack = u at h
  cases h with
  | zero => exact ⟨0, _, rfl, by rw [Nat.cast_zero, zero_mul]⟩
  | finite mantissa exponent hpos _ => exact ⟨mantissa, exponent, rfl, rfl⟩

/-- A number has one double. -/
theorem float_eq_of_stands {a b : Float} (ha : Stands Format.binary64 sign a.toModel.unpack x)
    (hb : Stands Format.binary64 sign b.toModel.unpack x) : a = b := by
  have hbits := (unpack_inj_of_valid a.toModel.valid b.toModel.valid (by decide)).mp (ha.unique hb)
  exact Float.toBits_inj.mp (UInt64.toBitVec_inj.mp hbits)

theorem float_le_iff {a b : Float} (ha : Stands Format.binary64 .positive a.toModel.unpack x)
    (hb : Stands Format.binary64 .positive b.toModel.unpack y) : a ≤ b ↔ x ≤ y := by
  rw [← ha.le_iff hb]
  change decide (a.toModel ≤ b.toModel) = true ↔ _
  rw [decide_eq_true_eq]
  exact Iff.rfl

theorem zero_stands : Stands Format.binary64 .positive (0.0 : Float).toModel.unpack 0 :=
  .zero

theorem one_stands : Stands Format.binary64 .positive (1.0 : Float).toModel.unpack 1 := by
  have hvalue : (1 : Rat) = (2 ^ 52 : Nat) * 2 ^ (-52 : Int) := by norm_num
  rw [hvalue]
  exact .finite _ _ (Nat.two_pow_pos 52) (by decide)

end CommitRisk
