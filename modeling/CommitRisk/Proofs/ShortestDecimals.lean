import CommitRisk.Number.Shortest
import CommitRisk.Proofs.Rounding

/-!
# Decimals That Read Back

The decimal that is written for a float is a number, and so are the ends of the interval that
rounds to the float. The search for digits compares the two in whole numbers; here the
comparison is read as one of rationals, and the decimal that is found lies in the interval.

The intervals of two floats meet in at most one point, which is an end of both. Of two floats
that are next to each other only one has an even mantissa, so only one of the intervals holds
that end. A decimal that reads back to a float therefore reads back to no other, and what is
written for a float tells it apart from all others.

## Main definitions

* `Decimal.value`: The number a decimal stands for.
* `Neighbourhood.Covers`: A number lies in the interval that rounds to a float.
* `IsPlaced`: A mantissa is at its last place, as the bits of a double have it.

## Theorems

* `Neighbourhood.compareWith_eq_lt`, `Neighbourhood.compareWith_eq_gt`,
  `Neighbourhood.compareWith_eq_eq`: The comparison in whole numbers.
* `Neighbourhood.covers_of_contains`: A decimal that is accepted lies in the interval.
* `shortest_covers`: So does the decimal that is written.
* `eq_of_covers`: A number lies in the interval of one float only.
-/

namespace CommitRisk

/-- The number a decimal stands for. -/
def Decimal.value (d : Decimal) : Rat :=
  d.digits * 10 ^ d.exponent

/-- A power with an integer as its exponent is a quotient of two powers without a sign. -/
theorem zpow_mul_pow_neg (base : Rat) (hbase : base ≠ 0) (e : Int) :
    base ^ e * base ^ (-e).toNat = base ^ e.toNat := by
  rw [← zpow_natCast, ← zpow_natCast, ← zpow_add₀ hbase]
  congr 1
  omega

namespace Neighbourhood

/-- A number lies in the interval that rounds to a float. The ends count if the interval is
    closed. -/
structure Covers (r : Neighbourhood) (x : Rat) : Prop where
  low : r.low * 2 ^ r.exponent ≤ x
  high : x ≤ r.high * 2 ^ r.exponent
  low_end : r.low * 2 ^ r.exponent = x → r.closed = true
  high_end : x = r.high * 2 ^ r.exponent → r.closed = true

variable (r : Neighbourhood) (d : Decimal) (n : Nat)

/-! ## The comparison -/

/-- What both sides of a comparison are multiplied with to be whole. -/
def commonUnit : Rat :=
  10 ^ (-d.exponent).toNat * 2 ^ (-r.exponent).toNat

theorem commonUnit_pos : 0 < r.commonUnit d := by
  rw [commonUnit]
  positivity

theorem decimal_units :
    ((d.digits * Nat.pow 10 d.exponent.toNat * Nat.pow 2 (-r.exponent).toNat : Nat) : Rat)
      = d.value * r.commonUnit d := by
  have hten := zpow_mul_pow_neg 10 (by norm_num) d.exponent
  simp only [Nat.pow_eq, Nat.cast_mul, Nat.cast_pow, Nat.cast_ofNat]
  rw [Decimal.value, commonUnit, ← hten]
  ring

theorem binary_units :
    ((n * Nat.pow 2 r.exponent.toNat * Nat.pow 10 (-d.exponent).toNat : Nat) : Rat)
      = n * 2 ^ r.exponent * r.commonUnit d := by
  have htwo := zpow_mul_pow_neg 2 two_ne_zero r.exponent
  simp only [Nat.pow_eq, Nat.cast_mul, Nat.cast_pow, Nat.cast_ofNat]
  rw [commonUnit, ← htwo]
  ring

theorem compareWith_eq_lt : r.compareWith d n = .lt ↔ d.value < n * 2 ^ r.exponent := by
  rw [compareWith, Nat.compare_eq_lt, ← Nat.cast_lt (α := Rat), decimal_units, binary_units]
  exact mul_lt_mul_iff_left₀ (r.commonUnit_pos d)

theorem compareWith_eq_gt : r.compareWith d n = .gt ↔ n * 2 ^ r.exponent < d.value := by
  rw [compareWith, Nat.compare_eq_gt, ← Nat.cast_lt (α := Rat), decimal_units, binary_units]
  exact mul_lt_mul_iff_left₀ (r.commonUnit_pos d)

theorem compareWith_eq_eq : r.compareWith d n = .eq ↔ d.value = n * 2 ^ r.exponent := by
  rw [compareWith, Nat.compare_eq_eq, ← Nat.cast_inj (R := Rat), decimal_units, binary_units]
  exact mul_left_inj' (r.commonUnit_pos d).ne'

/-! ## The search -/

/-- A decimal that is accepted lies in the interval. -/
theorem covers_of_contains (h : r.Contains d = true) : r.Covers d.value := by
  simp only [Contains, Bool.and_eq_true, Bool.or_eq_true, beq_iff_eq, compareWith_eq_lt,
    compareWith_eq_gt, compareWith_eq_eq] at h
  rcases h with ⟨hlow, hhigh⟩
  constructor
  · rcases hlow with hlow | ⟨_, hlow⟩
    · exact hlow.le
    · exact hlow.ge
  · rcases hhigh with hhigh | ⟨_, hhigh⟩
    · exact hhigh.le
    · exact hhigh.le
  · intro hend
    rcases hlow with hlow | ⟨hclosed, _⟩
    · exact absurd hend hlow.ne
    · exact hclosed
  · intro hend
    rcases hhigh with hhigh | ⟨hclosed, _⟩
    · exact absurd hend hhigh.ne
    · exact hclosed

/-- What is found on a grid has been accepted. -/
theorem contains_of_nearestAt (tie : Tie) (exponent : Int)
    (h : r.nearestAt tie exponent = some d) : r.Contains d = true := by
  unfold nearestAt at h
  -- One of the two decimals around the value is taken, and only if it is accepted.
  cases hbelow : r.Contains ⟨r.floorAt exponent, exponent⟩ with
  | false =>
      cases habove : r.Contains ⟨r.floorAt exponent + 1, exponent⟩ with
      | false => simp only [hbelow, habove, reduceCtorEq] at h
      | true =>
          simp only [hbelow, habove, Option.some.injEq] at h
          rw [← h, habove]
  | true =>
      cases habove : r.Contains ⟨r.floorAt exponent + 1, exponent⟩ with
      | false =>
          simp only [hbelow, habove, Option.some.injEq] at h
          rw [← h, hbelow]
      | true =>
          simp only [hbelow, habove] at h
          split at h
          · rw [← Option.some.inj h, hbelow]
          · rw [← Option.some.inj h, habove]
          · cases tie with
            | upward => rw [← Option.some.inj h, habove]
            | toEven =>
                rw [← Option.some.inj h]
                split
                · exact hbelow
                · exact habove

theorem exact_value : r.exact.value = r.value * 2 ^ r.exponent := by
  unfold exact Decimal.value
  split
  · rename_i hexponent
    simp only [Nat.pow_eq, Nat.cast_mul, Nat.cast_pow, Nat.cast_ofNat, zpow_zero, mul_one]
    rw [← zpow_natCast, Int.toNat_of_nonneg hexponent]
  · rename_i hexponent
    have hfive : (5 : Rat) ^ (-r.exponent).toNat = 5 ^ (-r.exponent) := by
      rw [← zpow_natCast, Int.toNat_of_nonneg (by omega)]
    have hten : (10 : Rat) = 5 * 2 := by norm_num
    simp only [Nat.pow_eq, Nat.cast_mul, Nat.cast_pow, Nat.cast_ofNat]
    rw [hfive, hten, mul_zpow, zpow_neg]
    field_simp

/-- The value itself lies strictly between the ends. -/
theorem covers_middle (mantissa : Nat) (exponent : Int) (hpos : 0 < mantissa) :
    (ofBinary mantissa exponent).Covers
      ((ofBinary mantissa exponent).value * 2 ^ (ofBinary mantissa exponent).exponent) := by
  have hlow : (ofBinary mantissa exponent).low < (ofBinary mantissa exponent).value := by
    simp only [ofBinary]
    split <;> omega
  have hhigh : (ofBinary mantissa exponent).value < (ofBinary mantissa exponent).high := by
    simp only [ofBinary]
    omega
  have hunit := two_zpow_pos (ofBinary mantissa exponent).exponent
  have hlow' := mul_lt_mul_of_pos_right (Nat.cast_lt (α := Rat).mpr hlow) hunit
  have hhigh' := mul_lt_mul_of_pos_right (Nat.cast_lt (α := Rat).mpr hhigh) hunit
  exact ⟨hlow'.le, hhigh'.le, fun h => absurd h hlow'.ne, fun h => absurd h hhigh'.ne⟩

end Neighbourhood

/-- Moving zeros into the exponent does not change the number. -/
theorem Decimal.dropZeros_value (fuel : Nat) (d : Decimal) :
    (Decimal.dropZeros fuel d).value = d.value := by
  induction fuel generalizing d with
  | zero => rfl
  | succ fuel ih =>
      unfold dropZeros
      split
      · rename_i hzero
        rw [beq_iff_eq] at hzero
        have hdigits : d.digits = 10 * (d.digits / 10) := by omega
        rw [ih, value, value]
        conv_rhs => rw [hdigits]
        rw [Nat.cast_mul, zpow_add₀ (by norm_num), zpow_one]
        push_cast
        ring
      · rfl

/-- What is written for a float lies in the interval that rounds to it. -/
theorem shortest_covers (tie : Tie) (mantissa : Nat) (exponent : Int) (hpos : 0 < mantissa) :
    (Neighbourhood.ofBinary mantissa exponent).Covers (shortest tie mantissa exponent).value := by
  unfold shortest
  simp only [Decimal.dropZeros_value]
  cases hfound : (List.range 17).findSome? fun n =>
      (Neighbourhood.ofBinary mantissa exponent).nearestAt tie
        ((Neighbourhood.ofBinary mantissa exponent).scale - (n + 1 : Nat)) with
  | none =>
      rw [Option.getD_none, Neighbourhood.exact_value]
      exact Neighbourhood.covers_middle mantissa exponent hpos
  | some d =>
      rcases List.exists_of_findSome?_eq_some hfound with ⟨n, _, hd⟩
      exact Neighbourhood.covers_of_contains _ d
        (Neighbourhood.contains_of_nearestAt _ d tie _ hd)

/-! ## Intervals of different floats -/

/-- A mantissa is at its last place: it has all the bits of a double, unless the exponent is
    the least there is. -/
structure IsPlaced (mantissa : Nat) (exponent : Int) : Prop where
  mantissa_lt : mantissa < 2 ^ 53
  le_exponent : -1074 ≤ exponent
  le_mantissa : 2 ^ 52 ≤ mantissa ∨ exponent = -1074

section Disjoint

variable {mantissa mantissa' : Nat} {exponent exponent' : Int} {x : Rat}

/-- An end that is in the interval belongs to an even mantissa. -/
theorem even_of_closed (h : (Neighbourhood.ofBinary mantissa exponent).closed = true) :
    mantissa % 2 = 0 := by
  rwa [Neighbourhood.ofBinary, beq_iff_eq] at h

/-- Two intervals do not meet if one is above the other and they share no end. -/
theorem not_covers_of_below (r r' : Neighbourhood)
    (hbelow : r.high * (2 : Rat) ^ r.exponent ≤ r'.low * 2 ^ r'.exponent)
    (hend : r.high * (2 : Rat) ^ r.exponent = r'.low * 2 ^ r'.exponent → r.closed = true →
      r'.closed = false)
    (h : r.Covers x) : ¬ r'.Covers x := by
  intro h'
  have hhigh : x = r.high * 2 ^ r.exponent := le_antisymm h.high (hbelow.trans h'.low)
  have hlow : r'.low * 2 ^ r'.exponent = x := le_antisymm h'.low (h.high.trans hbelow)
  have hopen := hend (hhigh.symm.trans hlow.symm) (h.high_end hhigh)
  rw [h'.low_end hlow] at hopen
  exact absurd hopen (by simp only [reduceCtorEq, not_false_eq_true])

/-- At one place a greater mantissa has its interval above. -/
theorem not_covers_of_lt_mantissa (hlt : mantissa < mantissa')
    (h : (Neighbourhood.ofBinary mantissa exponent).Covers x) :
    ¬ (Neighbourhood.ofBinary mantissa' exponent).Covers x := by
  have hlow : (Neighbourhood.ofBinary mantissa exponent).high
      ≤ (Neighbourhood.ofBinary mantissa' exponent).low := by
    simp only [Neighbourhood.ofBinary]
    split <;> omega
  refine not_covers_of_below _ _ ?_ ?_ h
  · exact mul_le_mul_of_nonneg_right (by exact_mod_cast hlow) (two_zpow_pos _).le
  · -- Neighbours that share an end differ by one, so only one of them is even.
    intro heq hclosed
    have heven := even_of_closed hclosed
    have hend : (Neighbourhood.ofBinary mantissa exponent).high
        = (Neighbourhood.ofBinary mantissa' exponent).low := by
      exact_mod_cast mul_right_cancel₀ (two_zpow_pos _).ne' heq
    simp only [Neighbourhood.ofBinary, beq_eq_false_iff_ne] at hend ⊢
    split at hend <;> omega

/-- The largest mantissa has two places more than the bits of a double. -/
theorem IsPlaced.high_le (h : IsPlaced mantissa exponent) :
    ((Neighbourhood.ofBinary mantissa exponent).high : Rat) ≤ 2 ^ 55 - 2 := by
  have hhigh : (Neighbourhood.ofBinary mantissa exponent).high ≤ 2 ^ 55 - 2 := by
    have hbits := h.mantissa_lt
    simp only [Neighbourhood.ofBinary]
    omega
  have hcast := Nat.cast_le (α := Rat).mpr hhigh
  norm_num at hcast ⊢
  exact hcast

/-- Above the least exponent all bits are used, and the interval begins near half of that. -/
theorem IsPlaced.le_low (h : IsPlaced mantissa exponent) (hexponent : -1074 < exponent) :
    (2 : Rat) ^ 54 - 1 ≤ (Neighbourhood.ofBinary mantissa exponent).low := by
  have hfull : 2 ^ 52 ≤ mantissa := h.le_mantissa.resolve_right hexponent.ne'
  have hlow : 2 ^ 54 - 1 ≤ (Neighbourhood.ofBinary mantissa exponent).low := by
    simp only [Neighbourhood.ofBinary, Bool.and_eq_true, beq_iff_eq, decide_eq_true_eq]
    split
    · omega
    · rename_i hnot
      have hne : mantissa ≠ 2 ^ 52 := fun heq => hnot ⟨heq, by omega⟩
      omega
  have hcast := Nat.cast_le (α := Rat).mpr hlow
  norm_num at hcast ⊢
  exact hcast

/-- A greater place has its interval above, for the mantissa there has all its bits. -/
theorem not_covers_of_lt_exponent (hplaced : IsPlaced mantissa exponent)
    (hplaced' : IsPlaced mantissa' exponent') (hlt : exponent < exponent')
    (h : (Neighbourhood.ofBinary mantissa exponent).Covers x) :
    ¬ (Neighbourhood.ofBinary mantissa' exponent').Covers x := by
  have hhigh := hplaced.high_le
  have hlow := hplaced'.le_low (hplaced.le_exponent.trans_lt hlt)
  have hpos := two_zpow_pos (exponent - 2)
  have hunit : 2 * (2 : Rat) ^ (exponent - 2) ≤ 2 ^ (exponent' - 2) := by
    rw [← zpow_one_add₀ two_ne_zero]
    exact zpow_le_zpow_right₀ one_le_two (by omega)
  -- The interval above starts at the end of the largest mantissa below, or further up.
  have hmiddle : (2 ^ 55 - 2 : Rat) * 2 ^ (exponent - 2)
      ≤ (Neighbourhood.ofBinary mantissa' exponent').low * 2 ^ (exponent' - 2) := by
    have hdouble : (2 ^ 55 - 2 : Rat) = (2 ^ 54 - 1) * 2 := by norm_num
    rw [hdouble, mul_assoc]
    exact mul_le_mul hlow hunit (mul_pos two_pos hpos).le (Nat.cast_nonneg _)
  have hends := mul_le_mul_of_nonneg_right hhigh hpos.le
  refine not_covers_of_below _ _ (hends.trans hmiddle) ?_ h
  intro heq hclosed
  have heven := even_of_closed hclosed
  have hmax : ((Neighbourhood.ofBinary mantissa exponent).high : Rat) = 2 ^ 55 - 2 := by
    refine le_antisymm hhigh (le_of_mul_le_mul_right ?_ hpos)
    exact hmiddle.trans heq.ge
  -- The largest mantissa is odd.
  have hodd : (Neighbourhood.ofBinary mantissa exponent).high + 2 = 2 ^ 55 := by
    exact_mod_cast eq_sub_iff_add_eq.mp hmax
  simp only [Neighbourhood.ofBinary] at hodd
  omega

/-- A number lies in the interval of one float only. -/
theorem eq_of_covers (hplaced : IsPlaced mantissa exponent)
    (hplaced' : IsPlaced mantissa' exponent')
    (h : (Neighbourhood.ofBinary mantissa exponent).Covers x)
    (h' : (Neighbourhood.ofBinary mantissa' exponent').Covers x) :
    mantissa = mantissa' ∧ exponent = exponent' := by
  rcases lt_trichotomy exponent exponent' with hlt | rfl | hlt
  · exact absurd h' (not_covers_of_lt_exponent hplaced hplaced' hlt h)
  · rcases lt_trichotomy mantissa mantissa' with hlt | rfl | hlt
    · exact absurd h' (not_covers_of_lt_mantissa hlt h)
    · exact ⟨rfl, rfl⟩
    · exact absurd h (not_covers_of_lt_mantissa hlt h')
  · exact absurd h (not_covers_of_lt_exponent hplaced' hplaced hlt h')

end Disjoint

end CommitRisk
