import CommitRisk.Number.Format
import CommitRisk.Proofs.FloatBits
import CommitRisk.Proofs.ShortestDecimals
import CommitRisk.Text.Numeral

/-!
# Numbers as They Are Printed

A printed number is a run of digits with a point somewhere, and it stands for the decimal it was
printed from: zeros that fill the text up to the point do not change what it is worth. A decimal
reads back to one float only, so the plain texts of two floats differ. Negative zero has its
sign, and the texts of the exceptions hold letters.

## Main definitions

* `fixedValue`: The number that digits with a point stand for.
* `Binary.plainChars`: The plain text of what was read off the bits.

## Theorems

* `fixedValue_positional`: A text with a point stands for the decimal it was printed from.
* `digits_shortest_pos`: The digits that are written are not those of zero.
* `isPlaced_of_ofFloat`: A finite double is at its last place.
* `plainChars_inj`, `plainText_inj`: Plain texts tell floats apart.
-/

namespace CommitRisk

/-! ## Digits -/

theorem isDigit_of_mem_zeros (zeros : Nat) : ∀ c ∈ List.replicate zeros '0', c.isDigit = true := by
  intro c hc
  rw [List.eq_of_mem_replicate hc]
  rfl

theorem isDigit_of_mem_digitsOf (n : Nat) : ∀ c ∈ NumberFormat.digitsOf n, c.isDigit = true :=
  fun _ hc => Nat.isDigit_of_mem_toDigits (by decide) le_rfl hc

theorem digitsOf_ne_nil (n : Nat) : NumberFormat.digitsOf n ≠ [] :=
  Nat.toDigits_ne_nil

theorem natOfDigits_digitsOf (n : Nat) : natOfDigits (NumberFormat.digitsOf n) = n :=
  Nat.ofDigitChars_toDigits (by decide) le_rfl

/-- The digits of a number that is not zero do not begin with a zero. -/
theorem head?_digitsOf (n : Nat) (hpos : 0 < n) :
    (NumberFormat.digitsOf n).head? ≠ some '0' := by
  induction n using Nat.strongRecOn with
  | ind n ih =>
      by_cases hsmall : n < 10
      · rw [NumberFormat.digitsOf, Nat.toDigits_of_lt_base hsmall, List.head?_cons]
        simp only [ne_eq, Option.some.injEq, Nat.digitChar_eq_zero]
        omega
      · -- The digits of a tenth stand in front.
        rw [NumberFormat.digitsOf, Nat.toDigits_of_base_le (by decide) (by omega),
          List.head?_append_of_ne_nil _ Nat.toDigits_ne_nil]
        exact ih (n / 10) (by omega) (by omega)

theorem natOfDigits_zeros_append (zeros : Nat) (digits : List Char) :
    natOfDigits (List.replicate zeros '0' ++ digits) = natOfDigits digits := by
  have happend := Nat.ofDigitChars_append (b := 10) (l := List.replicate zeros '0') (m := digits) 0
  rw [Nat.ofDigitChars_replicate_zero, Nat.mul_zero] at happend
  exact happend

theorem natOfDigits_append_zeros (digits : List Char) (zeros : Nat) :
    natOfDigits (digits ++ List.replicate zeros '0') = 10 ^ zeros * natOfDigits digits := by
  have happend := Nat.ofDigitChars_append (b := 10) (l := digits) (m := List.replicate zeros '0') 0
  rw [Nat.ofDigitChars_replicate_zero] at happend
  exact happend

/-! ## What a text is worth -/

/-- The number that digits with a point stand for. -/
def fixedValue (text : List Char) : Rat :=
  let whole := text.takeWhile Char.isDigit
  let fraction := (text.dropWhile Char.isDigit).tail
  natOfDigits (whole ++ fraction) * 10 ^ (-(fraction.length : Int))

theorem fixedValue_whole (whole : List Char) (hwhole : ∀ c ∈ whole, c.isDigit = true) :
    fixedValue whole = natOfDigits whole := by
  have htake : whole.takeWhile Char.isDigit = whole := List.takeWhile_eq_self_iff.mpr hwhole
  have hdrop : whole.dropWhile Char.isDigit = [] := List.dropWhile_eq_nil_iff.mpr hwhole
  simp only [fixedValue, htake, hdrop, List.tail_nil, List.append_nil, List.length_nil,
    Nat.cast_zero, neg_zero, zpow_zero, mul_one]

theorem fixedValue_point (whole fraction : List Char) (hwhole : ∀ c ∈ whole, c.isDigit = true) :
    fixedValue (whole ++ '.' :: fraction)
      = natOfDigits (whole ++ fraction) * 10 ^ (-(fraction.length : Int)) := by
  have hpoint : ('.').isDigit = false := by decide
  have htake : (whole ++ '.' :: fraction).takeWhile Char.isDigit = whole := by
    rw [List.takeWhile_append_of_pos hwhole, List.takeWhile_cons, hpoint]
    exact List.append_nil whole
  have hdrop : (whole ++ '.' :: fraction).dropWhile Char.isDigit = '.' :: fraction := by
    rw [List.dropWhile_append_of_pos hwhole, List.dropWhile_cons, hpoint]
    rfl
  simp only [fixedValue, htake, hdrop, List.tail_cons]

/-- A text with a point stands for the decimal it was printed from. -/
theorem fixedValue_positional (f : NumberFormat) (digits : List Char) (exponent : Int)
    (hdigits : ∀ c ∈ digits, c.isDigit = true) :
    fixedValue (f.positional digits exponent) = natOfDigits digits * 10 ^ exponent := by
  have hten : (10 : Rat) ≠ 0 := by norm_num
  unfold NumberFormat.positional
  split
  · rename_i hexponent
    have hwhole : ∀ c ∈ digits ++ List.replicate exponent.toNat '0', c.isDigit = true :=
      List.forall_mem_append.mpr ⟨hdigits, isDigit_of_mem_zeros _⟩
    have hpower : (10 : Rat) ^ exponent = 10 ^ exponent.toNat := by
      rw [← zpow_natCast, Int.toNat_of_nonneg hexponent]
    cases f.keepsPoint with
    | false =>
        simp only [Bool.false_eq_true, if_false, List.append_nil]
        rw [fixedValue_whole _ hwhole, natOfDigits_append_zeros, hpower]
        push_cast
        ring
    | true =>
        -- The zero after the point is one more zero and one more place.
        simp only [if_true]
        have hzero := natOfDigits_append_zeros (digits ++ List.replicate exponent.toNat '0') 1
        rw [List.replicate_one] at hzero
        rw [fixedValue_point _ _ hwhole, hzero, natOfDigits_append_zeros, hpower]
        push_cast
        rw [List.length_singleton, Nat.cast_one, zpow_neg, zpow_one]
        field_simp
  · rename_i hexponent
    simp only []
    split
    · -- The point divides the digits.
      rename_i hshort
      rw [fixedValue_point _ _ fun c hc => hdigits c (List.mem_of_mem_take hc),
        List.take_append_drop, List.length_drop]
      congr 2
      omega
    · -- Zeros stand in front of the digits.
      rename_i hlong
      have hzeros := natOfDigits_zeros_append (1 + ((-exponent).toNat - digits.length)) digits
      rw [← List.replicate_append_replicate, List.replicate_one, List.append_assoc,
        List.singleton_append] at hzeros
      have hpoint := fixedValue_point ['0']
        (List.replicate ((-exponent).toNat - digits.length) '0' ++ digits)
        (isDigit_of_mem_zeros 1)
      rw [List.singleton_append, List.singleton_append] at hpoint
      rw [hpoint, hzeros, List.length_append, List.length_replicate]
      congr 2
      omega

/-! ## Plain texts -/

/-- The text of a number without its sign begins with a digit. -/
theorem head?_positional (f : NumberFormat) (digits : List Char) (exponent : Int)
    (hdigits : ∀ c ∈ digits, c.isDigit = true) (hne : digits ≠ []) :
    ∃ c, (f.positional digits exponent).head? = some c ∧ c.isDigit = true := by
  cases digits with
  | nil => exact absurd rfl hne
  | cons first rest =>
      have hfirst := hdigits first List.mem_cons_self
      unfold NumberFormat.positional
      split
      · exact ⟨first, rfl, hfirst⟩
      · simp only []
        split
        · rename_i hshort
          cases hwhole : (first :: rest).length - (-exponent).toNat with
          | zero => omega
          | succ n => exact ⟨first, rfl, hfirst⟩
        · exact ⟨'0', rfl, rfl⟩

/-- The plain text of a magnitude. -/
def plainMagnitude (mantissa : Nat) (exponent : Int) : List Char :=
  NumberFormat.plain.finite false mantissa exponent

theorem finite_plain_eq (negative : Bool) (mantissa : Nat) (exponent : Int) :
    NumberFormat.plain.finite negative mantissa exponent
      = if negative then '-' :: plainMagnitude mantissa exponent
        else plainMagnitude mantissa exponent := by
  cases negative <;> rfl

theorem plainMagnitude_zero (exponent : Int) : plainMagnitude 0 exponent = ['0'] := rfl

theorem plainMagnitude_pos (mantissa : Nat) (exponent : Int) (hpos : 0 < mantissa) :
    plainMagnitude mantissa exponent
      = NumberFormat.plain.positional
          (NumberFormat.digitsOf (shortest .upward mantissa exponent).digits)
          (shortest .upward mantissa exponent).exponent := by
  have hzero : (mantissa == 0) = false := beq_eq_false_iff_ne.mpr hpos.ne'
  simp only [plainMagnitude, NumberFormat.finite, hzero, Bool.false_eq_true, if_false]
  rfl

theorem head?_plainMagnitude (mantissa : Nat) (exponent : Int) :
    ∃ c, (plainMagnitude mantissa exponent).head? = some c ∧ c.isDigit = true := by
  rcases Nat.eq_zero_or_pos mantissa with rfl | hpos
  · exact ⟨'0', rfl, rfl⟩
  · rw [plainMagnitude_pos mantissa exponent hpos]
    exact head?_positional _ _ _ (isDigit_of_mem_digitsOf _) (digitsOf_ne_nil _)

theorem fixedValue_plainMagnitude (mantissa : Nat) (exponent : Int) (hpos : 0 < mantissa) :
    fixedValue (plainMagnitude mantissa exponent) = (shortest .upward mantissa exponent).value := by
  rw [plainMagnitude_pos mantissa exponent hpos,
    fixedValue_positional _ _ _ (isDigit_of_mem_digitsOf _), natOfDigits_digitsOf, Decimal.value]

/-- A decimal that reads back to a number that is not zero is not zero. -/
theorem value_shortest_pos (tie : Tie) (mantissa : Nat) (exponent : Int) (hpos : 0 < mantissa) :
    0 < (shortest tie mantissa exponent).value := by
  have hlow : 0 < (Neighbourhood.ofBinary mantissa exponent).low := by
    simp only [Neighbourhood.ofBinary]
    split <;> omega
  exact (mul_pos (Nat.cast_pos.mpr hlow) (two_zpow_pos _)).trans_le
    (shortest_covers tie mantissa exponent hpos).low

theorem digits_shortest_pos (tie : Tie) (mantissa : Nat) (exponent : Int) (hpos : 0 < mantissa) :
    0 < (shortest tie mantissa exponent).digits := by
  have hvalue := value_shortest_pos tie mantissa exponent hpos
  rw [Decimal.value] at hvalue
  exact Nat.cast_pos.mp (pos_of_mul_pos_left hvalue (zpow_pos (by norm_num) _).le)

/-- Magnitudes at their last place have different texts. -/
theorem plainMagnitude_inj {mantissa mantissa' : Nat} {exponent exponent' : Int}
    (hplaced : IsPlaced mantissa exponent) (hplaced' : IsPlaced mantissa' exponent')
    (h : plainMagnitude mantissa exponent = plainMagnitude mantissa' exponent') :
    mantissa = mantissa' ∧ exponent = exponent' := by
  have hzero : fixedValue ['0'] = 0 := by
    rw [fixedValue_whole ['0'] (isDigit_of_mem_zeros 1)]
    rfl
  rcases Nat.eq_zero_or_pos mantissa with rfl | hpos
  · rcases Nat.eq_zero_or_pos mantissa' with rfl | hpos'
    · -- Zero has the least exponent.
      have hleast := hplaced.le_mantissa
      have hleast' := hplaced'.le_mantissa
      exact ⟨rfl, by omega⟩
    · have hvalue := fixedValue_plainMagnitude mantissa' exponent' hpos'
      rw [← h, plainMagnitude_zero, hzero] at hvalue
      exact absurd hvalue (value_shortest_pos _ _ _ hpos').ne
  · have hvalue := fixedValue_plainMagnitude mantissa exponent hpos
    rcases Nat.eq_zero_or_pos mantissa' with rfl | hpos'
    · rw [h, plainMagnitude_zero, hzero] at hvalue
      exact absurd hvalue (value_shortest_pos _ _ _ hpos).ne
    · have hcovers := shortest_covers .upward mantissa exponent hpos
      rw [← hvalue, h, fixedValue_plainMagnitude mantissa' exponent' hpos'] at hcovers
      exact eq_of_covers hplaced hplaced' hcovers (shortest_covers .upward _ _ hpos')

/-- So have numbers with a sign. -/
theorem finite_plain_inj {negative negative' : Bool} {mantissa mantissa' : Nat}
    {exponent exponent' : Int} (hplaced : IsPlaced mantissa exponent)
    (hplaced' : IsPlaced mantissa' exponent')
    (h : NumberFormat.plain.finite negative mantissa exponent
      = NumberFormat.plain.finite negative' mantissa' exponent') :
    negative = negative' ∧ mantissa = mantissa' ∧ exponent = exponent' := by
  have hsign : ∀ (m : Nat) (e : Int) (text : List Char), plainMagnitude m e ≠ '-' :: text := by
    intro m e text heq
    rcases head?_plainMagnitude m e with ⟨c, hhead, hdigit⟩
    rw [heq, List.head?_cons, Option.some.injEq] at hhead
    rw [← hhead] at hdigit
    exact absurd hdigit (by decide)
  rw [finite_plain_eq, finite_plain_eq] at h
  cases negative with
  | false =>
      cases negative' with
      | false => exact ⟨rfl, plainMagnitude_inj hplaced hplaced' h⟩
      | true => exact absurd h (hsign _ _ _)
  | true =>
      cases negative' with
      | false => exact absurd h.symm (hsign _ _ _)
      | true => exact ⟨rfl, plainMagnitude_inj hplaced hplaced' (List.cons.inj h).2⟩

/-- A finite double is at its last place. -/
theorem isPlaced_of_ofFloat (x : Float) (negative : Bool) (mantissa : Nat) (exponent : Int)
    (h : Binary.ofFloat x = .finite negative mantissa exponent) : IsPlaced mantissa exponent := by
  have hfraction : x.toBits.toNat % 2 ^ 52 < 2 ^ 52 := Nat.mod_lt _ (by norm_num)
  unfold Binary.ofFloat at h
  simp only [Nat.pow_eq] at h
  split at h
  · split at h <;> cases h
  · split at h
    · cases h
      exact ⟨by omega, le_rfl, .inr rfl⟩
    · rename_i hfield
      rw [beq_iff_eq] at hfield
      cases h
      exact ⟨by omega, by omega, .inl (by omega)⟩

/-- A double is what its bits are read as. -/
theorem ofFloat_inj (x y : Float) (h : Binary.ofFloat x = Binary.ofFloat y) : x = y := by
  rw [Binary.ofFloat_eq, Binary.ofFloat_eq] at h
  have hunpacked := Binary.ofUnpacked_inj _ h
  have hmodel := (Float.Model.UnpackedFloat.unpack_inj_of_valid x.toModel.valid y.toModel.valid
    (by decide)).mp hunpacked
  exact Float.toBits_inj.mp (UInt64.toBitVec_inj.mp hmodel)

/-- The plain text of a finite number is a digit, or begins with a sign and a digit. -/
theorem head?_finite_plain (negative : Bool) (mantissa : Nat) (exponent : Int) :
    ∃ c rest, c.isDigit = true ∧
      (NumberFormat.plain.finite negative mantissa exponent = c :: rest ∨
        NumberFormat.plain.finite negative mantissa exponent = '-' :: c :: rest) := by
  rcases head?_plainMagnitude mantissa exponent with ⟨c, hhead, hdigit⟩
  rcases List.head?_eq_some_iff.mp hhead with ⟨rest, hrest⟩
  refine ⟨c, rest, hdigit, ?_⟩
  rw [finite_plain_eq, hrest]
  cases negative with
  | false => exact .inl rfl
  | true => exact .inr rfl

/-- No number is written like one of the exceptions. -/
theorem finite_plain_ne (negative : Bool) (mantissa : Nat) (exponent : Int) (word : List Char)
    (hword : word = "NaN".toList ∨ word = "inf".toList ∨ word = "-inf".toList) :
    NumberFormat.plain.finite negative mantissa exponent ≠ word := by
  intro heq
  rcases head?_finite_plain negative mantissa exponent with ⟨c, rest, hdigit, htext⟩
  rw [heq] at htext
  rcases hword with rfl | rfl | rfl <;> rcases htext with h | h <;> cases h <;>
    exact absurd hdigit (by decide)

/-- The plain text of what was read off the bits. -/
def Binary.plainChars : Binary → List Char
  | .nan => "NaN".toList
  | .infinite false => "inf".toList
  | .infinite true => "-inf".toList
  | .finite negative mantissa exponent => NumberFormat.plain.finite negative mantissa exponent

theorem toList_plainText (x : Float) : (plainText x).toList = (Binary.ofFloat x).plainChars := by
  unfold plainText
  cases Binary.ofFloat x with
  | nan => rfl
  | infinite negative => cases negative <;> rfl
  | finite negative mantissa exponent => exact String.toList_ofList

theorem finite_plain_ne_nan (negative : Bool) (mantissa : Nat) (exponent : Int) :
    NumberFormat.plain.finite negative mantissa exponent ≠ Binary.nan.plainChars :=
  finite_plain_ne _ _ _ _ (.inl rfl)

theorem finite_plain_ne_infinite (negative sign : Bool) (mantissa : Nat) (exponent : Int) :
    NumberFormat.plain.finite negative mantissa exponent ≠ (Binary.infinite sign).plainChars := by
  cases sign with
  | false => exact finite_plain_ne _ _ _ _ (.inr (.inl rfl))
  | true => exact finite_plain_ne _ _ _ _ (.inr (.inr rfl))

/-- Plain texts tell apart what was read off the bits of doubles. -/
theorem plainChars_inj {b b' : Binary}
    (hb : ∀ negative mantissa exponent, b = .finite negative mantissa exponent →
      IsPlaced mantissa exponent)
    (hb' : ∀ negative mantissa exponent, b' = .finite negative mantissa exponent →
      IsPlaced mantissa exponent)
    (h : b.plainChars = b'.plainChars) : b = b' := by
  cases b with
  | nan =>
      cases b' with
      | nan => rfl
      | infinite sign => cases sign <;> exact absurd h (by decide)
      | finite negative' mantissa' exponent' => exact absurd h.symm (finite_plain_ne_nan _ _ _)
  | infinite sign =>
      cases b' with
      | nan => cases sign <;> exact absurd h (by decide)
      | infinite sign' =>
          cases sign <;> cases sign' <;> first | rfl | exact absurd h (by decide)
      | finite negative' mantissa' exponent' =>
          exact absurd h.symm (finite_plain_ne_infinite _ _ _ _)
  | finite negative mantissa exponent =>
      cases b' with
      | nan => exact absurd h (finite_plain_ne_nan _ _ _)
      | infinite sign => exact absurd h (finite_plain_ne_infinite _ _ _ _)
      | finite negative' mantissa' exponent' =>
          rcases finite_plain_inj (hb _ _ _ rfl) (hb' _ _ _ rfl) h with ⟨rfl, rfl, rfl⟩
          rfl

/-- Plain texts tell floats apart. -/
theorem plainText_inj (x y : Float) (h : plainText x = plainText y) : x = y := by
  have hchars := congrArg String.toList h
  rw [toList_plainText, toList_plainText] at hchars
  exact ofFloat_inj x y (plainChars_inj (fun n m e hx => isPlaced_of_ofFloat x n m e hx)
    (fun n m e hy => isPlaced_of_ofFloat y n m e hy) hchars)

end CommitRisk
