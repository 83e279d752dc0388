import CommitRisk.Json.Reader
import CommitRisk.Proofs.PrintedNumbers

/-!
# Numerals as JSON Has Them

The JSON text of a number keeps to the grammar of JSON, whichever of its shapes it takes. The
digits that are written are not those of zero, so they do not begin with one; a number below one
has a single zero in front of its point, and zero itself is that zero.

## Main definitions

* `Json.Stops`: What comes after the digits of a part is no digit.
* `Json.IsWhole`: A whole part has no leading zero, or is one.
* `Json.HasParts`: A text is a whole part and a fraction.

## Theorems

* `isNumeral_of_hasParts`: A text of such parts is a numeral, with a minus or without.
* `isNumeral_digitsOf`: A count is a numeral.
* `hasParts_positional`, `hasParts_scientific`: The two shapes of a number have such parts.
* `isNumeral_finite`: The JSON text of a finite number is a numeral.
-/

namespace CommitRisk.Json

open NumberFormat (digitsOf)

/-! ## Parts -/

/-- What comes after the digits of a part is no digit. -/
def Stops (rest : List Char) : Prop :=
  ∀ c, rest.head? = some c → c.isDigit = false

theorem stops_nil : Stops [] := nofun

theorem stops_cons (stop : Char) (rest : List Char) (h : stop.isDigit = false) :
    Stops (stop :: rest) := by
  intro c hc
  rw [List.head?_cons, Option.some.injEq] at hc
  rw [← hc, h]

theorem span_digits (digits rest : List Char) (hdigits : ∀ c ∈ digits, c.isDigit = true)
    (hstop : Stops rest) :
    (digits ++ rest).takeWhile Char.isDigit = digits ∧
      (digits ++ rest).dropWhile Char.isDigit = rest := by
  rw [List.takeWhile_append_of_pos hdigits, List.dropWhile_append_of_pos hdigits]
  cases rest with
  | nil => exact ⟨List.append_nil digits, rfl⟩
  | cons c rest =>
      have hc := hstop c rfl
      rw [List.takeWhile_cons, List.dropWhile_cons, hc]
      exact ⟨List.append_nil digits, rfl⟩

/-- A whole part has no leading zero, or is one. -/
structure IsWhole (text : List Char) : Prop where
  digits : ∀ c ∈ text, c.isDigit = true
  ne_nil : text ≠ []
  leads : text = ['0'] ∨ text.head? ≠ some '0'

/-- A text is a whole part and a fraction. -/
def HasParts (text : List Char) : Prop :=
  ∃ whole rest, text = whole ++ rest ∧ IsWhole whole ∧ Stops rest ∧ isFraction rest = true

/-- A number without its sign. -/
def isMagnitude (text : List Char) : Bool :=
  let whole := text.takeWhile Char.isDigit
  (whole == ['0'] || (!whole.isEmpty && whole.head? != some '0'))
    && isFraction (text.dropWhile Char.isDigit)

theorem isMagnitude_of_hasParts (text : List Char) (h : HasParts text) :
    isMagnitude text = true := by
  rcases h with ⟨whole, rest, rfl, hwhole, hstop, hrest⟩
  rcases span_digits whole rest hwhole.digits hstop with ⟨htake, hdrop⟩
  have hlead : (whole == ['0'] || (!whole.isEmpty && whole.head? != some '0')) = true := by
    rcases hwhole.leads with rfl | hlead
    · rfl
    · rw [Bool.or_eq_true, Bool.and_eq_true, bne_iff_ne, Bool.not_eq_true',
        List.isEmpty_eq_false_iff]
      exact .inr ⟨hwhole.ne_nil, hlead⟩
  simp only [isMagnitude, htake, hdrop, hlead, hrest, Bool.and_self]

/-- A text that begins with a digit has no sign. -/
theorem isNumeral_of_isDigit (first : Char) (rest : List Char) (hfirst : first.isDigit = true) :
    isNumeral (first :: rest) = isMagnitude (first :: rest) := by
  unfold isNumeral isMagnitude
  simp only []
  split
  · rename_i heq
    rw [(List.cons.inj heq).1] at hfirst
    exact absurd hfirst (by decide)
  · rfl

/-- A whole part and a fraction make a numeral, with a minus or without. -/
theorem isNumeral_of_hasParts (negative : Bool) (text : List Char) (h : HasParts text) :
    isNumeral (if negative then '-' :: text else text) = true := by
  have hmagnitude := isMagnitude_of_hasParts text h
  cases negative with
  | true => exact hmagnitude
  | false =>
      rcases h with ⟨whole, rest, rfl, hwhole, _⟩
      cases whole with
      | nil => exact absurd rfl hwhole.ne_nil
      | cons first digits =>
          exact (isNumeral_of_isDigit first _ (hwhole.digits first List.mem_cons_self)).trans
            hmagnitude

/-- A point and digits, with an exponent or without. -/
theorem isFraction_point (digits rest : List Char) (hdigits : ∀ c ∈ digits, c.isDigit = true)
    (hne : digits ≠ []) (hstop : Stops rest) (hrest : isExponent rest = true) :
    isFraction ('.' :: (digits ++ rest)) = true := by
  rcases span_digits digits rest hdigits hstop with ⟨htake, hdrop⟩
  have hsome : (!digits.isEmpty) = true := by
    rw [Bool.not_eq_true', List.isEmpty_eq_false_iff]
    exact hne
  simp only [isFraction, htake, hdrop, hsome, hrest, Bool.and_self]

theorem isFraction_digits (digits : List Char) (hdigits : ∀ c ∈ digits, c.isDigit = true)
    (hne : digits ≠ []) : isFraction ('.' :: digits) = true := by
  have h := isFraction_point digits [] hdigits hne stops_nil rfl
  rwa [List.append_nil] at h

theorem isExponent_signed (leading : Int) :
    isExponent ('e' :: (if leading < 0 then '-' else '+') :: digitsOf leading.natAbs) = true := by
  have hdigits : (digitsOf leading.natAbs).all Char.isDigit = true :=
    List.all_eq_true.mpr (isDigit_of_mem_digitsOf _)
  have hsome : (!(digitsOf leading.natAbs).isEmpty) = true := by
    rw [Bool.not_eq_true', List.isEmpty_eq_false_iff]
    exact digitsOf_ne_nil _
  by_cases hneg : leading < 0
  · simp only [hneg, if_true, isExponent, hdigits, hsome]
    rfl
  · simp only [hneg, if_false, isExponent, hdigits, hsome]
    rfl

theorem isWhole_digitsOf (n : Nat) : IsWhole (digitsOf n) := by
  refine ⟨isDigit_of_mem_digitsOf n, digitsOf_ne_nil n, ?_⟩
  rcases Nat.eq_zero_or_pos n with rfl | hpos
  · exact .inl (Nat.toDigits_zero 10)
  · exact .inr (head?_digitsOf n hpos)

theorem isNumeral_digitsOf (n : Nat) : isNumeral (digitsOf n) = true :=
  isNumeral_of_hasParts false (digitsOf n)
    ⟨_, [], (List.append_nil _).symm, isWhole_digitsOf n, stops_nil, rfl⟩

/-! ## The shapes of a number -/

section Shapes

variable (digits : List Char) (hdigits : ∀ c ∈ digits, c.isDigit = true) (hne : digits ≠ [])
  (hlead : digits.head? ≠ some '0')

include hdigits hne hlead

/-- The text with a point is a whole part and a fraction. -/
theorem hasParts_positional (exponent : Int) :
    HasParts (NumberFormat.json.positional digits exponent) := by
  have hpoint : ('.').isDigit = false := by decide
  unfold NumberFormat.positional
  split
  · -- Zeros fill the whole part.
    refine ⟨digits ++ List.replicate exponent.toNat '0', ['.', '0'], rfl, ⟨?_, ?_, .inr ?_⟩,
      stops_cons '.' _ hpoint, rfl⟩
    · exact List.forall_mem_append.mpr ⟨hdigits, isDigit_of_mem_zeros _⟩
    · exact List.append_ne_nil_of_left_ne_nil hne _
    · rw [List.head?_append_of_ne_nil _ hne]
      exact hlead
  · rename_i hexponent
    simp only []
    split
    · -- The point divides the digits.
      rename_i hshort
      have hwhole : digits.take (digits.length - (-exponent).toNat) ≠ [] := by
        rw [← List.length_pos_iff, List.length_take]
        omega
      have hfraction : digits.drop (digits.length - (-exponent).toNat) ≠ [] := by
        rw [← List.length_pos_iff, List.length_drop]
        omega
      refine ⟨_, '.' :: digits.drop (digits.length - (-exponent).toNat), rfl,
        ⟨fun c hc => hdigits c (List.mem_of_mem_take hc), hwhole, .inr ?_⟩,
        stops_cons '.' _ hpoint, ?_⟩
      · rw [List.head?_take, if_neg (by omega)]
        exact hlead
      · exact isFraction_digits _ (fun c hc => hdigits c (List.mem_of_mem_drop hc)) hfraction
    · -- A single zero stands in front of the point.
      refine ⟨['0'], _, rfl, isWhole_digitsOf 0, stops_cons '.' _ hpoint, ?_⟩
      exact isFraction_digits _ (List.forall_mem_append.mpr ⟨isDigit_of_mem_zeros _, hdigits⟩)
        (List.append_ne_nil_of_right_ne_nil _ hne)

/-- So is the text with an exponent. -/
theorem hasParts_scientific (leading : Int) :
    HasParts (NumberFormat.scientific digits leading) := by
  have hmark : ('e').isDigit = false := by decide
  have hexponent := isExponent_signed leading
  rcases digits with _ | ⟨first, rest⟩
  · exact absurd rfl hne
  have hwhole : IsWhole [first] := by
    refine ⟨fun c hc => hdigits c ?_, List.cons_ne_nil _ _, .inr hlead⟩
    rw [List.mem_singleton.mp hc]
    exact List.mem_cons_self
  cases rest with
  | nil => exact ⟨[first], _, rfl, hwhole, stops_cons 'e' _ hmark, hexponent⟩
  | cons second rest =>
      refine ⟨[first], _, rfl, hwhole, stops_cons '.' _ (by decide), ?_⟩
      exact isFraction_point (second :: rest) _ (fun c hc => hdigits c (List.mem_cons_of_mem _ hc))
        (List.cons_ne_nil _ _) (stops_cons 'e' _ hmark) hexponent

end Shapes

/-- The JSON text of a finite number is a numeral. -/
theorem isNumeral_finite (negative : Bool) (mantissa : Nat) (exponent : Int) :
    isNumeral (NumberFormat.json.finite negative mantissa exponent) = true := by
  have hparts : HasParts (NumberFormat.json.finite false mantissa exponent) := by
    rcases Nat.eq_zero_or_pos mantissa with rfl | hpos
    · exact ⟨['0'], ['.', '0'], rfl, isWhole_digitsOf 0, stops_cons '.' _ (by decide), rfl⟩
    · have hzero : (mantissa == 0) = false := beq_eq_false_iff_ne.mpr hpos.ne'
      have hdigits := isDigit_of_mem_digitsOf (shortest .toEven mantissa exponent).digits
      have hne := digitsOf_ne_nil (shortest .toEven mantissa exponent).digits
      have hlead := head?_digitsOf _ (digits_shortest_pos .toEven mantissa exponent hpos)
      simp only [NumberFormat.finite, hzero, Bool.false_eq_true, if_false]
      split
      · exact hasParts_positional _ hdigits hne hlead _
      · exact hasParts_scientific _ hdigits hne hlead _
  have h := isNumeral_of_hasParts negative _ hparts
  cases negative with
  | false => exact h
  | true => exact h

end CommitRisk.Json
