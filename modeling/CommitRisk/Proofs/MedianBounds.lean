import CommitRisk.Proofs.MiddleValues
import CommitRisk.Proofs.Midpoints
import CommitRisk.Proofs.Windows

/-!
# Medians Inside the Data

A median of numbers is one of them, or the mean of two of them, so it should not leave the range
they span. Preparation leaves out what is no number, but not infinities and not numbers near
the end of the range, and there the mean is lost: the infinities have no mean, and the sum of
two large numbers is infinite. `LostMean` says when this happens, and it is the only thing that
can happen: every other median is between the least and the greatest value of its column, and a
number if all of them are (`medians_inside_iff`).

An infinite sum does no harm in a column that has the infinity in it, for then the median is
still not above the greatest value.

## Main definitions

* `Inside`: A double between the least and the greatest of some values.
* `LostMean`: Two of some values with a mean that is not inside.
* `LostMedian`: Values with such a pair in the middle.
* `InsideMedians`: The medians of rows are inside unless they are lost.

## Theorems

* `inside_half_sum_iff`: When the mean of two values is inside.
* `IsMedian.inside_iff`: When a median is inside.
* `IsMedian.number_iff`: When the median of numbers is a number.
* `medians_inside_iff`: The medians of a training set that was prepared.
* `largest_median_outside`: Two of the largest double have an infinite median.
-/

namespace CommitRisk

variable {values : List Float} {a b m : Float}

/-! ## Between the least and the greatest -/

/-- A double is not a NaN, and it is between the least and the greatest of some values. -/
def Inside (values : List Float) (m : Float) : Prop :=
  m.isNaN = false ∧ ∃ least ∈ values, ∃ greatest ∈ values,
    (∀ v ∈ values, least ≤ v ∧ v ≤ greatest) ∧ least ≤ m ∧ m ≤ greatest

theorem float_le_total (ha : a.isNaN = false) (hb : b.isNaN = false) : a ≤ b ∨ b ≤ a := by
  rcases exists_liesAt a ha with ⟨k, hk⟩
  rcases exists_liesAt b hb with ⟨l, hl⟩
  rw [hk.le_iff hl, hl.le_iff hk]
  exact le_total k l

theorem float_le_trans (ha : a.isNaN = false) (hb : b.isNaN = false) (hm : m.isNaN = false)
    (hab : a ≤ b) (hbm : b ≤ m) : a ≤ m := by
  rcases exists_liesAt a ha with ⟨k, hk⟩
  rcases exists_liesAt b hb with ⟨l, hl⟩
  rcases exists_liesAt m hm with ⟨n, hn⟩
  rw [hk.le_iff hl] at hab
  rw [hl.le_iff hn] at hbm
  rw [hk.le_iff hn]
  exact hab.trans hbm

theorem float_le_refl (ha : a.isNaN = false) : a ≤ a :=
  (float_le_total ha ha).elim id id

/-- An order that compares all entries of a list has one that comes before the others. -/
theorem exists_first {α : Type} (R : α → α → Prop) (xs : List α) (hsome : xs ≠ [])
    (htotal : ∀ x ∈ xs, ∀ y ∈ xs, R x y ∨ R y x)
    (htrans : ∀ x ∈ xs, ∀ y ∈ xs, ∀ z ∈ xs, R x y → R y z → R x z) :
    ∃ first ∈ xs, ∀ x ∈ xs, R first x := by
  induction xs with
  | nil => exact absurd rfl hsome
  | cons x rest ih =>
      have hself : R x x := (htotal x List.mem_cons_self x List.mem_cons_self).elim id id
      have hlater : ∀ y ∈ rest, y ∈ x :: rest := fun y => List.mem_cons_of_mem x
      by_cases hnone : rest = []
      · refine ⟨x, List.mem_cons_self, fun y hy => ?_⟩
        rw [hnone, List.mem_singleton] at hy
        rw [hy]
        exact hself
      · rcases ih hnone (fun y hy z hz => htotal y (hlater y hy) z (hlater z hz))
          (fun y hy z hz w hw => htrans y (hlater y hy) z (hlater z hz) w (hlater w hw)) with
          ⟨first, hfirst, hbefore⟩
        -- The first of the rest is compared with the new entry.
        rcases htotal x List.mem_cons_self first (hlater first hfirst) with h | h
        · refine ⟨x, List.mem_cons_self, List.forall_mem_cons.mpr ⟨hself, fun y hy => ?_⟩⟩
          exact htrans x List.mem_cons_self first (hlater first hfirst) y (hlater y hy) h
            (hbefore y hy)
        · exact ⟨first, hlater first hfirst, List.forall_mem_cons.mpr ⟨h, hbefore⟩⟩

/-- Values that are no NaNs have a least and a greatest one. -/
theorem exists_extremes (values : List Float) (hsome : values ≠ [])
    (hnumbers : ∀ v ∈ values, v.isNaN = false) :
    ∃ least ∈ values, ∃ greatest ∈ values, ∀ v ∈ values, least ≤ v ∧ v ≤ greatest := by
  rcases exists_first (· ≤ ·) values hsome
    (fun x hx y hy => float_le_total (hnumbers x hx) (hnumbers y hy))
    (fun x hx y hy z hz => float_le_trans (hnumbers x hx) (hnumbers y hy) (hnumbers z hz)) with
    ⟨least, hleast, hbelow⟩
  rcases exists_first (fun x y => y ≤ x) values hsome
    (fun x hx y hy => float_le_total (hnumbers y hy) (hnumbers x hx))
    (fun x hx y hy z hz hxy hyz =>
      float_le_trans (hnumbers z hz) (hnumbers y hy) (hnumbers x hx) hyz hxy) with
    ⟨greatest, hgreatest, habove⟩
  exact ⟨least, hleast, greatest, hgreatest, fun v hv => ⟨hbelow v hv, habove v hv⟩⟩

/-- It is enough to be between any two of the values. -/
theorem inside_of_between (hnumbers : ∀ v ∈ values, v.isNaN = false) (ha : a ∈ values)
    (hb : b ∈ values) (hm : m.isNaN = false) (ham : a ≤ m) (hmb : m ≤ b) : Inside values m := by
  rcases exists_extremes values (List.ne_nil_of_mem ha) hnumbers with
    ⟨least, hleast, greatest, hgreatest, hbounds⟩
  refine ⟨hm, least, hleast, greatest, hgreatest, hbounds, ?_, ?_⟩
  · exact float_le_trans (hnumbers least hleast) (hnumbers a ha) hm (hbounds a ha).1 ham
  · exact float_le_trans hm (hnumbers b hb) (hnumbers greatest hgreatest) hmb (hbounds b hb).2

theorem inside_of_mem (hnumbers : ∀ v ∈ values, v.isNaN = false) (hm : m ∈ values) :
    Inside values m :=
  inside_of_between hnumbers hm hm (hnumbers m hm) (float_le_refl (hnumbers m hm))
    (float_le_refl (hnumbers m hm))

/-- A number between two numbers of the values is inside. -/
theorem inside_of_number {x y z : Rat} (hnumbers : ∀ v ∈ values, v.isNaN = false)
    (ha : a ∈ values) (hb : b ∈ values) (hx : numberOf? a = some x) (hy : numberOf? b = some y)
    (hm : numberOf? m = some z) (hlow : min x y ≤ z) (hhigh : z ≤ max x y) : Inside values m := by
  have hle : ∀ {c d : Float} {w w' : Rat}, numberOf? c = some w → numberOf? d = some w' →
      w ≤ w' → c ≤ d := by
    intro c d w w' hc hd h
    rw [(LiesAt.number w hc).le_iff (.number w' hd), WithBot.coe_le_coe, WithTop.coe_le_coe]
    exact h
  -- Either of the two may be the smaller one.
  rcases le_total x y with h | h
  · rw [min_eq_left h] at hlow
    rw [max_eq_right h] at hhigh
    exact inside_of_between hnumbers ha hb (isNaN_of_number hm) (hle hx hm hlow)
      (hle hm hy hhigh)
  · rw [min_eq_right h] at hlow
    rw [max_eq_left h] at hhigh
    exact inside_of_between hnumbers hb ha (isNaN_of_number hm) (hle hy hm hlow)
      (hle hm hx hhigh)

/-- A double at the same infinity as one of the values is inside. -/
theorem inside_of_infinite (hnumbers : ∀ v ∈ values, v.isNaN = false) (ha : a ∈ values)
    (negative : Bool) (h : Binary.ofFloat a = .infinite negative)
    (hm : Binary.ofFloat m = .infinite negative) : Inside values m := by
  have hsame : ∀ c d : Float, Binary.ofFloat c = .infinite negative →
      Binary.ofFloat d = .infinite negative → c ≤ d := by
    intro c d hc hd
    cases negative with
    | true => exact ((LiesAt.bottom hc).le_iff (.bottom hd)).mpr le_rfl
    | false => exact ((LiesAt.top hc).le_iff (.top hd)).mpr le_rfl
  exact inside_of_between hnumbers ha ha (isNaN_of_infinite negative hm) (hsame a m h hm)
    (hsame m a hm h)

/-- Only an infinity is at most the infinity below, and only an infinity is at least the one
    above. -/
theorem infinite_of_le_bottom (ha : a.isNaN = false) (hm : Binary.ofFloat m = .infinite true)
    (h : a ≤ m) : Binary.ofFloat a = .infinite true := by
  rcases exists_liesAt a ha with ⟨k, hk⟩
  have hplace := (hk.le_iff (.bottom hm)).mp h
  cases hk with
  | bottom ha => exact ha
  | number x _ => exact absurd hplace (by simp)
  | top _ => exact absurd hplace (by simp)

theorem infinite_of_top_le (ha : a.isNaN = false) (hm : Binary.ofFloat m = .infinite false)
    (h : m ≤ a) : Binary.ofFloat a = .infinite false := by
  rcases exists_liesAt a ha with ⟨k, hk⟩
  have hplace := ((LiesAt.top hm).le_iff hk).mp h
  cases hk with
  | bottom _ => exact absurd hplace (by simp)
  | number x _ => exact absurd hplace (by simp)
  | top ha => exact ha

/-- An infinity is inside exactly if it is among the values. -/
theorem inside_infinite_iff (hnumbers : ∀ v ∈ values, v.isNaN = false) (negative : Bool)
    (hm : Binary.ofFloat m = .infinite negative) :
    Inside values m ↔ ∃ v ∈ values, Binary.ofFloat v = .infinite negative := by
  constructor
  · rintro ⟨_, least, hleast, greatest, hgreatest, _, hlow, hhigh⟩
    cases negative with
    | true => exact ⟨least, hleast, infinite_of_le_bottom (hnumbers least hleast) hm hlow⟩
    | false =>
        exact ⟨greatest, hgreatest, infinite_of_top_le (hnumbers greatest hgreatest) hm hhigh⟩
  · rintro ⟨v, hv, hinfinite⟩
    exact inside_of_infinite hnumbers hv negative hinfinite hm

/-! ## Means that are lost -/

/-- Two of some values have a mean that is not inside: they are opposite infinities, or they
    are numbers and their sum is out of range on a side where there is no infinity among
    the values. -/
inductive LostMean (values : List Float) (a b : Float) : Prop where
  | opposite (negative : Bool) (ha : Binary.ofFloat a = .infinite negative)
      (hb : Binary.ofFloat b = .infinite (!negative))
  | above (x y : Rat) (ha : numberOf? a = some x) (hb : numberOf? b = some y)
      (hsum : sumLimit ≤ x + y) (hnone : ∀ v ∈ values, Binary.ofFloat v ≠ .infinite false)
  | below (x y : Rat) (ha : numberOf? a = some x) (hb : numberOf? b = some y)
      (hsum : x + y ≤ -sumLimit) (hnone : ∀ v ∈ values, Binary.ofFloat v ≠ .infinite true)

/-- Two numbers are lost only by their sum. -/
theorem LostMean.of_numbers {x y : Rat} (h : LostMean values a b) (ha : numberOf? a = some x)
    (hb : numberOf? b = some y) :
    (sumLimit ≤ x + y ∧ ∀ v ∈ values, Binary.ofFloat v ≠ .infinite false) ∨
      x + y ≤ -sumLimit ∧ ∀ v ∈ values, Binary.ofFloat v ≠ .infinite true := by
  have hsame : ∀ {c : Float} {z z' : Rat}, numberOf? c = some z → numberOf? c = some z' → z = z' :=
    fun hz hz' => Option.some.inj (hz.symm.trans hz')
  cases h with
  | opposite negative hinfinite _ => exact absurd hinfinite (ofFloat_ne_infinite ha negative)
  | above x' y' ha' hb' hsum hnone =>
      rw [hsame ha ha', hsame hb hb']
      exact .inl ⟨hsum, hnone⟩
  | below x' y' ha' hb' hsum hnone =>
      rw [hsame ha ha', hsame hb hb']
      exact .inr ⟨hsum, hnone⟩

/-- An infinity is no other infinity, and a pair with it in it has no exact sum. -/
theorem not_lostMean_of_infinite (negative : Bool)
    (h : Binary.ofFloat a = .infinite negative ∧ Binary.ofFloat b ≠ .infinite (!negative) ∨
      Binary.ofFloat b = .infinite negative ∧ Binary.ofFloat a ≠ .infinite (!negative)) :
    ¬ LostMean values a b := by
  have hnumbers : ∀ {x y : Rat}, numberOf? a = some x → numberOf? b = some y → False := by
    intro x y hx hy
    rcases h with ⟨hinfinite, _⟩ | ⟨hinfinite, _⟩
    · exact ofFloat_ne_infinite hx negative hinfinite
    · exact ofFloat_ne_infinite hy negative hinfinite
  rintro (⟨negative', ha, hb⟩ | ⟨x, y, hx, hy, _⟩ | ⟨x, y, hx, hy, _⟩)
  · rcases h with ⟨ha', hother⟩ | ⟨hb', hother⟩
    · rw [ha, Binary.infinite.injEq] at ha'
      exact hother (ha' ▸ hb)
    · rw [hb, Binary.infinite.injEq] at hb'
      rw [← hb', Bool.not_not] at hother
      exact hother ha
  · exact hnumbers hx hy
  · exact hnumbers hx hy

/-- The mean of two of some values is inside unless it is lost. -/
theorem inside_half_sum_iff (hnumbers : ∀ v ∈ values, v.isNaN = false) (ha : a ∈ values)
    (hb : b ∈ values) : Inside values ((a + b) / 2.0) ↔ ¬ LostMean values a b := by
  have hmean := meanOf_half_sum a b (hnumbers a ha) (hnumbers b hb)
  generalize (a + b) / 2.0 = m at hmean
  cases hmean with
  | opposite negative hinfinite hinfinite' hm =>
      refine iff_of_false (fun h => ?_) (not_not.mpr (.opposite negative hinfinite hinfinite'))
      exact Bool.false_ne_true (h.1.symm.trans hm)
  | infinite negative hm h =>
      refine iff_of_true ((inside_infinite_iff hnumbers negative hm).mpr ?_)
        (not_lostMean_of_infinite negative h)
      rcases h with ⟨hinfinite, _⟩ | ⟨hinfinite, _⟩
      · exact ⟨a, ha, hinfinite⟩
      · exact ⟨b, hb, hinfinite⟩
  | above x y hx hy hsum hm =>
      -- The mean is the infinity above, so all depends on whether the values have it.
      rw [inside_infinite_iff hnumbers false hm]
      constructor
      · rintro ⟨v, hv, hinfinite⟩ hlost
        rcases hlost.of_numbers hx hy with ⟨_, hnone⟩ | ⟨hsum', _⟩
        · exact hnone v hv hinfinite
        · linarith [sumLimit_pos]
      · intro hkept
        by_contra hnone
        exact hkept (.above x y hx hy hsum fun v hv hinfinite => hnone ⟨v, hv, hinfinite⟩)
  | below x y hx hy hsum hm =>
      rw [inside_infinite_iff hnumbers true hm]
      constructor
      · rintro ⟨v, hv, hinfinite⟩ hlost
        rcases hlost.of_numbers hx hy with ⟨hsum', _⟩ | ⟨_, hnone⟩
        · linarith [sumLimit_pos]
        · exact hnone v hv hinfinite
      · intro hkept
        by_contra hnone
        exact hkept (.below x y hx hy hsum fun v hv hinfinite => hnone ⟨v, hv, hinfinite⟩)
  | number x y z hx hy hsum hm hlow hhigh =>
      rw [abs_lt] at hsum
      refine iff_of_true (inside_of_number hnumbers ha hb hx hy hm hlow hhigh) fun hlost => ?_
      rcases hlost.of_numbers hx hy with ⟨habove, _⟩ | ⟨hbelow, _⟩
      · exact habove.not_gt hsum.2
      · exact hbelow.not_gt hsum.1

/-- The two values in the middle have a mean that is not inside. -/
def LostMedian (values : List Float) : Prop :=
  ∃ low high, MiddleTwo values low high ∧ LostMean values low high

theorem lostMedian_iff {low high : Float} (h : MiddleTwo values low high) :
    LostMedian values ↔ LostMean values low high := by
  constructor
  · rintro ⟨low', high', hmiddle, hlost⟩
    rcases hmiddle.unique (List.Perm.refl values) h with ⟨rfl, rfl⟩
    exact hlost
  · intro hlost
    exact ⟨low, high, h, hlost⟩

theorem not_lostMedian_of_odd (k : Nat) (h : values.length = 2 * k + 1) : ¬ LostMedian values := by
  rintro ⟨_, _, ⟨k', hcount, _⟩, _⟩
  omega

/-- A median is inside unless it is lost. -/
theorem IsMedian.inside_iff (h : IsMedian values m) (hsome : values ≠ [])
    (hnumbers : ∀ v ∈ values, v.isNaN = false) : Inside values m ↔ ¬ LostMedian values := by
  cases h with
  | nothing hcount => exact absurd hcount hsome
  | odd k m hcount hm =>
      exact iff_of_true (inside_of_mem hnumbers hm.mem) (not_lostMedian_of_odd k hcount)
  | even low high hmiddle =>
      rw [lostMedian_iff hmiddle]
      rcases hmiddle with ⟨k, _, hlow, hhigh⟩
      exact inside_half_sum_iff hnumbers hlow.mem hhigh.mem

theorem LostMean.ne_number (h : LostMean values a b) (z : Rat) :
    numberOf? ((a + b) / 2.0) ≠ some z := by
  intro hnumber
  cases h with
  | opposite negative ha hb =>
      exact Bool.false_ne_true
        ((isNaN_of_number hnumber).symm.trans (isNaN_half_opposite negative ha hb))
  | above x y hx hy hsum _ =>
      have hinfinite := ofFloat_add_above hx hy ((sumLimit_le_iff (x + y)).mpr hsum)
      exact ofFloat_ne_infinite hnumber false (ofFloat_half_infinite false hinfinite)
  | below x y hx hy hsum _ =>
      have hinfinite := ofFloat_add_below hx hy ((le_neg_sumLimit_iff (x + y)).mpr hsum)
      exact ofFloat_ne_infinite hnumber true (ofFloat_half_infinite true hinfinite)

/-- The median of numbers is a number unless it is lost. -/
theorem IsMedian.number_iff (h : IsMedian values m) (hsome : values ≠ [])
    (hfinite : ∀ v ∈ values, ∃ x, numberOf? v = some x) :
    (∃ z, numberOf? m = some z) ↔ ¬ LostMedian values := by
  have hnumbers : ∀ v ∈ values, v.isNaN = false := by
    intro v hv
    rcases hfinite v hv with ⟨x, hx⟩
    exact isNaN_of_number hx
  constructor
  · rintro ⟨z, hz⟩
    cases h with
    | nothing hcount => exact absurd hcount hsome
    | odd k _ hcount _ => exact not_lostMedian_of_odd k hcount
    | even low high hmiddle =>
        rw [lostMedian_iff hmiddle]
        exact fun hlost => hlost.ne_number z hz
  · intro hkept
    have hinside := (h.inside_iff hsome hnumbers).mpr hkept
    rcases double_cases m hinside.1 with ⟨negative, hinfinite⟩ | hnumber
    · -- Numbers have no infinity among them.
      rcases (inside_infinite_iff hnumbers negative hinfinite).mp hinside with ⟨v, hv, hv'⟩
      rcases hfinite v hv with ⟨x, hx⟩
      exact absurd hv' (ofFloat_ne_infinite hx negative)
    · exact hnumber

/-! ## The medians of a training set -/

/-- Every median of some rows is inside its column unless it is lost, and if the column has
    only numbers in it, it is a number unless it is lost. -/
def InsideMedians (s : Schema) (rows : List (List Float)) (medians : NamedValues) : Prop :=
  ∀ i < s.width, ∃ m, medians.values[i]? = some m ∧
    (Inside (column rows i) m ↔ ¬ LostMedian (column rows i)) ∧
    ((∀ v ∈ column rows i, ∃ x, numberOf? v = some x) →
      ((∃ z, numberOf? m = some z) ↔ ¬ LostMedian (column rows i)))

theorem mem_of_mem_column (rows : List (List Float)) (i : Nat) (v : Float) (h : v ∈ column rows i) :
    ∃ row ∈ rows, v ∈ row := by
  rcases List.mem_filterMap.mp h with ⟨row, hrow, hv⟩
  exact ⟨row, hrow, List.mem_of_getElem? hv⟩

theorem column_ne_nil (rows : List (List Float)) (width i : Nat) (hi : i < width)
    (hsome : rows ≠ []) (hwidth : ∀ row ∈ rows, row.length = width) : column rows i ≠ [] := by
  rcases List.exists_mem_of_ne_nil rows hsome with ⟨row, hrow⟩
  have hlength : i < row.length := by
    rw [hwidth row hrow]
    exact hi
  exact List.ne_nil_of_mem
    (List.mem_filterMap.mpr ⟨row, hrow, List.getElem?_eq_getElem hlength⟩)

theorem insideMedians_columnMedians (s : Schema) (rows : List (List Float)) (hsome : rows ≠ [])
    (hwidth : ∀ row ∈ rows, row.length = s.width)
    (hnumbers : ∀ row ∈ rows, ∀ x ∈ row, x.isNaN = false) :
    InsideMedians s rows (columnMedians s rows) := by
  intro i hi
  have hcolumn : ∀ v ∈ column rows i, v.isNaN = false := by
    intro v hv
    rcases mem_of_mem_column rows i v hv with ⟨row, hrow, hmem⟩
    exact hnumbers row hrow v hmem
  -- With no NaN in the column, all of it is counted.
  have hall : numbersOf rows i = column rows i := by
    refine List.filter_eq_self.mpr fun v hv => ?_
    rw [hcolumn v hv]
    rfl
  rcases (columnMedians_mediansOf s rows).values i hi with ⟨m, hm, hmedian⟩
  rw [hall] at hmedian
  have hvalues := column_ne_nil rows s.width i hi hsome hwidth
  exact ⟨m, hm, hmedian.inside_iff hvalues hcolumn, hmedian.number_iff hvalues⟩

/-- What is prepared has rows, and no NaN in them. -/
theorem rows_of_prepare (commits : List Commit) (cutoff : Int64) (limit : Nat) (set : TrainingSet)
    (h : prepare commits cutoff limit = .ok set) :
    set.samples ≠ [] ∧ ∀ row ∈ set.samples, ∀ x ∈ row, x.isNaN = false := by
  have hrows := hasRowsOf_of_prepare commits cutoff limit set h
  constructor
  · intro hnone
    have hlength := hrows.length_eq.1
    rw [hnone, List.length_nil, eq_comm, List.length_eq_zero_iff] at hlength
    simp only [prepare, hlength, List.isEmpty_nil, if_true, reduceCtorEq] at h
  · intro row hrow x hx
    -- Every row belongs to a commit that is complete.
    have hmem : row.map some ∈ (newest limit (trainable commits cutoff)).map Commit.metrics := by
      rw [hrows.samples]
      exact List.mem_map.mpr ⟨row, hrow, rfl⟩
    rcases List.mem_map.mp hmem with ⟨c, hc, hmetrics⟩
    have htrainable := (List.mem_filter.mp (mem_of_newest limit _ c hc)).2
    rcases ((c.isTrainable_iff cutoff).mp htrainable).2.1 (some x)
      (hmetrics ▸ List.mem_map.mpr ⟨x, hx, rfl⟩) with ⟨y, hy, hnumber⟩
    rw [Option.some.inj hy]
    exact hnumber

theorem mem_of_rowsWithLabel (set : TrainingSet) (label : Bool) (row : List Float)
    (h : row ∈ set.rowsWithLabel label) : row ∈ set.samples := by
  rcases List.mem_map.mp h with ⟨pair, hpair, rfl⟩
  exact (List.of_mem_zip (List.mem_filter.mp hpair).1).1

/-- The medians of a training set that was prepared from commits as wide as the schema. For
    all rows, and for those of a label if there are any, a median is no NaN and between the
    least and the greatest value of its column precisely if it is not lost: if the count is
    even, the two values in the middle are not opposite infinities, and their sum is not out
    of range on a side where the column has no infinity. The same decides whether a column
    of numbers has a number for its median. -/
theorem medians_inside_iff (s : Schema) (commits : List Commit) (cutoff : Int64) (limit : Nat)
    (set : TrainingSet) (hwidth : ∀ c ∈ commits, c.metrics.length = s.width)
    (hset : prepare commits cutoff limit = .ok set) :
    ∃ medians, ModelMedians.compute s set = .ok medians ∧
      InsideMedians s set.samples medians.all ∧
      (set.rowsWithLabel true ≠ [] → InsideMedians s (set.rowsWithLabel true) medians.buggy) ∧
      (set.rowsWithLabel false ≠ [] →
        InsideMedians s (set.rowsWithLabel false) medians.clean) := by
  rcases rows_of_prepare commits cutoff limit set hset with ⟨hsome, hnumbers⟩
  have hrows := prepare_width commits cutoff limit s.width set hset hwidth
  have hmem := fun label row => mem_of_rowsWithLabel set label row
  refine ⟨.ofSet s set, ModelMedians.compute_eq s set,
    insideMedians_columnMedians s _ hsome hrows hnumbers, fun hbuggy => ?_, fun hclean => ?_⟩
  · exact insideMedians_columnMedians s _ hbuggy (fun row hrow => hrows row (hmem true row hrow))
      fun row hrow => hnumbers row (hmem true row hrow)
  · exact insideMedians_columnMedians s _ hclean (fun row hrow => hrows row (hmem false row hrow))
      fun row hrow => hnumbers row (hmem false row hrow)

/-- Two commits with small metrics. -/
def ordinaryCommits : List Commit :=
  [⟨"a", 0, [some 1.0, some 5.0], some true⟩, ⟨"b", 1, [some 2.0, some 4.0], some false⟩]

/-- Small metrics have their medians inside. -/
theorem medians_inside_ordinary :
    (∀ c ∈ ordinaryCommits, c.metrics.length = smallSchema.width) ∧
    ∃ set medians, prepare ordinaryCommits 9 2 = .ok set ∧
      ModelMedians.compute smallSchema set = .ok medians ∧
      InsideMedians smallSchema set.samples medians.all ∧
      InsideMedians smallSchema [[1.0, 5.0]] medians.buggy ∧
      InsideMedians smallSchema [[2.0, 4.0]] medians.clean := by
  have hwidth : ∀ c ∈ ordinaryCommits, c.metrics.length = smallSchema.width := by decide
  have hset : prepare ordinaryCommits 9 2 = .ok ⟨[[1.0, 5.0], [2.0, 4.0]], [true, false]⟩ := by rfl
  rcases medians_inside_iff smallSchema ordinaryCommits 9 2 _ hwidth hset with
    ⟨medians, hmedians, hall, hbuggy, hclean⟩
  exact ⟨hwidth, _, medians, hset, hmedians, hall, hbuggy (List.cons_ne_nil _ _),
    hclean (List.cons_ne_nil _ _)⟩

/-- The largest double. -/
def largestDouble : Float :=
  Float.ofBits 0x7fefffffffffffff

/-- Two commits with the largest double for a metric. -/
def largestCommits : List Commit :=
  [⟨"a", 0, [some largestDouble, some 5.0], some true⟩,
    ⟨"b", 1, [some largestDouble, some 4.0], some false⟩]

/-- Their median is infinite, although the column has only numbers in it. -/
theorem largest_median_outside :
    ∃ set medians m, prepare largestCommits 9 2 = .ok set ∧
      ModelMedians.compute smallSchema set = .ok medians ∧
      column set.samples 0 = [largestDouble, largestDouble] ∧
      (numberOf? largestDouble).isSome = true ∧
      medians.all.values[0]? = some m ∧ Binary.ofFloat m = .infinite false ∧
      ¬ Inside (column set.samples 0) m := by
  have hset : prepare largestCommits 9 2
      = .ok ⟨[[largestDouble, 5.0], [largestDouble, 4.0]], [true, false]⟩ := by rfl
  -- The two values are in order, so both of them are the middle.
  have hpair : MiddleTwo [largestDouble, largestDouble] largestDouble largestDouble := by
    have hordered : InTotalOrder [largestDouble, largestDouble] :=
      List.pairwise_pair.mpr le_rfl
    exact ⟨0, rfl, ⟨_, .refl _, hordered, rfl⟩, ⟨_, .refl _, hordered, rfl⟩⟩
  have hinfinite : Binary.ofFloat ((largestDouble + largestDouble) / 2.0) = .infinite false := by
    decide +kernel
  rcases (columnMedians_mediansOf smallSchema
    [[largestDouble, 5.0], [largestDouble, 4.0]]).values 0 (by decide) with ⟨m, hm, hmedian⟩
  have hnumbers : numbersOf [[largestDouble, 5.0], [largestDouble, 4.0]] 0
      = [largestDouble, largestDouble] := by decide +kernel
  rw [hnumbers] at hmedian
  obtain rfl := hmedian.unique (List.Perm.refl _) (.even _ _ hpair)
  refine ⟨_, _, _, hset, ModelMedians.compute_eq _ _, rfl, by decide +kernel, hm, hinfinite, ?_⟩
  change ¬ Inside [largestDouble, largestDouble] _
  rw [inside_infinite_iff (by decide +kernel) false hinfinite]
  decide +kernel

end CommitRisk
