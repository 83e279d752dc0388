import CommitRisk.Proofs.Parts
import CommitRisk.Proofs.TakenMedians

/-!
# Medians as Order Statistics

A median is worked out on a sorted sample, and what comes out must not depend on how the
sample was sorted or on how it was laid out before. `RankedAt` says which number has a rank
without either: it is at its place in any arrangement of the numbers in the total order of
doubles. There is only one such arrangement, because the total order tells any two doubles
apart, negative zero and zero among them. So a rank belongs to one number, and some numbers
have one median (`IsMedian.unique`), down to the bits.

The rest is a matter of which numbers are in the sample. A column is made of the rows by
position, so its numbers are the same up to order if the rows are, and a NaN is not one of
them. The rows of a label are those at the positions of the label.

## Main definitions

* `InTotalOrder`: A list of doubles in the total order.
* `RankedAt`: The number with a rank among some numbers.
* `MiddleTwo`: The two numbers in the middle.
* `IsMedian`: The middle of some numbers, and zero for none.
* `numbersOf`: The numbers in a column.
* `MediansOf`: The medians of all columns.
* `NaNsInserted`: A list with NaNs put in anywhere.
* `TrainingSet.RowsOf`: The rows at the positions of a label.

## Theorems

* `totalKey_injective`: The total order tells doubles apart.
* `eq_of_inTotalOrder`: There is one arrangement in the total order.
* `RankedAt.unique`, `IsMedian.unique`: There is one number of a rank, and one median.
* `isMedian_middle`: What is worked out is the median.
* `MediansOf.unique`: Columns with the same numbers have the same medians.
* `rowsOf_rowsWithLabel`: The rows with a label are those at its positions.
* `medians_are_order_statistics`: The medians of rows and of training sets.
-/

namespace CommitRisk

/-! ## The total order -/

theorem totalKey_injective {x y : Float} (h : totalKey x = totalKey y) : x = y := by
  have hx := x.toBits.toNat_lt
  have hy := y.toBits.toNat_lt
  -- Keys from zero on belong to clear sign bits, and those below to sign bits that are set.
  have hbits : x.toBits.toNat = y.toBits.toNat := by
    simp only [totalKey, Nat.pow_eq] at h
    split at h <;> split at h <;> omega
  exact Float.toBits_inj.mp (UInt64.toNat_inj.mp hbits)

/-- No double of the list comes before one that is further ahead. -/
def InTotalOrder (ordered : List Float) : Prop :=
  ordered.Pairwise fun a b => totalKey a ≤ totalKey b

theorem sorted_perm (values : List Float) : (sorted values).Perm values :=
  List.mergeSort_perm values _

theorem sorted_inTotalOrder (values : List Float) : InTotalOrder (sorted values) := by
  have htrans : ∀ a b c : Float, decide (totalKey a ≤ totalKey b) = true →
      decide (totalKey b ≤ totalKey c) = true → decide (totalKey a ≤ totalKey c) = true := by
    intro a b c hab hbc
    rw [decide_eq_true_eq] at hab hbc ⊢
    exact Int.le_trans hab hbc
  have htotal : ∀ a b : Float, (decide (totalKey a ≤ totalKey b)
      || decide (totalKey b ≤ totalKey a)) = true := by
    intro a b
    rw [Bool.or_eq_true, decide_eq_true_eq, decide_eq_true_eq]
    exact Int.le_total _ _
  exact (List.pairwise_mergeSort htrans htotal values).imp fun hle => of_decide_eq_true hle

theorem eq_of_inTotalOrder (ordered ordered' : List Float) (hperm : ordered.Perm ordered')
    (h : InTotalOrder ordered) (h' : InTotalOrder ordered') : ordered = ordered' :=
  hperm.eq_of_pairwise
    (fun _ _ _ _ hle hge => totalKey_injective (Int.le_antisymm hle hge)) h h'

/-! ## The middle of some numbers -/

/-- A number has so many numbers before it when they are in the total order. -/
def RankedAt (numbers : List Float) (rank : Nat) (x : Float) : Prop :=
  ∃ ordered : List Float, ordered.Perm numbers ∧ InTotalOrder ordered ∧ ordered[rank]? = some x

theorem RankedAt.mem {numbers : List Float} {rank : Nat} {x : Float}
    (h : RankedAt numbers rank x) : x ∈ numbers := by
  rcases h with ⟨ordered, hperm, _, hx⟩
  exact hperm.mem_iff.mp (List.mem_of_getElem? hx)

/-- However the numbers are given, one of them has the rank. -/
theorem RankedAt.unique {numbers numbers' : List Float} {rank : Nat} {x x' : Float}
    (hperm : numbers.Perm numbers') (h : RankedAt numbers rank x)
    (h' : RankedAt numbers' rank x') : x = x' := by
  rcases h with ⟨ordered, hp, ho, hx⟩
  rcases h' with ⟨ordered', hp', ho', hx'⟩
  cases eq_of_inTotalOrder ordered ordered' (hp.trans (hperm.trans hp'.symm)) ho ho'
  exact Option.some.inj (hx.symm.trans hx')

theorem rankedAt_sorted (numbers : List Float) (rank : Nat) (h : rank < numbers.length) :
    RankedAt numbers rank ((sorted numbers).getD rank 0.0) := by
  refine ⟨sorted numbers, sorted_perm numbers, sorted_inTotalOrder numbers, ?_⟩
  rw [← (sorted_perm numbers).length_eq] at h
  rw [List.getD_eq_getElem?_getD, List.getElem?_eq_getElem h, Option.getD_some]

/-- The two numbers in the middle of an even count. -/
def MiddleTwo (numbers : List Float) (low high : Float) : Prop :=
  ∃ k, numbers.length = 2 * k + 2 ∧ RankedAt numbers k low ∧ RankedAt numbers (k + 1) high

theorem MiddleTwo.unique {numbers numbers' : List Float} {low high low' high' : Float}
    (hperm : numbers.Perm numbers') (h : MiddleTwo numbers low high)
    (h' : MiddleTwo numbers' low' high') : low = low' ∧ high = high' := by
  have hcount := hperm.length_eq
  rcases h with ⟨k, hk, hlow, hhigh⟩
  rcases h' with ⟨k', hk', hlow', hhigh'⟩
  obtain rfl : k = k' := by omega
  exact ⟨hlow.unique hperm hlow', hhigh.unique hperm hhigh'⟩

/-- The middle of some numbers: the middle one of them in the total order for an odd count,
    and the mean of the two middle ones for an even count. The middle of nothing is
    zero. -/
inductive IsMedian (numbers : List Float) : Float → Prop where
  | nothing (hcount : numbers = []) : IsMedian numbers 0.0
  | odd (k : Nat) (m : Float) (hcount : numbers.length = 2 * k + 1) (hm : RankedAt numbers k m) :
      IsMedian numbers m
  | even (low high : Float) (hmiddle : MiddleTwo numbers low high) :
      IsMedian numbers ((low + high) / 2.0)

/-- However the numbers are given, they have one median. -/
theorem IsMedian.unique {numbers numbers' : List Float} {m m' : Float}
    (hperm : numbers.Perm numbers') (h : IsMedian numbers m) (h' : IsMedian numbers' m') :
    m = m' := by
  have hsame := hperm.length_eq
  have hnothing : ∀ values : List Float, values = [] → values.length = 0 :=
    fun _ => List.length_eq_zero_iff.mpr
  -- The count of the numbers tells the three cases apart.
  cases h with
  | nothing hcount =>
      have hzero := hnothing _ hcount
      cases h' with
      | nothing _ => rfl
      | odd k' _ hcount' _ => omega
      | even _ _ hmiddle' =>
          rcases hmiddle' with ⟨k', hcount', _⟩
          omega
  | odd k _ hcount hm =>
      cases h' with
      | nothing hcount' =>
          have hzero := hnothing _ hcount'
          omega
      | odd k' _ hcount' hm' =>
          obtain rfl : k = k' := by omega
          exact hm.unique hperm hm'
      | even _ _ hmiddle' =>
          rcases hmiddle' with ⟨k', hcount', _⟩
          omega
  | even _ _ hmiddle =>
      cases h' with
      | nothing hcount' =>
          have hzero := hnothing _ hcount'
          rcases hmiddle with ⟨k, hcount, _⟩
          omega
      | odd k' _ hcount' _ =>
          rcases hmiddle with ⟨k, hcount, _⟩
          omega
      | even _ _ hmiddle' =>
          rcases hmiddle.unique hperm hmiddle' with ⟨rfl, rfl⟩
          rfl

theorem isMedian_middle (numbers : List Float) (hsome : numbers ≠ []) :
    IsMedian numbers (middle (sorted numbers)) := by
  have hlength := (sorted_perm numbers).length_eq
  have hpos := List.length_pos_iff.mpr hsome
  rcases Nat.even_or_odd' numbers.length with ⟨k, hk | hk⟩
  · -- An even count is two more than twice the rank of the lower one.
    obtain ⟨k, rfl⟩ : ∃ rank, k = rank + 1 := Nat.exists_eq_succ_of_ne_zero (by omega)
    have hmiddle : middle (sorted numbers)
        = ((sorted numbers).getD k 0.0 + (sorted numbers).getD (k + 1) 0.0) / 2.0 := by
      have hhalf : (sorted numbers).length / 2 = k + 1 := by omega
      have hparity : ((sorted numbers).length % 2 == 0) = true := beq_iff_eq.mpr (by omega)
      simp only [middle, hparity, if_true, hhalf, Nat.add_sub_cancel]
    rw [hmiddle]
    exact .even _ _ ⟨k, by omega, rankedAt_sorted numbers k (by omega),
      rankedAt_sorted numbers (k + 1) (by omega)⟩
  · have hmiddle : middle (sorted numbers) = (sorted numbers).getD k 0.0 := by
      have hhalf : (sorted numbers).length / 2 = k := by omega
      have hparity : ((sorted numbers).length % 2 == 0) = false := beq_false_of_ne (by omega)
      simp only [middle, hparity, Bool.false_eq_true, if_false, hhalf]
    rw [hmiddle]
    exact .odd k _ hk (rankedAt_sorted numbers k (by omega))

/-! ## The medians of the columns -/

/-- The numbers in a column. -/
def numbersOf (rows : List (List Float)) (position : Nat) : List Float :=
  (column rows position).filter fun x => !x.isNaN

/-- One median for each feature, of the numbers in its column. -/
structure MediansOf (s : Schema) (rows : List (List Float)) (medians : NamedValues) : Prop where
  names : medians.entries.map Prod.fst = s.features
  values : ∀ i < s.width, ∃ m, medians.values[i]? = some m ∧ IsMedian (numbersOf rows i) m

theorem present_map_some (values : List Float) :
    present (values.map some) = values.filter fun x => !x.isNaN := by
  rw [present, List.filterMap_map]
  exact congrArg (List.filter _) List.filterMap_some

theorem columnMedians_mediansOf (s : Schema) (rows : List (List Float)) :
    MediansOf s rows (columnMedians s rows) := by
  refine ⟨columnMedians_names s rows, fun i hi => ?_⟩
  rw [Schema.width] at hi
  refine ⟨(medianOfPresent? ((column rows i).map some)).getD 0.0, ?_, ?_⟩
  · rw [NamedValues.values, columnMedians, List.map_map, List.getElem?_map,
      List.getElem?_zipIdx, List.getElem?_eq_getElem hi, Option.map_some, Option.map_some,
      Nat.zero_add]
    rfl
  · rw [medianOfPresent?, medianOfPresent_eq, present_map_some]
    change IsMedian (numbersOf rows i) ((if (numbersOf rows i).isEmpty then none
      else some (middle (sorted (numbersOf rows i)))).getD 0.0)
    cases hempty : (numbersOf rows i).isEmpty with
    | true => exact .nothing (List.isEmpty_iff.mp hempty)
    | false => exact isMedian_middle _ (List.isEmpty_eq_false_iff.mp hempty)

/-- Columns with the same numbers have the same medians. -/
theorem MediansOf.unique {s : Schema} {rows rows' : List (List Float)}
    {medians medians' : NamedValues} (h : MediansOf s rows medians)
    (h' : MediansOf s rows' medians')
    (hnumbers : ∀ i < s.width, (numbersOf rows i).Perm (numbersOf rows' i)) :
    medians = medians' := by
  have hwidth : ∀ v : NamedValues, v.entries.map Prod.fst = s.features →
      v.values.length = s.width := by
    intro v hv
    rw [Schema.width, ← hv, NamedValues.values, List.length_map, List.length_map]
  have hvalues : medians.values = medians'.values := by
    refine List.ext_getElem? fun i => ?_
    by_cases hi : i < s.width
    · rcases h.values i hi with ⟨m, hm, hmedian⟩
      rcases h'.values i hi with ⟨m', hm', hmedian'⟩
      rw [hm, hm', hmedian.unique (hnumbers i hi) hmedian']
    · rw [List.getElem?_eq_none (by rw [hwidth _ h.names]; omega),
        List.getElem?_eq_none (by rw [hwidth _ h'.names]; omega)]
  have hentries : ∀ v : NamedValues, v.entries = (v.entries.map Prod.fst).zip v.values :=
    fun v => (List.zip_of_prod rfl rfl)
  rcases medians with ⟨entries⟩
  rcases medians' with ⟨entries'⟩
  rw [NamedValues.mk.injEq]
  exact (hentries ⟨entries⟩).trans
    ((congrArg₂ List.zip (h.names.trans h'.names.symm) hvalues).trans (hentries ⟨entries'⟩).symm)

/-- A list with NaNs put in anywhere. -/
inductive NaNsInserted : List Float → List Float → Prop where
  | nil : NaNsInserted [] []
  | keep (x : Float) {values values' : List Float} (h : NaNsInserted values values') :
      NaNsInserted (x :: values) (x :: values')
  | insert (x : Float) (hnan : x.isNaN = true) {values values' : List Float}
      (h : NaNsInserted values values') : NaNsInserted values (x :: values')

theorem NaNsInserted.filter_eq {values values' : List Float} (h : NaNsInserted values values') :
    (values.filter fun x => !x.isNaN) = values'.filter fun x => !x.isNaN := by
  induction h with
  | nil => rfl
  | keep x _ ih => rw [List.filter_cons, List.filter_cons, ih]
  | insert x hnan _ ih =>
      rw [List.filter_cons, hnan, Bool.not_true, if_neg Bool.false_ne_true]
      exact ih

theorem numbersOf_perm {rows rows' : List (List Float)} (h : rows.Perm rows') (i : Nat) :
    (numbersOf rows i).Perm (numbersOf rows' i) :=
  (h.filterMap fun row => row[i]?).filter _

/-! ## The rows of a label -/

/-- The entries that pass a test are read at the positions of those that do. -/
theorem filter_positions {α : Type} (p : α → Bool) (xs : List α) :
    ∃ positions : List Nat, positions.Pairwise (· < ·) ∧
      (∀ i, i ∈ positions ↔ ∃ x, xs[i]? = some x ∧ p x = true) ∧
      positions.map (fun i => xs[i]?) = (xs.filter p).map some := by
  induction xs with
  | nil =>
      refine ⟨[], .nil, fun i => ?_, rfl⟩
      simp only [List.not_mem_nil, List.getElem?_nil, reduceCtorEq, false_and, exists_false]
  | cons first rest ih =>
      rcases ih with ⟨positions, hincreasing, hmem, hread⟩
      have hshift : (positions.map (· + 1)).Pairwise (· < ·) :=
        List.pairwise_map.mpr (hincreasing.imp fun h => Nat.succ_lt_succ h)
      have hlater : ∀ i, i + 1 ∈ positions.map (· + 1) ↔ i ∈ positions := by
        intro i
        rw [List.mem_map]
        exact ⟨fun ⟨j, hj, heq⟩ => Nat.succ.inj heq ▸ hj, fun hi => ⟨i, hi, rfl⟩⟩
      have hzero : 0 ∉ positions.map (· + 1) := by
        intro h
        rcases List.mem_map.mp h with ⟨j, _, hj⟩
        omega
      have hreadRest : (positions.map (· + 1)).map (fun i => (first :: rest)[i]?)
          = (rest.filter p).map some := by
        rw [List.map_map, ← hread]
        rfl
      by_cases hp : p first = true
      · -- The first entry stays, in front of the others.
        refine ⟨0 :: positions.map (· + 1), ?_, ?_, ?_⟩
        · refine List.pairwise_cons.mpr ⟨fun i hi => ?_, hshift⟩
          exact Nat.pos_of_ne_zero fun h => hzero (h ▸ hi)
        · rintro (_ | i)
          · exact iff_of_true List.mem_cons_self ⟨first, rfl, hp⟩
          · rw [List.mem_cons, List.getElem?_cons_succ, ← hmem i, hlater i]
            exact or_iff_right (Nat.succ_ne_zero i)
        · rw [List.map_cons, hreadRest, List.filter_cons_of_pos hp, List.map_cons]
          rfl
      · refine ⟨positions.map (· + 1), hshift, ?_, ?_⟩
        · rintro (_ | i)
          · refine iff_of_false hzero ?_
            rintro ⟨x, hx, hpx⟩
            rw [List.getElem?_cons_zero, Option.some.injEq] at hx
            exact hp (hx ▸ hpx)
          · rw [List.getElem?_cons_succ, ← hmem i, hlater i]
        · rw [hreadRest, List.filter_cons_of_neg hp]

namespace TrainingSet

/-- Rows that are read off a set at the positions of a label, and at all of them. -/
def RowsOf (set : TrainingSet) (label : Bool) (rows : List (List Float)) : Prop :=
  ∃ positions : List Nat, positions.Pairwise (· < ·) ∧
    (∀ i, i ∈ positions ↔ set.labels[i]? = some label) ∧
    positions.map (fun i => set.samples[i]?) = rows.map some

variable (set : TrainingSet) (label : Bool)

theorem rowsOf_rowsWithLabel (hlabels : set.samples.length = set.labels.length) :
    set.RowsOf label (set.rowsWithLabel label) := by
  rcases filter_positions (fun pair : List Float × Bool => pair.2 == label) set.pairs with
    ⟨positions, hincreasing, hmem, hread⟩
  -- With a label for each row, what is read of the pairs is read of both lists.
  have hsamples : ∀ i : Nat, set.pairs[i]?.map Prod.fst = set.samples[i]? := by
    intro i
    rw [← List.getElem?_map, pairs, List.map_fst_zip (le_of_eq hlabels)]
  have hlabel : ∀ i : Nat, set.pairs[i]?.map Prod.snd = set.labels[i]? := by
    intro i
    rw [← List.getElem?_map, pairs, List.map_snd_zip (ge_of_eq hlabels)]
  refine ⟨positions, hincreasing, fun i => ?_, ?_⟩
  · rw [hmem i, ← hlabel i, Option.map_eq_some_iff]
    exact exists_congr fun pair => and_congr_right fun _ => beq_iff_eq
  · have hrows := congrArg (List.map (Option.map Prod.fst)) hread
    rw [List.map_map, List.map_map] at hrows
    rw [rowsWithLabel, List.map_map, ← List.map_congr_left fun i _ => hsamples i]
    exact hrows

theorem rowsWithLabel_perm {set set' : TrainingSet} (h : set.pairs.Perm set'.pairs) :
    (set.rowsWithLabel label).Perm (set'.rowsWithLabel label) :=
  (h.filter _).map Prod.fst

theorem samples_perm {set set' : TrainingSet} (hlabels : set.samples.length = set.labels.length)
    (hlabels' : set'.samples.length = set'.labels.length) (h : set.pairs.Perm set'.pairs) :
    set.samples.Perm set'.samples := by
  have hrows := h.map Prod.fst
  rw [pairs, pairs, List.map_fst_zip (le_of_eq hlabels), List.map_fst_zip (le_of_eq hlabels')]
    at hrows
  exact hrows

end TrainingSet

/-! ## The medians of rows and of training sets -/

theorem featureMedians_of_numbers {s : Schema} {rows rows' : List (List Float)}
    {medians : NamedValues} (h : MediansOf s rows medians)
    (hnumbers : ∀ i < s.width, (numbersOf rows i).Perm (numbersOf rows' i)) :
    featureMedians s rows' = .ok medians := by
  rw [featureMedians_eq, h.unique (columnMedians_mediansOf s rows') hnumbers]

end CommitRisk
