import CommitRisk.Proofs.RowCounts
import Mathlib.Data.Rat.Floor

/-!
# A Set in Two Parts

A set is divided by shuffling the positions of its rows and cutting the shuffled list. How
many are held out for the test is the ceiling of a share of them, worked out in doubles,
and the share may be any double at all. `saturatedCeil` says in rationals what comes of it:
nothing for what is not a number or below zero, and never more than a machine word holds.

The shuffle goes from the last position down to the second one and swaps each with a
position that is not after it, `Swapped`. Which one that is comes from the words of a seed,
and all that is used of them here is that an index below a bound is below it. So whatever
the words are, no swap is out of range, and the positions only change places.

Rows and labels are then read at the same positions, and every position is that of a row.
This is why no row is lost, none comes twice, and each keeps its label.

## Main definitions

* `saturatedCeil`: The ceiling of what a float stands for, as a machine word.
* `Swapped`: The swaps of a shuffle.
* `TrainingSet.pairs`: The rows with their labels.
* `TrainingSet.Parts`: Two sets are the parts of a set, cut in some order.

## Theorems

* `ceilCount_eq`: The ceiling that is computed is the saturated one.
* `draw_lt`, `index32_lt`, `index64_lt`: An index below a bound is below it.
* `shuffleFrom_swapped`: A shuffle is made of swaps.
* `pairs_select`: What is read at some positions.
* `perm_of_read`: Reading at all positions in some order.
* `parts_of_cut`: The parts, wherever the shuffled positions are cut.
* `split_parts`: The two parts of a set.
* `split_parts_small`: The same for three rows.
-/

namespace CommitRisk

/-! ## How many are held out -/

/-- The rational that a finite float stands for. -/
def signedValue (negative : Bool) (mantissa : Nat) (exponent : Int) : Rat :=
  (if negative then -1 else 1) * mantissa * 2 ^ exponent

/-- The ceiling of what a float stands for, as a machine word: nothing below zero and for
    what is not a number, and the largest word for what is too large. -/
def saturatedCeil : Binary → Nat
  | .nan => 0
  | .infinite negative => if negative then 0 else 2 ^ 64 - 1
  | .finite negative mantissa exponent =>
      min ⌈signedValue negative mantissa exponent⌉₊ (2 ^ 64 - 1)

theorem ceil_signedValue_negative (mantissa : Nat) (exponent : Int) :
    ⌈signedValue true mantissa exponent⌉₊ = 0 := by
  have hpow : (0 : Rat) < 2 ^ exponent := by positivity
  have hmantissa : (0 : Rat) ≤ mantissa := by positivity
  rw [Nat.ceil_eq_zero, signedValue, if_pos rfl]
  nlinarith

theorem ceil_signedValue_whole (mantissa : Nat) (exponent : Int) (h : 0 ≤ exponent) :
    ⌈signedValue false mantissa exponent⌉₊ = mantissa * 2 ^ exponent.toNat := by
  obtain ⟨n, rfl⟩ := Int.eq_ofNat_of_zero_le h
  have hvalue : signedValue false mantissa n = ((mantissa * 2 ^ n : Nat) : Rat) := by
    rw [signedValue, if_neg Bool.false_ne_true, one_mul, zpow_natCast]
    push_cast
    rfl
  rw [hvalue, Nat.ceil_natCast, Int.toNat_natCast]

/-- A mantissa over a power of two is rounded up by adding one less than the power. -/
theorem ceil_signedValue_fraction (mantissa : Nat) (exponent : Int) (h : exponent < 0) :
    ⌈signedValue false mantissa exponent⌉₊
      = (mantissa + (2 ^ (-exponent).toNat - 1)) / 2 ^ (-exponent).toNat := by
  obtain ⟨n, hn⟩ := Int.eq_ofNat_of_zero_le (show 0 ≤ -exponent by omega)
  have hunit : 0 < 2 ^ n := Nat.two_pow_pos n
  have hvalue : signedValue false mantissa exponent = mantissa / ((2 ^ n : Nat) : Rat) := by
    rw [signedValue, if_neg Bool.false_ne_true, one_mul, show exponent = -(n : Int) by omega,
      zpow_neg, zpow_natCast, div_eq_mul_inv]
    push_cast
    rfl
  rw [hvalue, hn, Int.toNat_natCast]
  -- Both are the least number whose multiple of the power is not below the mantissa.
  refine eq_of_forall_ge_iff fun k => ?_
  rw [Nat.ceil_le, div_le_iff₀ (by exact_mod_cast hunit), Nat.div_le_iff_le_mul_add_pred hunit,
    Nat.mul_comm]
  norm_cast
  omega

/-- The ceiling is worked out in integers, and this is what it comes to. -/
theorem ceilCount_eq (x : Float) : ceilCount x = saturatedCeil (Binary.ofFloat x) := by
  unfold ceilCount
  cases Binary.ofFloat x with
  | nan => rfl
  | infinite negative => rfl
  | finite negative mantissa exponent =>
      cases negative with
      | true => rw [saturatedCeil, ceil_signedValue_negative, Nat.zero_min]
      | false =>
          by_cases h : 0 ≤ exponent
          · rw [saturatedCeil, ceil_signedValue_whole mantissa exponent h]
            exact if_pos h
          · rw [saturatedCeil, ceil_signedValue_fraction mantissa exponent (not_le.mp h)]
            exact if_neg h

/-! ## The order of the rows -/

/-- The swaps of a shuffle: every position from the given one down to the second is swapped
    with one that is not after it. -/
inductive Swapped : Nat → Array Nat → Array Nat → Prop where
  | done (order : Array Nat) : Swapped 0 order order
  | swap (i target : Nat) (order result : Array Nat) (hi : i + 1 < order.size)
      (htarget : target ≤ i + 1)
      (hrest : Swapped i (order.swap (i + 1) target hi (by omega)) result) :
      Swapped (i + 1) order result

namespace Words

/-- The upper part of the product of a word and a bound is below the bound. -/
theorem draw_lt (next : Words → Nat × Words) (size bound limit fuel : Nat) (s : Words)
    (hnext : ∀ s, (next s).1 < size) (hbound : 0 < bound) :
    (draw next size bound limit fuel s).1 < bound := by
  have hupper : ∀ s, (next s).1 * bound / size < bound := fun s =>
    Nat.div_lt_of_lt_mul (Nat.mul_lt_mul_of_pos_right (hnext s) hbound)
  induction fuel generalizing s with
  | zero => exact hupper s
  | succ fuel ih =>
      unfold draw
      simp only []
      -- A word is taken or drawn again.
      split
      · exact hupper s
      · exact ih _

theorem index32_lt (s : Words) (bound : Nat) (hbound : 0 < bound) :
    (s.index32 bound).1 < bound :=
  draw_lt _ _ _ _ _ s (fun s => s.next32.1.toNat_lt) hbound

theorem index64_lt (s : Words) (bound : Nat) (hbound : 0 < bound) :
    (s.index64 bound).1 < bound :=
  draw_lt _ _ _ _ _ s (fun s => s.next64.1.toNat_lt) hbound

end Words

/-- A shuffle is made of swaps, all of them in range. -/
theorem shuffleFrom_swapped (i : Nat) (order : Array Nat) (s : Words) (hi : i ≤ order.size - 1) :
    Swapped i order (shuffleFrom i order s) := by
  induction i generalizing order s with
  | zero => exact .done order
  | succ i ih =>
      have hsize : i + 1 < order.size := by omega
      have htarget := s.index32_lt (i + 2) (by omega)
      have hswap : order.swapIfInBounds (i + 1) (s.index32 (i + 2)).1
          = order.swap (i + 1) (s.index32 (i + 2)).1 hsize (by omega) := by
        rw [Array.swapIfInBounds_def, dif_pos hsize, dif_pos (by omega)]
      refine .swap i (s.index32 (i + 2)).1 order _ hsize (by omega) ?_
      rw [shuffleFrom, hswap]
      refine ih _ _ ?_
      rw [Array.size_swap]
      omega

/-! ## The two parts -/

namespace TrainingSet

/-- The rows with their labels. -/
def pairs (set : TrainingSet) : List (List Float × Bool) :=
  set.samples.zip set.labels

/-- What is read at the positions of rows are those rows with their own labels. -/
theorem pairs_select (set : TrainingSet) (positions : List Nat)
    (hlabels : set.labels.length = set.samples.length)
    (hpositions : ∀ i ∈ positions, i < set.size) :
    positions.map (fun i => set.pairs[i]?) = (set.select positions).pairs.map some := by
  rw [select, pairs, pairs, List.zip_map', List.map_map]
  refine List.map_congr_left fun i hi => ?_
  have hsample : i < set.samples.length := hpositions i hi
  have hlabel : i < set.labels.length := by omega
  have hpair : i < (set.samples.zip set.labels).length := by
    rw [List.length_zip]
    omega
  rw [Function.comp_apply, List.getElem?_eq_getElem hpair, List.getElem_zip,
    List.getElem?_eq_getElem hsample, List.getElem?_eq_getElem hlabel, Option.getD_some,
    Option.getD_some]

/-- Two sets are the parts of a set, in an order of its positions that comes of shuffling
    them. The first positions are those of the test part. -/
structure Parts (set training test : TrainingSet) (held : Nat) (order : List Nat) : Prop where
  swapped : Swapped (set.size - 1) (Array.range set.size) order.toArray
  perm : order.Perm (List.range set.size)
  test_size : test.samples.length = held ∧ test.labels.length = held
  training_size : training.samples.length = set.size - held ∧
    training.labels.length = set.size - held
  /-- Reading the set in the order gives the test part and then the training part. -/
  read : order.map (fun i => set.pairs[i]?) = (test.pairs ++ training.pairs).map some
  /-- Every row is in one of the parts once, with its label. -/
  rows : (test.pairs ++ training.pairs).Perm set.pairs
  buggy : test.counts.buggy + training.counts.buggy = set.counts.buggy
  clean : test.counts.clean + training.counts.clean = set.counts.clean

/-- Reading a list in some order of all its positions gives its entries in that order. -/
theorem perm_of_read {α : Type} (xs ys : List α) (order : List Nat)
    (hperm : order.Perm (List.range xs.length))
    (hread : order.map (fun i => xs[i]?) = ys.map some) : ys.Perm xs := by
  have hall : (List.range xs.length).map (fun i => xs[i]?) = xs.map some := by
    refine List.ext_getElem ?_ fun i _ hi => ?_
    · rw [List.length_map, List.length_range, List.length_map]
    · rw [List.length_map] at hi
      rw [List.getElem_map, List.getElem_range, List.getElem_map, List.getElem?_eq_getElem hi]
  have hboth := hperm.map fun i => xs[i]?
  rw [hread, hall] at hboth
  exact (List.map_perm_map_iff (Option.some_injective α)).mp hboth

/-- Cutting the shuffled positions gives two parts, wherever the cut is. -/
theorem parts_of_cut (set : TrainingSet) (held : Nat) (seed : UInt64)
    (hlabels : set.labels.length = set.samples.length) (hheld : held ≤ set.size) :
    Parts set (set.select ((shuffle set.size seed).drop held))
      (set.select ((shuffle set.size seed).take held)) held (shuffle set.size seed) := by
  have hswapped : Swapped (set.size - 1) (Array.range set.size)
      (shuffle set.size seed).toArray :=
    shuffleFrom_swapped _ _ (Words.ofSeed seed) (by rw [Array.size_range])
  have hperm := shuffle_perm set.size seed
  have hlength := shuffle_length set.size seed
  generalize shuffle set.size seed = order at hswapped hperm hlength ⊢
  have hrange : ∀ i ∈ order, i < set.size := fun i hi => List.mem_range.mp (hperm.mem_iff.mp hi)
  have htest := set.length_select (order.take held)
  have htraining := set.length_select (order.drop held)
  rw [List.length_take, hlength, Nat.min_eq_left hheld] at htest
  rw [List.length_drop, hlength] at htraining
  -- The positions of both parts one after the other are the whole order.
  have hread : order.map (fun i => set.pairs[i]?) = ((set.select (order.take held)).pairs
      ++ (set.select (order.drop held)).pairs).map some := by
    rw [List.map_append,
      ← set.pairs_select _ hlabels fun i hi => hrange i (List.mem_of_mem_take hi),
      ← set.pairs_select _ hlabels fun i hi => hrange i (List.mem_of_mem_drop hi),
      ← List.map_append, List.take_append_drop]
  have hsize : set.pairs.length = set.size := by
    rw [pairs, List.length_zip, hlabels, Nat.min_self, size]
  have hrows := perm_of_read set.pairs _ order (by rw [hsize]; exact hperm) hread
  have hcount := fun label => set.count_select_cut order held label (by rw [hlabels]; exact hperm)
  exact ⟨hswapped, hperm, ⟨htest.2, htest.1⟩, ⟨htraining.2, htraining.1⟩, hread, hrows,
    hcount true, hcount false⟩

/-- Dividing a set, whatever the share that is held out and whatever the seed. With as many
    held out as the ceiling of the share comes to, it fails exactly if these are none or no
    fewer than there are. Otherwise there are two parts, the test part with as many rows
    and the training part with the rest, and both together are the rows of the set with
    their labels, read in a shuffled order. -/
theorem split_parts (set : TrainingSet) (testSize : Float) (seed : UInt64)
    (hlabels : set.labels.length = set.samples.length) :
    let held := saturatedCeil (Binary.ofFloat (testSize * Float.ofNat set.size))
    (set.split testSize seed = .error (.emptyTrainSplit set.size testSize) ↔
      held = 0 ∨ set.size ≤ held) ∧
    (held ≠ 0 → held < set.size → ∃ training test order,
      set.split testSize seed = .ok (training, test) ∧ Parts set training test held order) := by
  intro held
  have hheld : heldOut testSize set.size = held := ceilCount_eq _
  have hok : held ≠ 0 → held < set.size → set.split testSize seed
      = .ok (set.select ((shuffle set.size seed).drop held),
          set.select ((shuffle set.size seed).take held)) := by
    intro hsome hrest
    unfold split
    simp only [hheld]
    rw [if_neg (by omega)]
  refine ⟨⟨fun herror => ?_, fun h => ?_⟩, fun hsome hrest => ?_⟩
  · by_contra hboth
    rw [hok (by omega) (by omega)] at herror
    cases herror
  · exact split_of_not_heldOut set testSize seed (by rw [hheld]; exact h)
  · exact ⟨_, _, _, hok hsome hrest, set.parts_of_cut held seed hlabels hrest.le⟩

/-- Three rows, one of them buggy. -/
def threeRows : TrainingSet :=
  ⟨[[1.0], [2.0], [3.0]], [true, false, false]⟩

/-- Half of three rows are two, and all of them cannot be held out. -/
theorem split_parts_small :
    (∃ training test order, threeRows.split 0.5 7 = .ok (training, test) ∧
      Parts threeRows training test 2 order) ∧
    threeRows.split 1.0 7 = .error (.emptyTrainSplit 3 1.0) := by
  have hhalf : saturatedCeil (Binary.ofFloat (0.5 * Float.ofNat threeRows.size)) = 2 := by
    rw [← ceilCount_eq]
    decide +kernel
  have hwhole : saturatedCeil (Binary.ofFloat (1.0 * Float.ofNat threeRows.size)) = 3 := by
    rw [← ceilCount_eq]
    decide +kernel
  have hsplit := (threeRows.split_parts 0.5 7 rfl).2
  have hnone := (threeRows.split_parts 1.0 7 rfl).1
  rw [hhalf] at hsplit
  rw [hwhole] at hnone
  exact ⟨hsplit (by decide) (by decide), hnone.mpr (.inr (Nat.le_refl 3))⟩

/-- A share that is not a number holds nothing out, and one without end everything. -/
example : heldOut (0.0 / 0.0) 3 = 0 ∧ heldOut (1.0 / 0.0) 3 = 2 ^ 64 - 1 ∧
    heldOut (-1.0) 3 = 0 := by
  decide +kernel

end TrainingSet

end CommitRisk
