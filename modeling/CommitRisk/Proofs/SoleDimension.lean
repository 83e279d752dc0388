import CommitRisk.Proofs.Regrouping
import CommitRisk.Proofs.TrainingRows
import Mathlib.Tactic.FieldSimp

/-!
# Commits That Differ in One Dimension

A commit that is like the baseline everywhere but in one dimension is the case in which it
is plain what attribution should say. With everything else at the baseline, that
dimension gives the commit back as it is, and any other one gives the baseline. So there is
one lift that can be anything but zero.

What becomes of it depends on its sign. A positive lift takes the whole score. Without any
lift there is nothing to share out. A negative one is the least, so it is moved up to zero
and all others with it, and these divide the score evenly among themselves. The score is
not the baseline's then, and it is not the dimension's doing that there is any: this is what
the formula says, and it holds of every score that is lower than the baseline's.

The masks have to agree with the groups for this, whatever the order of the columns: a
feature outside the dimension is at the baseline already, and one inside of it is outside of
every other dimension.

## Main definitions

* `singleLift`: The lifts of a commit that moves away from the baseline in one place.
* `Engine.DeviatesIn`: A row is like the baseline outside a dimension.

## Theorems

* `sum_map_single`: A sum in which one summand differs.
* `raise_least_single`: How far a single lift is moved up.
* `redistribute_singleLift`: What each is given unless there is nothing to share out.
* `redistribute_level_single`, `redistribute_positive`, `redistribute_negative`: What becomes
  of a single lift.
* `holdAtBaseline_own`, `holdAtBaseline_other`: The rows the model is asked about.
* `contributions_of_deviation`: The contributions in terms of the one lift.
* `attributions_of_deviation`: What a batch says of such commits.
* `attributions_of_deviation_spread`: A batch of three.
-/

namespace CommitRisk

/-! ## A single lift -/

section SingleLift

variable {β : Type} [DecidableEq β]

theorem sum_map_single (xs : List β) (x : β) (own other : Rat) (hnodup : xs.Nodup) (hx : x ∈ xs) :
    (xs.map fun y => if y = x then own else other).sum = own + (xs.length - 1) * other := by
  have hperm := List.perm_cons_erase hx
  have hrest : ((xs.erase x).map fun y => if y = x then own else other)
      = (xs.erase x).map fun _ => other := by
    refine List.map_congr_left fun y hy => if_neg ?_
    exact ((hnodup.mem_erase_iff).mp hy).1
  have hlength : xs.length = (xs.erase x).length + 1 := hperm.length_eq
  rw [(hperm.map _).sum_eq, List.map_cons, List.sum_cons, if_pos rfl, hrest, List.map_const',
    List.sum_replicate, nsmul_eq_mul, hlength]
  push_cast
  ring

/-- The least of the lifts is the single one or zero, and they are moved up by as much as
    the single one would be. -/
theorem raise_least_single (xs : List β) (x : β) (hx : x ∈ xs) (lift : Rat) :
    ∃ m, (xs.map fun y => if y = x then lift else 0).min? = some m ∧ raise m = raise lift := by
  have hmem : lift ∈ xs.map fun y => if y = x then lift else 0 :=
    List.mem_map.mpr ⟨x, hx, if_pos rfl⟩
  rcases Option.isSome_iff_exists.mp (List.isSome_min?_of_mem hmem) with ⟨m, hm⟩
  refine ⟨m, hm, ?_⟩
  rcases List.min?_eq_some_iff.mp hm with ⟨hin, hleast⟩
  rcases List.mem_map.mp hin with ⟨y, _, hy⟩
  by_cases hyx : y = x
  · rw [← hy, if_pos hyx]
  · rw [if_neg hyx] at hy
    have hlift := hleast lift hmem
    rw [← hy] at hlift ⊢
    rw [raise, raise, neg_zero, max_self, max_eq_right (by linarith)]

/-- The single lift and the others, as lifts of a commit. -/
def singleLift (x : β) (lift : Rat) (y : β) : Exact :=
  .value (if y = x then lift else 0)

theorem definedPart_singleLift (xs : List β) (x : β) (lift : Rat) :
    definedPart (xs.map (singleLift x lift)) = xs.map fun y => if y = x then lift else 0 := by
  rw [definedPart, List.filterMap_map, ← List.filterMap_eq_map]
  rfl

/-- Unless the raised lifts come to nothing, each gets its part of the score. -/
theorem redistribute_singleLift (xs : List β) (x : β) (lift score total : Rat)
    (hnodup : xs.Nodup) (hx : x ∈ xs)
    (htotal : lift + raise lift + (xs.length - 1) * raise lift = total) (hne : total ≠ 0) :
    redistribute (xs.map (singleLift x lift)) (.value score)
      = xs.map fun y => .value (((if y = x then lift else 0) + raise lift) / total * score) := by
  rcases raise_least_single xs x hx lift with ⟨m, hm, hraise⟩
  have hsum : raisedTotal (raise lift) (xs.map fun y => if y = x then lift else 0) = total := by
    have hraised : (fun y => (if y = x then lift else 0) + raise lift)
        = fun y => if y = x then lift + raise lift else raise lift := by
      funext y
      rw [ite_add, zero_add]
    rw [raisedTotal, List.map_map, ← htotal, ← sum_map_single xs x _ _ hnodup hx, ← hraised]
    rfl
  rw [← definedPart_singleLift] at hm hsum
  rw [← hraise] at hsum
  rw [redistribute_exact _ score m hm (by rw [hsum]; exact hne), hsum, hraise, List.map_map,
    List.map_map]
  rfl

theorem redistribute_level_single (xs : List β) (x : β) (score : Exact) :
    redistribute (xs.map (singleLift x 0)) score = xs.map fun _ => .value 0 := by
  have hlevel : IsLevel (xs.map (singleLift x 0)) := by
    refine ⟨0, le_refl 0, fun q hq => ?_⟩
    rcases List.mem_map.mp hq with ⟨y, _, hy⟩
    rw [singleLift, ite_self, Exact.value.injEq] at hy
    exact hy.symm
  rw [redistribute_level _ score hlevel, List.map_map]
  rfl

/-- A single positive lift takes the whole score. -/
theorem redistribute_positive (xs : List β) (x : β) (lift score : Rat) (hnodup : xs.Nodup)
    (hx : x ∈ xs) (hlift : 0 < lift) :
    redistribute (xs.map (singleLift x lift)) (.value score)
      = xs.map fun y => .value (if y = x then score else 0) := by
  have hraise : raise lift = 0 := max_eq_right (by linarith)
  rw [redistribute_singleLift xs x lift score lift hnodup hx (by rw [hraise]; ring) hlift.ne']
  refine List.map_congr_left fun y _ => ?_
  rw [hraise, add_zero]
  by_cases hyx : y = x
  · rw [if_pos hyx, if_pos hyx, div_self hlift.ne', one_mul]
  · rw [if_neg hyx, if_neg hyx, zero_div, zero_mul]

/-- A single negative lift gets nothing, and the others divide the score evenly. -/
theorem redistribute_negative (xs : List β) (x : β) (lift score : Rat) (hnodup : xs.Nodup)
    (hx : x ∈ xs) (hlift : lift < 0) :
    redistribute (xs.map (singleLift x lift)) (.value score)
      = xs.map fun y => .value (if y = x then 0 else score / (xs.length - 1)) := by
  have hraise : raise lift = -lift := raise_of_nonpos lift hlift.le
  by_cases hone : xs.length = 1
  · -- Without others there is nobody to get anything.
    rcases List.length_eq_one_iff.mp hone with ⟨y, rfl⟩
    rw [List.mem_singleton] at hx
    subst hx
    have hlevel : IsLevel ([x].map (singleLift x lift)) := by
      refine ⟨lift, hlift.le, fun q hq => ?_⟩
      rw [List.map_singleton, List.mem_singleton, singleLift, if_pos rfl,
        Exact.value.injEq] at hq
      exact hq
    rw [redistribute_level _ _ hlevel, List.map_singleton, List.map_singleton,
      List.map_singleton, if_pos rfl]
  · have hlength : (xs.length : Rat) - 1 ≠ 0 := by
      rw [sub_ne_zero]
      exact_mod_cast hone
    rw [redistribute_singleLift xs x lift score ((xs.length - 1) * -lift) hnodup hx
      (by rw [hraise]; ring) (mul_ne_zero hlength (neg_ne_zero.mpr hlift.ne))]
    refine List.map_congr_left fun y _ => ?_
    rw [hraise]
    by_cases hyx : y = x
    · rw [if_pos hyx, if_pos hyx, add_neg_cancel, zero_div, zero_mul]
    · rw [if_neg hyx, if_neg hyx, zero_add]
      have hne : lift ≠ 0 := hlift.ne
      congr 1
      field_simp

end SingleLift

namespace Engine

variable {α : Type}

/-! ## The rows the model is asked about -/

/-- A row is like the baseline in every column of a feature outside the dimension. -/
def DeviatesIn (e : Engine α) (d : Dimension) (row : List Float) : Prop :=
  ∀ (i : Nat) (f : String), e.schema.features[i]? = some f → f ∉ d.features →
    row[i]? = e.baseline.values[i]?

instance (e : Engine α) (d : Dimension) (row : List Float) : Decidable (e.DeviatesIn d row) :=
  decidable_of_iff (∀ i : Fin e.schema.features.length, e.schema.features[i] ∉ d.features →
      row[i.val]? = e.baseline.values[i.val]?)
    ⟨fun h i f hf hfd => by
      rcases List.getElem?_eq_some_iff.mp hf with ⟨hi, rfl⟩
      exact h ⟨i, hi⟩ hfd,
    fun h i hid => h i _ (List.getElem?_eq_getElem i.isLt) hid⟩

/-- Holding a row at the baseline outside a dimension, column by column. -/
theorem holdAtBaseline_eq (e : Engine α) (g : Dimension) (row target : List Float)
    (hrow : row.length = e.schema.width) (htarget : target.length = e.schema.width)
    (h : ∀ (i : Nat) (f : String), e.schema.features[i]? = some f →
      (if f ∈ g.features then row[i]? else e.baseline.values[i]?) = target[i]?) :
    holdAtBaseline e.baseline.values (e.schema.columnsOf g) row = target := by
  have hbase := e.baseline_values_length
  have hmask : (e.schema.columnsOf g).length = e.schema.width := by
    rw [Schema.columnsOf, List.length_map, Schema.width]
  have hlength := holdAtBaseline_length e.baseline.values (e.schema.columnsOf g) row
    (hmask.trans hrow.symm) (hbase.trans hrow.symm)
  refine List.ext_getElem (by rw [hlength, hrow, htarget]) fun i hi hi' => ?_
  have hwidth : i < e.schema.features.length := by
    rw [htarget, Schema.width] at hi'
    exact hi'
  have hi'' : i < row.length := by rwa [hlength] at hi
  have hcolumn := h i _ (List.getElem?_eq_getElem hwidth)
  rw [List.getElem?_eq_getElem hi'', List.getElem?_eq_getElem (by rw [hbase]; exact hwidth),
    List.getElem?_eq_getElem hi', ← apply_ite some, Option.some.injEq] at hcolumn
  rw [← hcolumn]
  simp only [holdAtBaseline, Schema.columnsOf, List.getElem_zipWith, List.getElem_zip,
    List.getElem_map, List.contains_iff_mem]

theorem holdAtBaseline_own (e : Engine α) (d : Dimension) (row : List Float)
    (hrow : row.length = e.schema.width) (h : e.DeviatesIn d row) :
    holdAtBaseline e.baseline.values (e.schema.columnsOf d) row = row := by
  refine e.holdAtBaseline_eq d row row hrow hrow fun i f hf => ?_
  by_cases hfd : f ∈ d.features
  · rw [if_pos hfd]
  · rw [if_neg hfd, h i f hf hfd]

/-- The features of another dimension are at the baseline in any case. -/
theorem holdAtBaseline_other (e : Engine α) (d g : Dimension) (row : List Float)
    (hrow : row.length = e.schema.width) (h : e.DeviatesIn d row) (hd : d ∈ e.schema.dimensions)
    (hg : g ∈ e.schema.dimensions) (hne : g ≠ d) :
    holdAtBaseline e.baseline.values (e.schema.columnsOf g) row = e.baseline.values := by
  refine e.holdAtBaseline_eq g row _ hrow e.baseline_values_length fun i f hf => ?_
  by_cases hfg : f ∈ g.features
  · rw [if_pos hfg]
    refine h i f hf fun hfd => hne ?_
    exact e.schema.partition.dimension_unique f g d hg hd hfg hfd
  · rw [if_neg hfg]

theorem rowOf_eq (c : Commit) (row : List Float) (h : c.features? = some row) :
    rowOf c = row := by
  rw [rowOf, cells_of_mapM_some c.metrics row h, List.map_map]
  exact List.map_id row

theorem score_baseline (e : Engine α) (score : List Float → α)
    (hmodel : e.model.ScoresRows e.schema.width score)
    (hmedians : e.model.predictOne e.baseline.values = .ok e.mediansScore) :
    score e.baseline.values = e.mediansScore := by
  have hbase := hmodel [e.baseline.values] fun row hrow => by
    rw [List.mem_singleton.mp hrow, e.baseline_values_length]
  unfold RiskModel.predictOne at hmedians
  simp only [hbase, List.map_singleton, List.getLast?_singleton, Except.ok.injEq] at hmedians
  exact hmedians

/-! ## Contributions -/

/-- With all else at the baseline, the dimension gives the commit back and any other one
    gives the baseline. So there is one lift besides those that are zero. -/
theorem contributions_of_deviation (e : Engine Exact) (score : List Float → Exact) (m s : Rat)
    (c : Commit) (row : List Float) (d : Dimension)
    (hbaseline : score e.baseline.values = .value m) (hm : e.mediansScore = .value m)
    (hpos : 0 < m) (hwidth : c.metrics.length = e.schema.width)
    (hrow : c.features? = some row) (hd : d ∈ e.schema.dimensions) (h : e.DeviatesIn d row)
    (hs : score row = .value s) :
    (e.attributionOf score c).contributions = e.schema.dimensionNames.zip
      (redistribute (e.schema.dimensions.map (singleLift d ((s - m) / m))) (.value s)) := by
  have hrowOf : rowOf c = row := rowOf_eq c row hrow
  have hlength : row.length = e.schema.width := by rw [← hrowOf, rowOf_length, hwidth]
  have hlifts : (e.schema.masks.map fun mask => score (e.heldRow mask c)).map e.lift
      = e.schema.dimensions.map (singleLift d ((s - m) / m)) := by
    rw [e.schema.masks_eq, List.map_map, List.map_map]
    refine List.map_congr_left fun g hg => ?_
    simp only [Function.comp_apply, heldRow, hrowOf, singleLift, lift, hm]
    by_cases hgd : g = d
    · rw [hgd, e.holdAtBaseline_own d row hlength h, hs, if_pos rfl, Exact.value_sub_value,
        Exact.value_div_value _ _ hpos.ne']
    · rw [e.holdAtBaseline_other d g row hlength h hd hg hgd, hbaseline, if_neg hgd,
        Exact.value_sub_value, Exact.value_div_value _ _ hpos.ne', sub_self, zero_div]
  simp only [attributionOf, attributeOne, hm, Exact.isZero_value, hpos.ne', decide_false,
    Bool.false_eq_true, if_false, hlifts, hrowOf, hs, Exact.finiteOrZero_value]

/-- A commit that is like the baseline everywhere but in one dimension: above the baseline's
    score the dimension is given all of the commit's, at it there is nothing to give, and
    below it the others divide the score evenly. -/
theorem attributions_of_deviation (e : Engine Exact) (score : List Float → Exact) (m : Rat)
    (hmodel : e.model.ScoresRows e.schema.width score)
    (hmedians : e.model.predictOne e.baseline.values = .ok e.mediansScore)
    (hm : e.mediansScore = .value m) (hpos : 0 < m) (commits : List Commit)
    (hwidth : ∀ c ∈ commits, c.metrics.length = e.schema.width) :
    ∃ results, e.attributions commits = .ok results ∧ results.length = commits.length ∧
      ∀ (i : Nat) (c : Commit) (r : Attribution Exact), commits[i]? = some c →
        results[i]? = some r → r.commit = c.id ∧
        ∀ (d : Dimension) (row : List Float) (s : Rat), d ∈ e.schema.dimensions →
          c.features? = some row → e.DeviatesIn d row → score row = .value s →
          r.score = .value s ∧ (row = e.baseline.values → s = m) ∧
          (m < s → r.contributions
            = e.schema.dimensions.map fun g => (g.name, .value (if g = d then s else 0))) ∧
          (s = m → r.contributions = e.schema.dimensions.map fun g => (g.name, .value 0)) ∧
          (s < m → r.contributions = e.schema.dimensions.map fun g =>
            (g.name, .value (if g = d then 0 else s / (e.schema.dimensions.length - 1)))) := by
  have hbaseline : score e.baseline.values = .value m := by
    rw [e.score_baseline score hmodel hmedians, hm]
  refine ⟨_, e.attributions_eq_map score hmodel commits hwidth, List.length_map _, ?_⟩
  intro i c r hc hr
  rw [List.getElem?_map, hc, Option.map_some, Option.some.injEq] at hr
  subst hr
  refine ⟨rfl, fun d row s hd hrow h hs => ?_⟩
  have hparts := e.contributions_of_deviation score m s c row d hbaseline hm hpos
    (hwidth c (List.mem_of_getElem? hc)) hrow hd h hs
  have hnodup : e.schema.dimensions.Nodup :=
    .of_map Dimension.name e.schema.partition.names_nodup
  refine ⟨?_, ?_, ?_, ?_, ?_⟩
  · simp only [attributionOf, attributeOne, rowOf_eq c row hrow, hs, Exact.finiteOrZero_value]
  · rintro rfl
    rw [hbaseline, Exact.value.injEq] at hs
    exact hs.symm
  · intro hsm
    rw [hparts, redistribute_positive _ d _ s hnodup hd (div_pos (by linarith) hpos),
      Schema.dimensionNames, List.zip_map']
  · rintro rfl
    rw [hparts, sub_self, zero_div, redistribute_level_single, Schema.dimensionNames,
      List.zip_map']
  · intro hsm
    rw [hparts, redistribute_negative _ d _ s hnodup hd (div_neg_of_neg_of_pos (by linarith) hpos),
      Schema.dimensionNames, List.zip_map']

end Engine

/-- Two features of the size of a change, one of the experience of its author and one of the
    files it is spread over, in mixed order. -/
def spreadSchema : Schema where
  features := ["la", "exp", "lt", "nf"]
  dimensions := [⟨"size", ["la", "lt"]⟩, ⟨"experience", ["exp"]⟩, ⟨"diffusion", ["nf"]⟩]
  tables := ⟨[("la", 0), ("exp", 1), ("lt", 2), ("nf", 3)], [0, 1, 0, 2]⟩
  made := rfl

/-- Small changes are risky, and little experience makes for less risk. -/
def spreadScore (row : List Float) : Exact :=
  .value (if row.getD 0 0.0 < 2.0 then 1 / 2 else if row.getD 1 0.0 < 4.0 then 1 / 8 else 1 / 4)

def spreadEngine : Engine Exact where
  model := .ofRows 4 spreadScore
  schema := spreadSchema
  baseline := ⟨[("la", 2.0), ("exp", 4.0), ("lt", 0.0), ("nf", 1.0)]⟩
  mediansScore := .value (1 / 4)
  baseline_width := rfl

/-- A small change, one by an author with little experience, and one like the baseline. -/
def spreadCommits : List Commit := [
  ⟨"a", 0, [some 1.0, some 4.0, some 7.0, some 1.0], some true⟩,
  ⟨"b", 1, [some 2.0, some 3.0, some 0.0, some 1.0], some false⟩,
  ⟨"c", 2, [some 2.0, some 4.0, some 0.0, some 1.0], none⟩]

theorem attributions_of_deviation_spread :
    ∃ results, spreadEngine.attributions spreadCommits = .ok results ∧
      results.map Attribution.contributions =
        [[("size", .value (1 / 2)), ("experience", .value 0), ("diffusion", .value 0)],
          [("size", .value (1 / 16)), ("experience", .value 0), ("diffusion", .value (1 / 16))],
          [("size", .value 0), ("experience", .value 0), ("diffusion", .value 0)]] := by
  have hwidth : ∀ c ∈ spreadCommits, c.metrics.length = spreadEngine.schema.width := by decide
  rcases spreadEngine.attributions_of_deviation spreadScore (1 / 4) (fun _ _ => rfl) rfl rfl
    (by norm_num) spreadCommits hwidth with ⟨results, hresults, hlength, hparts⟩
  refine ⟨results, hresults, ?_⟩
  match results, hlength with
  | [a, b, c], _ =>
    have hsize := (hparts 0 _ a rfl rfl).2 ⟨"size", ["la", "lt"]⟩ [1.0, 4.0, 7.0, 1.0] (1 / 2)
      (by decide) rfl (by decide +kernel) (by decide +kernel)
    have hexperience := (hparts 1 _ b rfl rfl).2 ⟨"experience", ["exp"]⟩ [2.0, 3.0, 0.0, 1.0]
      (1 / 8) (by decide) rfl (by decide +kernel) (by decide +kernel)
    have hnone := (hparts 2 _ c rfl rfl).2 ⟨"diffusion", ["nf"]⟩ [2.0, 4.0, 0.0, 1.0] (1 / 4)
      (by decide) rfl (by decide +kernel) (by decide +kernel)
    rw [List.map_cons, List.map_cons, List.map_cons, List.map_nil,
      hsize.2.2.1 (by norm_num), hexperience.2.2.2.2 (by norm_num), hnone.2.2.2.1 rfl]
    decide +kernel

end CommitRisk
