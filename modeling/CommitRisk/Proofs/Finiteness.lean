import CommitRisk.Proofs.Batches
import CommitRisk.Proofs.Midpoints

/-!
# Only Finite Numbers Are Reported

A model may answer anything: infinities, a NaN, scores out of range, scores that depend on
the rest of the batch, or more of them than it was asked for. A metric may be missing, the
baseline may hold a NaN and its score may be zero. Whatever comes of it, the numbers of an
attribution are finite, because the score and every share are looked at on their own before
they are reported. A lift against a NaN is a NaN, so nothing is shared out then, and a
baseline that scores zero is caught before any lift is taken.

What cannot be caught ends the batch: a commit of another width, an answer of another
length, and what the model says itself. `Refuses` lists these, with the call at which the
batch ended.

## Main definitions

* `Engine.Reports`: What an attribution says of a commit and its score.
* `Engine.Asks`: A call of the model that is made for some commits.
* `Engine.Refuses`: Why there are no attributions.

## Theorems

* `isFinite_finiteOrZero`: The value that replaces what is not finite.
* `isNaN_add`, `isNaN_div`: A NaN spreads.
* `isFinite_of_mem_redistribute`: Shares are finite.
* `redistribute_of_isNaN`: Nothing is shared out by lifts that are all a NaN.
* `attributeOne_reports`, `collect_reports`: What is reported of a commit and of a batch.
* `ask_eq_error_iff`, `attributions_eq_error_iff`: When a batch ends without a result.
* `attributions_reported`: Both together, for all models.
-/

namespace CommitRisk

open Float.Model (Format UnpackedFloat)
open Float.Model.UnpackedFloat

/-! ## Numbers that are replaced -/

theorem isFinite_finiteOrZero (x : Float) : (finiteOrZero x).isFinite = true := by
  unfold finiteOrZero
  split
  · assumption
  · rfl

/-- A sum with a NaN is a NaN. -/
theorem isNaN_add (a b : Float) (hb : b.isNaN = true) : (a + b).isNaN = true := by
  rw [isNaN_eq_true_iff] at hb ⊢
  have hsum : UnpackedFloat.add Format.binary64 a.toModel.unpack .notANumber = .notANumber := by
    cases a.toModel.unpack <;> rfl
  rw [unpack_add, hb, hsum]
  exact unpack_packedNaN

/-- So is a quotient by one. -/
theorem isNaN_div (a b : Float) (hb : b.isNaN = true) : (a / b).isNaN = true := by
  rw [isNaN_eq_true_iff] at hb ⊢
  have hquotient : (a / b).toModel.unpack = UnpackedFloat.unpack Format.binary64
      (UnpackedFloat.pack Format.binary64
        (UnpackedFloat.div Format.binary64 a.toModel.unpack b.toModel.unpack)) := rfl
  have hnone : UnpackedFloat.div Format.binary64 a.toModel.unpack .notANumber = .notANumber := by
    cases a.toModel.unpack <;> rfl
  rw [hquotient, hb, hnone]
  exact unpack_packedNaN

theorem isFinite_of_mem_redistribute (lifts : List Float) (score x : Float)
    (h : x ∈ redistribute lifts score) : x.isFinite = true := by
  dsimp only [redistribute] at h
  split at h
  · rcases List.mem_map.mp h with ⟨_, _, rfl⟩
    rfl
  · rcases List.mem_map.mp h with ⟨_, _, rfl⟩
    exact isFinite_finiteOrZero _

/-- Without a number among the values there is nothing to add up or to compare. -/
theorem numbers_of_isNaN (values : List Float) (h : ∀ v ∈ values, v.isNaN = true) :
    numbers values = [] := by
  refine List.filter_eq_nil_iff.mpr fun v hv => ?_
  have hnan : Scalar.isNaN v = true := h v hv
  rw [hnan]
  exact Bool.false_ne_true

/-- Lifts that are all a NaN have no smallest one, so they are moved by a NaN, and the total is
    that of no values at all. -/
theorem redistribute_of_isNaN (lifts : List Float) (score : Float)
    (h : ∀ v ∈ lifts, v.isNaN = true) : redistribute lifts score = lifts.map fun _ => 0.0 := by
  have hshift : liftShift lifts = Scalar.nan := by
    rw [liftShift, smallest?, numbers_of_isNaN lifts h]
    rfl
  have hmoved : ∀ v ∈ lifts.map fun v => v + liftShift lifts, v.isNaN = true := by
    intro v hv
    rcases List.mem_map.mp hv with ⟨w, _, rfl⟩
    rw [hshift]
    exact isNaN_add w _ rfl
  have htotal : sumOfNumbers (lifts.map fun v => v + liftShift lifts) = 0.0 := by
    rw [sumOfNumbers, numbers_of_isNaN _ hmoved]
    rfl
  dsimp only [redistribute]
  rw [htotal]
  rfl

namespace Engine

/-! ## What is reported -/

/-- What an attribution says of a commit that a model has given a score. -/
structure Reports (e : Engine Float) (c : Commit) (score : Float) (r : Attribution Float) :
    Prop where
  commit : r.commit = c.id
  score : r.score = if score.isFinite = true then score else 0.0
  score_finite : r.score.isFinite = true
  dimensions : r.contributions.map Prod.fst = e.schema.dimensionNames
  contributions_finite : ∀ x ∈ r.contributions.map Prod.snd, x.isFinite = true
  /-- Against a baseline without a score to compare with, nothing is shared out. -/
  nothing_shared : (e.mediansScore == 0.0) = true ∨ e.mediansScore.isNaN = true →
    ∀ x ∈ r.contributions.map Prod.snd, x = 0.0

/-- The shares of the dimensions, before they are given their names. -/
def sharesOf (e : Engine Float) (score : Float) (byDimension : List Float) : List Float :=
  if Scalar.isZero e.mediansScore then byDimension.map fun _ => 0.0
  else redistribute (byDimension.map e.lift) (finiteOrZero score)

variable (e : Engine Float)

theorem mem_sharesOf (commit : String) (score : Float) (byDimension : List Float) (x : Float)
    (h : x ∈ (e.attributeOne commit score byDimension).contributions.map Prod.snd) :
    x ∈ e.sharesOf score byDimension := by
  rcases List.mem_map.mp h with ⟨⟨name, share⟩, hmem, rfl⟩
  exact (List.of_mem_zip hmem).2

theorem isFinite_of_mem_sharesOf (score : Float) (byDimension : List Float) (x : Float)
    (h : x ∈ e.sharesOf score byDimension) : x.isFinite = true := by
  unfold sharesOf at h
  split at h
  · rcases List.mem_map.mp h with ⟨_, _, rfl⟩
    rfl
  · exact isFinite_of_mem_redistribute _ _ x h

theorem sharesOf_eq_zero (score : Float) (byDimension : List Float)
    (h : (e.mediansScore == 0.0) = true ∨ e.mediansScore.isNaN = true) :
    e.sharesOf score byDimension = byDimension.map fun _ => 0.0 := by
  unfold sharesOf
  rcases h with hzero | hnan
  · have hcaught : Scalar.isZero e.mediansScore = true := hzero
    rw [if_pos hcaught]
  · have hlifts : ∀ v ∈ byDimension.map e.lift, v.isNaN = true := by
      intro v hv
      rcases List.mem_map.mp hv with ⟨score, _, rfl⟩
      exact isNaN_div _ _ hnan
    rw [redistribute_of_isNaN _ _ hlifts, List.map_map]
    exact ite_self _

/-- What is reported of one commit, whatever its scores are. -/
theorem attributeOne_reports (c : Commit) (score : Float) (byDimension : List Float)
    (h : byDimension.length = e.schema.dimensions.length) :
    e.Reports c score (e.attributeOne c.id score byDimension) where
  commit := rfl
  score := rfl
  score_finite := isFinite_finiteOrZero score
  dimensions := e.attributeOne_dimensions c.id score byDimension h
  contributions_finite x hx :=
    e.isFinite_of_mem_sharesOf score byDimension x (e.mem_sharesOf c.id score byDimension x hx)
  nothing_shared hmedians x hx := by
    have hshare := e.mem_sharesOf c.id score byDimension x hx
    rw [e.sharesOf_eq_zero score byDimension hmedians] at hshare
    rcases List.mem_map.mp hshare with ⟨_, _, rfl⟩
    rfl

/-- What is reported of a batch: the answers are put together by position. -/
theorem collect_reports (commits : List Commit) (scores : List Float)
    (byDimension : List (List Float)) (h : byDimension.length = e.schema.dimensions.length) :
    List.Forall₂ (fun asked r => e.Reports asked.1 asked.2 r) (commits.zip scores)
      (e.collect commits scores byDimension) := by
  unfold collect
  generalize commits.zip scores = asked
  refine List.forall₂_iff_get.mpr ⟨by rw [List.length_map, List.length_zipIdx], fun i hi _ => ?_⟩
  simp only [List.get_eq_getElem, List.getElem_map, List.getElem_zipIdx, Nat.zero_add]
  exact e.attributeOne_reports _ _ _ (by rw [List.length_map, h])

end Engine

/-! ## What ends a batch -/

namespace Engine

variable {α : Type} (e : Engine α)

/-- A call of the model that is made for some commits: all calls before it were answered. -/
def Asks (commits : List Commit) (rows : List (List Float)) : Prop :=
  ∃ before after, e.batches commits = .ok (before ++ rows :: after) ∧
    ∀ earlier ∈ before, ∃ scores, e.ask earlier = .ok scores

/-- Why there are no attributions of some commits. -/
inductive Refuses (commits : List Commit) : AttributionError → Prop where
  /-- The first commit of another width is named, and the model is not called. -/
  | otherWidth (c : Commit)
      (h : commits.find? (fun c => decide (c.metrics.length ≠ e.schema.width)) = some c) :
      Refuses commits (.rowWidth c.id e.schema.width c.metrics.length)
  | model (rows : List (List Float)) (fault : InferenceError) (hasked : e.Asks commits rows)
      (h : e.model.predict rows = .error fault) : Refuses commits (.inference fault)
  | count (rows : List (List Float)) (scores : List α) (hasked : e.Asks commits rows)
      (h : e.model.predict rows = .ok scores) (hcount : scores.length ≠ rows.length) :
      Refuses commits (.predictionCount rows.length scores.length)

theorem ask_eq_error_iff (rows : List (List Float)) (fault : AttributionError) :
    e.ask rows = .error fault ↔
      (∃ refusal, e.model.predict rows = .error refusal ∧ fault = .inference refusal) ∨
      ∃ scores, e.model.predict rows = .ok scores ∧ scores.length ≠ rows.length ∧
        fault = .predictionCount rows.length scores.length := by
  unfold ask
  cases e.model.predict rows with
  | error refusal =>
      simp only [Except.error.injEq, exists_eq_left', reduceCtorEq, false_and, exists_false,
        or_false, eq_comm]
  | ok scores =>
      simp only [reduceCtorEq, false_and, exists_false, Except.ok.injEq, exists_eq_left', false_or]
      by_cases hcount : scores.length = rows.length
      · simp only [hcount, if_true, reduceCtorEq, ne_eq, not_true_eq_false, false_and]
      · simp only [hcount, if_false, Except.error.injEq, ne_eq, not_false_eq_true, true_and,
          eq_comm]

variable [Scalar α]

/-- A batch whose commits have the right width ends with the first call that is not answered. -/
theorem attributions_eq_error_of_batches (commits : List Commit)
    (batches : List (List (List Float))) (h : e.batches commits = .ok batches)
    (fault : AttributionError) :
    e.attributions commits = .error fault ↔
      ∃ rows, e.Asks commits rows ∧ e.ask rows = .error fault := by
  have hrun : e.attributions commits = .error fault ↔ batches.mapM e.ask = .error fault := by
    unfold attributions
    rw [h]
    cases hanswers : batches.mapM e.ask with
    | error other =>
        simp only [bind, Except.bind, hanswers, Except.error.injEq]
    | ok answers => simp only [bind, Except.bind, hanswers, pure, Except.pure, reduceCtorEq]
  rw [hrun, mapM_eq_error_iff]
  constructor
  · rintro ⟨before, rows, after, rfl, hbefore, hrows⟩
    exact ⟨rows, ⟨before, after, h, hbefore⟩, hrows⟩
  · rintro ⟨rows, ⟨before, after, hparts, hbefore⟩, hrows⟩
    rw [h, Except.ok.injEq] at hparts
    exact ⟨before, rows, after, hparts, hbefore, hrows⟩

/-- There are no attributions exactly for one of the listed reasons. -/
theorem attributions_eq_error_iff (commits : List Commit) (fault : AttributionError) :
    e.attributions commits = .error fault ↔ e.Refuses commits fault := by
  cases hother : commits.find? (fun c => decide (c.metrics.length ≠ e.schema.width)) with
  | some c =>
      have hrun := e.attributions_of_otherWidth commits c hother
      -- Without rows there are no calls.
      have hnone : ∀ rows, ¬ e.Asks commits rows := by
        rintro rows ⟨before, after, hbatches, _⟩
        have hwidth := e.width_of_batches commits _ hbatches c (List.mem_of_find?_eq_some hother)
        have hnarrow := List.find?_some hother
        exact of_decide_eq_true hnarrow hwidth
      constructor
      · intro h
        rw [hrun, Except.error.injEq] at h
        rw [← h]
        exact .otherWidth c hother
      · intro h
        cases h with
        | otherWidth d hd =>
            rw [hother, Option.some.injEq] at hd
            rw [← hd, hrun]
        | model rows _ hasked _ => exact absurd hasked (hnone rows)
        | count rows _ hasked _ _ => exact absurd hasked (hnone rows)
  | none =>
      have hwidth : ∀ c ∈ commits, c.metrics.length = e.schema.width := by
        simpa only [List.find?_eq_none, decide_eq_true_eq, ne_eq, not_not] using hother
      rw [e.attributions_eq_error_of_batches commits _ (e.batches_eq commits hwidth)]
      simp only [ask_eq_error_iff]
      constructor
      · rintro ⟨rows, hasked, ⟨refusal, hmodel, rfl⟩ | ⟨scores, hmodel, hcount, rfl⟩⟩
        · exact .model rows refusal hasked hmodel
        · exact .count rows scores hasked hmodel hcount
      · intro h
        cases h with
        | otherWidth c hc =>
            rw [hother] at hc
            cases hc
        | model rows refusal hasked hmodel => exact ⟨rows, hasked, .inl ⟨refusal, hmodel, rfl⟩⟩
        | count rows scores hasked hmodel hcount =>
            exact ⟨rows, hasked, .inr ⟨scores, hmodel, hcount, rfl⟩⟩

/-- Attributions are put together from the scores of the commits and those by dimension. -/
theorem attributions_eq_collect (commits : List Commit) (results : List (Attribution α))
    (h : e.attributions commits = .ok results) :
    ∃ scores byDimension, e.ask (commits.map rowOf) = .ok scores ∧
      byDimension.length = e.schema.dimensions.length ∧
      results = e.collect commits scores byDimension := by
  rcases (bind_eq_ok _ _ _).mp h with ⟨batches, hbatches, hrun⟩
  rcases (bind_eq_ok _ _ _).mp hrun with ⟨answers, hanswers, hresults⟩
  rw [e.batches_eq commits (e.width_of_attributions commits results h), Except.ok.injEq]
    at hbatches
  rw [← hbatches] at hanswers
  -- The first answer is that to the commits as they are.
  cases forall₂_of_mapM e.ask _ answers hanswers with
  | cons hfirst hrest =>
      rename_i scores byDimension
      cases hresults
      refine ⟨scores, byDimension, hfirst, ?_, rfl⟩
      rw [← hrest.length_eq, List.length_map, Schema.masks, List.length_map, List.length_range]

end Engine

/-- Whatever the model does, the results are finite and of the right shape: one for each commit,
    in order, with the model's score of the commit if that is finite and zero if not, with all
    dimensions in declared order, and with nothing shared out if the baseline scores zero or a
    NaN. There are no results only if a commit has another width, the model refuses a call or
    answers one with another number of scores. -/
theorem attributions_reported (e : Engine Float) (commits : List Commit) :
    (∀ results, e.attributions commits = .ok results →
      ∃ scores, e.model.predict (commits.map Engine.rowOf) = .ok scores ∧
        scores.length = commits.length ∧
        List.Forall₂ (fun asked r => e.Reports asked.1 asked.2 r) (commits.zip scores) results) ∧
    ∀ fault, e.attributions commits = .error fault ↔ e.Refuses commits fault := by
  refine ⟨fun results h => ?_, e.attributions_eq_error_iff commits⟩
  rcases e.attributions_eq_collect commits results h with ⟨scores, byDimension, hask, hlength, rfl⟩
  rcases e.ask_eq_ok _ scores hask with ⟨hpredict, hcount⟩
  rw [List.length_map] at hcount
  exact ⟨scores, hpredict, hcount, e.collect_reports commits scores byDimension hlength⟩

end CommitRisk
