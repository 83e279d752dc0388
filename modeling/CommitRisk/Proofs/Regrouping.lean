import CommitRisk.Proofs.Batches
import CommitRisk.Proofs.Shares

/-!
# Dimensions in Another Order

The dimensions of a schema are listed in some order, and the features of a dimension in
some order. Neither matters to what a dimension contributes. Attribution goes by position
all the way, from the masks over the batches to the lifts that are zipped back to the
names, so this is not said by any one of its steps.

What holds it together is that every position is that of a dimension. `Engine.answers`
pairs each name with what the model makes of the dimension's batch, and a batch depends on
which columns belong to the dimension and on nothing else. Another order of the dimensions
is another order of these pairs, and a model that is asked for the same batches in another
order gives the same scores.

The lifts of one commit are then the same in another order. Least value and total of a list
of exact numbers do not depend on the order, and they are all that one lift is told about
the others. So every lift becomes the same contribution as before. Doubles do not add up
to the same total in every order, which is why this is about exact arithmetic.

## Main definitions

* `Dimension.Same`: Two dimensions are the same group of features.
* `Regrouped`: Two lists have the same dimensions.
* `Schema.columnsOf`: Which columns belong to a dimension.
* `Engine.answers`: What the model makes of each dimension.
* `SameParts`: Two results differ in the order of their contributions only.
* `Engine.SameButOrder`: Two engines differ in the order of their dimensions only.

## Theorems

* `Regrouped.map_perm`: What depends on the group alone is the same in another order.
* `mask_eq`, `masks_eq`: The masks are those of the dimensions.
* `attributions_eq_ok_iff`: The results in terms of the answers.
* `answers_regrouped`: Other orders have the same answers.
* `liftShift_of_perm`, `sumOfNumbers_of_perm`: What a lift is told about the others.
* `redistribute_of_perm`: What becomes of one lift does not depend on the order.
* `lookup_of_perm`: Looking a name up does not depend on the order.
* `contributions_of_perm`: What becomes of the score of a dimension.
* `attributeOne_regrouped`: One commit under two orders.
* `attributions_of_sameButOrder`: A batch of commits with two engines.
* `attributions_regrouped`: A batch of commits under two orders.
-/

namespace CommitRisk

/-! ## Groups -/

/-- Two dimensions have one name and the same features. -/
structure Dimension.Same (d d' : Dimension) : Prop where
  name : d.name = d'.name
  features : d.features.Perm d'.features

/-- Two lists have the same dimensions, in whatever order. -/
def Regrouped (dims dims' : List Dimension) : Prop :=
  ∃ between, dims.Perm between ∧ List.Forall₂ Dimension.Same between dims'

theorem Regrouped.symm {dims dims' : List Dimension} (h : Regrouped dims dims') :
    Regrouped dims' dims := by
  rcases h with ⟨between, hperm, hsame⟩
  have hback : List.Forall₂ Dimension.Same dims' between :=
    (hsame.imp fun _ _ hd => (⟨hd.name.symm, hd.features.symm⟩ : flip Dimension.Same _ _)).flip
  -- On the way back the dimensions are respelled first and put in order then.
  have hpath : Relation.Comp (List.Forall₂ Dimension.Same) List.Perm dims' dims :=
    ⟨between, hback, hperm.symm⟩
  rw [List.forall₂_comp_perm_eq_perm_comp_forall₂] at hpath
  exact hpath

theorem Regrouped.map_perm {β : Type} {dims dims' : List Dimension} (h : Regrouped dims dims')
    (f : Dimension → β) (hf : ∀ d d', d.Same d' → f d = f d') :
    (dims.map f).Perm (dims'.map f) := by
  rcases h with ⟨between, hperm, hsame⟩
  have hmap : between.map f = dims'.map f := by
    clear hperm
    induction hsame with
    | nil => rfl
    | cons hd _ ih => rw [List.map_cons, List.map_cons, hf _ _ hd, ih]
  rw [← hmap]
  exact hperm.map f

namespace Schema

/-- Which columns belong to a dimension. -/
def columnsOf (s : Schema) (d : Dimension) : List Bool :=
  s.features.map fun f => d.features.contains f

theorem columnsOf_same (s s' : Schema) (d d' : Dimension) (hfeatures : s.features = s'.features)
    (h : d.Same d') : s.columnsOf d = s'.columnsOf d' := by
  rw [columnsOf, columnsOf, hfeatures]
  refine List.map_congr_left fun f _ => ?_
  rw [Bool.eq_iff_iff, List.contains_iff_mem, List.contains_iff_mem]
  exact h.features.mem_iff

/-- The mask at a position is that of the dimension there. -/
theorem mask_eq (s : Schema) (d : Nat) (g : Dimension) (hg : s.dimensions[d]? = some g) :
    s.mask d = s.columnsOf g := by
  refine List.ext_getElem (by rw [s.mask_length, columnsOf, List.length_map]) fun i hi hi' => ?_
  rw [columnsOf, List.length_map] at hi'
  have hcell : (s.mask d)[i] = true ↔ (s.mask d)[i]? = some true := by
    rw [List.getElem?_eq_getElem hi, Option.some.injEq]
  rw [Bool.eq_iff_iff, hcell, s.mask_eq_true_iff d i]
  simp only [hg, List.getElem?_eq_getElem hi', Option.some.injEq, exists_eq_left', exists_and_left,
    columnsOf, List.getElem_map, List.contains_iff_mem]

theorem masks_eq (s : Schema) : s.masks = s.dimensions.map s.columnsOf := by
  refine List.ext_getElem ?_ fun i hi hi' => ?_
  · rw [masks, List.length_map, List.length_range, List.length_map]
  · rw [List.length_map] at hi'
    rw [List.getElem_map, ← s.mask_eq i _ (List.getElem?_eq_getElem hi')]
    simp only [masks, List.getElem_map, List.getElem_range]

end Schema

/-! ## Answers -/

namespace Engine

variable {α : Type}

/-- What the model makes of the batch of each dimension, by the dimension's name. -/
def answers (e : Engine α) (commits : List Commit) :
    List (String × Except AttributionError (List α)) :=
  e.schema.dimensions.map fun d =>
    (d.name, e.ask (commits.map (e.heldRow (e.schema.columnsOf d))))

/-- The scores of a batch that was not refused. -/
def scoresOf (answer : Except AttributionError (List α)) : List α :=
  answer.toOption.getD []

theorem eq_ok_scoresOf (answer : Except AttributionError (List α)) (h : ∃ ys, answer = .ok ys) :
    answer = .ok (scoresOf answer) := by
  rcases h with ⟨ys, rfl⟩
  rfl

theorem answers_names (e : Engine α) (commits : List Commit) :
    (e.answers commits).map Prod.fst = e.schema.dimensionNames := by
  rw [answers, List.map_map]
  rfl

/-- Engines that differ in the order of their dimensions have the same answers. -/
theorem answers_regrouped (e e' : Engine α) (commits : List Commit) (hmodel : e.model = e'.model)
    (hbaseline : e.baseline = e'.baseline) (hfeatures : e.schema.features = e'.schema.features)
    (hgroups : Regrouped e.schema.dimensions e'.schema.dimensions) :
    (e.answers commits).Perm (e'.answers commits) := by
  have hask : ∀ d d' : Dimension, d.Same d' →
      e.ask (commits.map (e.heldRow (e.schema.columnsOf d)))
        = e'.ask (commits.map (e'.heldRow (e'.schema.columnsOf d'))) := by
    intro d d' hsame
    have hheld : e.heldRow (e.schema.columnsOf d) = e'.heldRow (e'.schema.columnsOf d') := by
      funext c
      rw [heldRow, heldRow, hbaseline, Schema.columnsOf_same _ _ d d' hfeatures hsame]
    rw [hheld, ask, ask, hmodel]
  -- Within one engine the two spellings of a dimension are not told apart either.
  have hother : e'.answers commits = e'.schema.dimensions.map fun d =>
      (d.name, e.ask (commits.map (e.heldRow (e.schema.columnsOf d)))) := by
    refine List.map_congr_left fun d _ => ?_
    rw [hask d d ⟨rfl, List.Perm.refl _⟩]
  rw [hother]
  refine hgroups.map_perm _ fun d d' hsame => ?_
  rw [hsame.name, hask d d' hsame, hask d' d' ⟨rfl, List.Perm.refl _⟩]

variable [Scalar α]

/-- Commits of the right width have results exactly if no batch is refused, and then they
    are put together from the answers. -/
theorem attributions_eq_ok_iff (e : Engine α) (commits : List Commit)
    (results : List (Attribution α)) (h : ∀ c ∈ commits, c.metrics.length = e.schema.width) :
    e.attributions commits = .ok results ↔
      ∃ scores, e.ask (commits.map rowOf) = .ok scores ∧
        (∀ answer ∈ e.answers commits, ∃ ys, answer.2 = .ok ys) ∧
        results = e.collect commits scores ((e.answers commits).map fun a => scoresOf a.2) := by
  have hmasks : (e.schema.masks.map fun mask => commits.map (e.heldRow mask))
      = e.schema.dimensions.map fun d => commits.map (e.heldRow (e.schema.columnsOf d)) := by
    rw [e.schema.masks_eq, List.map_map]
    rfl
  -- All batches are answered exactly if each of them is.
  have hothers : ∀ others, (e.schema.dimensions.map fun d =>
      commits.map (e.heldRow (e.schema.columnsOf d))).mapM e.ask = .ok others ↔
        (∀ answer ∈ e.answers commits, ∃ ys, answer.2 = .ok ys) ∧
          others = (e.answers commits).map fun a => scoresOf a.2 := by
    intro others
    have hall : (∀ answer ∈ e.answers commits, ∃ ys, answer.2 = .ok ys) ↔
        ∀ rows ∈ e.schema.dimensions.map fun d =>
          commits.map (e.heldRow (e.schema.columnsOf d)), ∃ ys, e.ask rows = .ok ys := by
      rw [answers, List.forall_mem_map, List.forall_mem_map]
    have hvalues : (∀ answer ∈ e.answers commits, ∃ ys, answer.2 = .ok ys) →
        (e.schema.dimensions.map fun d =>
          commits.map (e.heldRow (e.schema.columnsOf d))).mapM e.ask
          = .ok ((e.answers commits).map fun a => scoresOf a.2) := by
      intro hanswers
      rw [mapM_eq_ok e.ask (fun rows => scoresOf (e.ask rows)) _ fun rows hrows =>
        eq_ok_scoresOf _ (hall.mp hanswers rows hrows), answers, List.map_map, List.map_map]
      rfl
    constructor
    · intro hok
      have hanswers := hall.mpr ((mapM_isOk_iff e.ask _).mp ⟨others, hok⟩)
      rw [hvalues hanswers, Except.ok.injEq] at hok
      exact ⟨hanswers, hok.symm⟩
    · rintro ⟨hanswers, rfl⟩
      exact hvalues hanswers
  unfold attributions
  rw [batches_eq e commits h, hmasks]
  simp only [bind, Except.bind, pure, Except.pure, List.mapM_cons]
  cases hfirst : e.ask (commits.map rowOf) with
  | error fault => simp only [reduceCtorEq, false_and, exists_false]
  | ok scores =>
      simp only [Except.ok.injEq, exists_eq_left']
      generalize (e.schema.dimensions.map fun d =>
        commits.map (e.heldRow (e.schema.columnsOf d))).mapM e.ask = others at hothers ⊢
      cases others with
      | error fault =>
          simp only [reduceCtorEq, false_iff, not_and] at hothers ⊢
          exact fun hanswers => absurd rfl (hothers _ hanswers)
      | ok others =>
          rcases (hothers others).mp rfl with ⟨hanswers, rfl⟩
          simp only [List.headD_cons, List.tail_cons, Except.ok.injEq, and_iff_right hanswers]
          exact eq_comm

end Engine

/-! ## Lifts -/

theorem min?_of_perm {qs qs' : List Rat} (h : qs.Perm qs') : qs.min? = qs'.min? := by
  refine Option.ext fun m => ?_
  simp only [List.min?_eq_some_iff, h.mem_iff]

theorem liftShift_of_perm {lifts lifts' : List Exact} (h : lifts.Perm lifts') :
    liftShift lifts = liftShift lifts' := by
  have hdefined : (definedPart lifts).Perm (definedPart lifts') := h.filterMap _
  rw [liftShift, liftShift, smallest?_exact, smallest?_exact, min?_of_perm hdefined]

theorem sumOfNumbers_of_perm {values values' : List Exact} (h : values.Perm values') :
    sumOfNumbers values = sumOfNumbers values' := by
  have hdefined : (definedPart values).Perm (definedPart values') := h.filterMap _
  rw [sumOfNumbers_exact, sumOfNumbers_exact, hdefined.sum_eq]

/-- What becomes of one lift depends on which lifts there are beside it, and not on their
    order. -/
theorem redistribute_of_perm (lifts : List Exact) (score : Exact) :
    ∃ part : Exact → Exact, ∀ lifts', lifts.Perm lifts' →
      redistribute lifts' score = lifts'.map part := by
  refine ⟨fun v =>
    if Scalar.isZero (sumOfNumbers (lifts.map fun v => v + liftShift lifts)) then Scalar.ofNat 0
    else finiteOrZero ((v + liftShift lifts)
      / sumOfNumbers (lifts.map fun v => v + liftShift lifts) * score), fun lifts' h => ?_⟩
  have htotal : sumOfNumbers (lifts'.map fun v => v + liftShift lifts)
      = sumOfNumbers (lifts.map fun v => v + liftShift lifts) :=
    (sumOfNumbers_of_perm (h.map _)).symm
  simp only [redistribute, ← liftShift_of_perm h, htotal]
  split
  · rfl
  · rw [List.map_map]
    rfl

/-! ## Results -/

theorem lookup_of_perm {β : Type} {entries entries' : List (String × β)}
    (h : entries.Perm entries') (hnodup : (entries.map Prod.fst).Nodup) (name : String) :
    entries.lookup name = entries'.lookup name := by
  have hnodup' : (entries'.map Prod.fst).Nodup := (h.map Prod.fst).nodup_iff.mp hnodup
  refine Option.ext fun x => ?_
  rw [lookup_eq_some_iff_mem hnodup, lookup_eq_some_iff_mem hnodup', h.mem_iff]

/-- Two results are of one commit and differ in the order of the contributions only, which
    is that of the given names. -/
structure SameParts (names names' : List String) (a a' : Attribution Exact) : Prop where
  commit : a.commit = a'.commit
  score : a.score = a'.score
  parts : ∀ dimension, a.contribution? dimension = a'.contribution? dimension
  perm : a.contributions.Perm a'.contributions
  declared : a.contributions.map Prod.fst = names
  declared' : a'.contributions.map Prod.fst = names'

namespace Engine

/-- Two engines over the same features that have the same dimensions in whatever order, the
    same model and the same baseline with its score. -/
structure SameButOrder (e e' : Engine Exact) : Prop where
  model : e.model = e'.model
  baseline : e.baseline = e'.baseline
  mediansScore : e.mediansScore = e'.mediansScore
  features : e.schema.features = e'.schema.features
  groups : Regrouped e.schema.dimensions e'.schema.dimensions

variable {e e' : Engine Exact}

theorem SameButOrder.symm (h : e.SameButOrder e') : e'.SameButOrder e :=
  ⟨h.model.symm, h.baseline.symm, h.mediansScore.symm, h.features.symm, h.groups.symm⟩

/-- One function takes the score of every dimension to its contribution, in whatever order
    the scores come. -/
theorem contributions_of_perm (e : Engine Exact) (scores : List Exact) (score : Exact) :
    ∃ part : Exact → Exact, ∀ (e' : Engine Exact) (commit : String) (scores' : List Exact),
      e.mediansScore = e'.mediansScore → scores.Perm scores' →
        (e'.attributeOne commit score scores').contributions
          = e'.schema.dimensionNames.zip (scores'.map part) := by
  by_cases hzero : Scalar.isZero e.mediansScore = true
  · refine ⟨fun _ => Scalar.ofNat 0, fun e' commit scores' hmedians _ => ?_⟩
    simp only [attributeOne, ← hmedians, hzero, if_true]
  · rcases redistribute_of_perm (scores.map e.lift) (finiteOrZero score) with ⟨share, hshare⟩
    refine ⟨share ∘ e.lift, fun e' commit scores' hmedians hperm => ?_⟩
    have hlift : e'.lift = e.lift := by
      funext x
      rw [lift, lift, hmedians]
    simp only [attributeOne, ← hmedians, hzero, Bool.false_eq_true, if_false, hlift]
    rw [hshare _ (hperm.map e.lift), List.map_map]

/-- One commit, from answers that are the same in another order. A contribution is made of
    one answer, so names and contributions stay together. -/
theorem attributeOne_regrouped {β : Type} (h : e.SameButOrder e')
    (answers answers' : List (String × β)) (hperm : answers.Perm answers')
    (hnames : answers.map Prod.fst = e.schema.dimensionNames)
    (hnames' : answers'.map Prod.fst = e'.schema.dimensionNames) (value : β → Exact)
    (commit : String) (score : Exact) :
    SameParts e.schema.dimensionNames e'.schema.dimensionNames
      (e.attributeOne commit score (answers.map fun a => value a.2))
      (e'.attributeOne commit score (answers'.map fun a => value a.2)) := by
  rcases contributions_of_perm e (answers.map fun a => value a.2) score with ⟨part, hpart⟩
  have hzip : ∀ pairs : List (String × β),
      (pairs.map Prod.fst).zip ((pairs.map fun a => value a.2).map part)
        = pairs.map fun a => (a.1, part (value a.2)) := by
    intro pairs
    rw [List.map_map]
    exact List.zip_map'
  have hcontributions := hperm.map fun a => (a.1, part (value a.2))
  rw [← hzip, ← hzip, hnames, hnames', ← hpart e commit _ rfl (List.Perm.refl _),
    ← hpart e' commit _ h.mediansScore (hperm.map _)] at hcontributions
  have hlength : ∀ (engine : Engine Exact) (pairs : List (String × β)),
      pairs.map Prod.fst = engine.schema.dimensionNames →
      (pairs.map fun a => value a.2).length = engine.schema.dimensions.length := by
    intro engine pairs hpairs
    have hcount := congrArg List.length hpairs
    rw [Schema.dimensionNames, List.length_map, List.length_map] at hcount
    rw [List.length_map, hcount]
  have hdeclared := e.attributeOne_dimensions commit score _ (hlength e answers hnames)
  refine ⟨rfl, rfl, fun dimension => ?_, hcontributions, hdeclared,
    e'.attributeOne_dimensions commit score _ (hlength e' answers' hnames')⟩
  refine lookup_of_perm hcontributions ?_ dimension
  rw [hdeclared]
  exact e.schema.partition.names_nodup

/-- A batch of commits has results under one order exactly if it has results under the
    other, and they differ in the order of the contributions only. -/
theorem attributions_of_sameButOrder (h : e.SameButOrder e') (commits : List Commit)
    (results : List (Attribution Exact)) (hresults : e.attributions commits = .ok results) :
    ∃ results', e'.attributions commits = .ok results' ∧
      List.Forall₂ (SameParts e.schema.dimensionNames e'.schema.dimensionNames) results results' ∧
      results.map Attribution.commit = commits.map Commit.id := by
  have hwidths : e.schema.width = e'.schema.width := congrArg List.length h.features
  have hwidth := e.width_of_attributions commits results hresults
  rcases (e.attributions_eq_ok_iff commits results hwidth).mp hresults with
    ⟨scores, hscores, hanswers, rfl⟩
  have hperm := answers_regrouped e e' commits h.model h.baseline h.features h.groups
  have hscores' : e'.ask (commits.map rowOf) = .ok scores := by
    rw [← hscores, ask, ask, h.model]
  refine ⟨_, (e'.attributions_eq_ok_iff commits _ (hwidths ▸ hwidth)).mpr ⟨scores, hscores',
    fun answer hanswer => hanswers answer (hperm.mem_iff.mpr hanswer), rfl⟩, ?_, ?_⟩
  · -- Both go through the same commits with the same scores, one after the other.
    unfold collect
    rw [List.forall₂_map_left_iff, List.forall₂_map_right_iff, List.forall₂_same]
    rintro ⟨⟨c, score⟩, i⟩ _
    simp only [List.map_map]
    exact attributeOne_regrouped h (e.answers commits) (e'.answers commits) hperm
      (e.answers_names commits) (e'.answers_names commits)
      (fun answer => (scoresOf answer).getD i Scalar.nan) c.id score
  · have hlength := (e.ask_eq_ok _ scores hscores).2
    rw [List.length_map] at hlength
    refine List.ext_getElem ?_ fun i hi hi' => ?_
    · simp only [collect, List.length_map, List.length_zipIdx, List.length_zip, hlength,
        Nat.min_self]
    · simp only [collect, attributeOne, List.map_map, List.getElem_map, List.getElem_zipIdx,
        List.getElem_zip, Function.comp_apply]

end Engine

/-- The order of the dimensions does not matter. Take a schema and another one over the same
    features that has the same dimensions in another order, with the features of a dimension
    in another order as well, and an engine over the first one with any model. Then there is
    such an engine over the second one, and it has results for a batch exactly if the first
    one has. The results are those of the commits in order, and for every commit both have
    the same id, the same score and for every dimension the same contribution, and each
    lists its contributions in the order of its own schema. A model that scores row by row
    gives results for every batch of commits of the right width. -/
theorem attributions_regrouped (features : List String) (dims dims' : List Dimension)
    (s s' : Schema) (hs : Schema.ofParts features dims = .ok s)
    (hs' : Schema.ofParts features dims' = .ok s') (hgroups : Regrouped dims dims')
    (model : RiskModel Exact) (baseline : NamedValues) (mediansScore : Exact) (e : Engine Exact)
    (he : Engine.ofBaseline model s baseline mediansScore = .ok e) :
    ∃ e', Engine.ofBaseline model s' baseline mediansScore = .ok e' ∧ ∀ commits : List Commit,
      ((∃ results, e.attributions commits = .ok results) ↔
        ∃ results, e'.attributions commits = .ok results) ∧
      (∀ results results', e.attributions commits = .ok results →
        e'.attributions commits = .ok results' →
          results.map Attribution.commit = commits.map Commit.id ∧
          List.Forall₂ (SameParts (dims.map Dimension.name) (dims'.map Dimension.name))
            results results') ∧
      ∀ score, model.ScoresRows features.length score →
        (∀ c ∈ commits, c.metrics.length = features.length) →
          ∃ results, e.attributions commits = .ok results := by
  rcases Schema.ofParts_eq_ok_iff.mp hs with ⟨rfl, rfl⟩
  rcases Schema.ofParts_eq_ok_iff.mp hs' with ⟨hfeatures, rfl⟩
  rcases Engine.ofBaseline_eq_ok model s baseline mediansScore e he with ⟨rfl, rfl, rfl, rfl⟩
  -- The baseline is as wide as either schema.
  have hwidth : e.baseline.entries.length = s'.width := by
    rw [e.baseline_width, Schema.width, Schema.width, hfeatures]
  have hsame : e.SameButOrder ⟨e.model, s', e.baseline, e.mediansScore, hwidth⟩ :=
    ⟨rfl, rfl, rfl, hfeatures.symm, hgroups⟩
  refine ⟨_, dif_pos hwidth, fun commits => ⟨⟨?_, ?_⟩, ?_, ?_⟩⟩
  · rintro ⟨results, hresults⟩
    rcases Engine.attributions_of_sameButOrder hsame commits results hresults with
      ⟨results', hresults', _⟩
    exact ⟨results', hresults'⟩
  · rintro ⟨results, hresults⟩
    rcases Engine.attributions_of_sameButOrder hsame.symm commits results hresults with
      ⟨results', hresults', _⟩
    exact ⟨results', hresults'⟩
  · intro results results' hresults hresults'
    rcases Engine.attributions_of_sameButOrder hsame commits results hresults with
      ⟨found, hfound, hparts, hcommits⟩
    rw [hresults', Except.ok.injEq] at hfound
    rw [hfound]
    exact ⟨hcommits, hparts⟩
  · intro score hmodel hcommits
    exact ⟨_, e.attributions_eq_map score hmodel commits hcommits⟩

/-- The size of a change in two features, and the experience of its author. -/
def pairedSchema : Schema where
  features := ["la", "exp", "lt"]
  dimensions := [⟨"size", ["la", "lt"]⟩, ⟨"experience", ["exp"]⟩]
  tables := ⟨[("la", 0), ("exp", 1), ("lt", 2)], [0, 1, 0]⟩
  made := rfl

/-- The same the other way round. -/
def turnedSchema : Schema where
  features := ["la", "exp", "lt"]
  dimensions := [⟨"experience", ["exp"]⟩, ⟨"size", ["lt", "la"]⟩]
  tables := ⟨[("la", 0), ("exp", 1), ("lt", 2)], [1, 0, 1]⟩
  made := rfl

/-- Small changes are risky, and little experience adds to that. -/
def roundScore (row : List Float) : Exact :=
  .value ((if row.getD 0 0.0 < 2.0 then 1 / 2 else 1 / 4)
    + if row.getD 1 0.0 < 4.0 then 1 / 8 else 0)

def roundEngine : Engine Exact where
  model := .ofRows 3 roundScore
  schema := pairedSchema
  baseline := ⟨[("la", 2.0), ("exp", 4.0), ("lt", 0.0)]⟩
  mediansScore := .value (1 / 4)
  baseline_width := rfl

/-- A commit with all metrics and one that lacks the first. -/
def tripleCommits : List Commit :=
  [⟨"a", 0, [some 1.0, some 3.0, some 7.0], some false⟩, ⟨"b", 1, [none, some 3.0, some 1.0], none⟩]

theorem attributions_regrouped_round :
    Regrouped pairedSchema.dimensions turnedSchema.dimensions ∧
    ∃ e', Engine.ofBaseline roundEngine.model turnedSchema roundEngine.baseline (.value (1 / 4))
        = .ok e' ∧
      ∃ results results', roundEngine.attributions tripleCommits = .ok results ∧
        e'.attributions tripleCommits = .ok results' ∧
        results.map Attribution.commit = ["a", "b"] ∧
        List.Forall₂ (SameParts ["size", "experience"] ["experience", "size"])
          results results' := by
  have hgroups : Regrouped pairedSchema.dimensions turnedSchema.dimensions :=
    ⟨[⟨"experience", ["exp"]⟩, ⟨"size", ["la", "lt"]⟩], List.Perm.swap _ _ _,
      .cons ⟨rfl, List.Perm.refl _⟩ (.cons ⟨rfl, List.Perm.swap _ _ _⟩ .nil)⟩
  rcases attributions_regrouped ["la", "exp", "lt"] _ _ pairedSchema turnedSchema rfl rfl hgroups
    roundEngine.model roundEngine.baseline (.value (1 / 4)) roundEngine rfl with ⟨e', he', hbatch⟩
  rcases hbatch tripleCommits with ⟨hboth, hparts, hrows⟩
  have hwidth : ∀ c ∈ tripleCommits, c.metrics.length = 3 := by
    intro c hc
    rcases List.mem_cons.mp hc with rfl | hc
    · rfl
    · rw [List.mem_singleton.mp hc]
      rfl
  rcases hrows roundScore (fun _ _ => rfl) hwidth with ⟨results, hresults⟩
  rcases hboth.mp ⟨results, hresults⟩ with ⟨results', hresults'⟩
  exact ⟨hgroups, e', he', results, results', hresults, hresults',
    hparts results results' hresults hresults'⟩

end CommitRisk
