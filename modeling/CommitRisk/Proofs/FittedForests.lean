import CommitRisk.Proofs.GrownTrees
import CommitRisk.Proofs.Parts
import CommitRisk.Proofs.Stages

/-!
# Fitted Forests

What fitting a forest comes to, for any samples, labels and parameters. Either there is one
thing that is reported, and `Unfittable` says which, in the order of the checks. Or there is a
forest, and it is well formed.

The rows a tree is grown on are drawn from the training rows, as many as there are of them.
Indices are drawn below that number, so every one of them hits a row, and the tree is
grown on rows that carry labels of the training set. What is known about the tree of a set
of rows then holds for every tree of the forest.

## Main definitions

* `Unfittable`: What is reported where no forest can be fitted.
* `Tree.WellFormed`: The shape of a tree in a forest.
* `Forest.FittedTo`: A forest fits what it was fitted to.
* `Forest.labelled`: The rows a forest is grown on.

## Theorems

* `firstInconsistent?_eq_some_iff`: The row that is reported.
* `fit_of_unfittable`, `unfittable_of_fit`: What is reported.
* `unfittable_or_fits`: There is a report or a forest.
* `fit_eq_ok`: What a forest was grown on.
* `drawnRows`: As many rows are drawn as there are.
* `root_grownOn`: A tree of a forest was grown on training rows.
* `GrownOn.wellFormed`: A tree that was grown is well formed.
* `fit_gives_wellFormed`: Fitting reports exactly what is wrong, or gives a well-formed
  forest.
-/

namespace CommitRisk

variable {samples : List (List Float)} {labels : List Bool} {params : HyperParameters}
  {chance : Chance}

/-! ## Reports -/

/-- What is reported where no forest can be fitted. A later check is only made if all
    before it went well. -/
inductive Unfittable (samples : List (List Float)) (labels : List Bool)
    (params : HyperParameters) : ForestError → Prop where
  | noTrees (htrees : params.estimators = 0) :
      Unfittable samples labels params (.invalidParameter .noTrees)
  | noDepth (htrees : params.estimators ≠ 0) (hdepth : params.maxDepth = some 0) :
      Unfittable samples labels params (.invalidParameter .noDepth)
  | empty (hparams : params.estimators ≠ 0 ∧ params.maxDepth ≠ some 0) (hempty : samples = []) :
      Unfittable samples labels params .emptyInput
  | lengths (hparams : params.estimators ≠ 0 ∧ params.maxDepth ≠ some 0) (hsome : samples ≠ [])
      (hlengths : samples.length ≠ labels.length) :
      Unfittable samples labels params (.lengthMismatch samples.length labels.length)
  | width (hparams : params.estimators ≠ 0 ∧ params.maxDepth ≠ some 0)
      (hlengths : samples.length = labels.length) (first row : List Float)
      (before after : List (List Float)) (hfirst : samples.head? = some first)
      (hsamples : samples = before ++ row :: after)
      (hbefore : ∀ r ∈ before, r.length = first.length) (hrow : row.length ≠ first.length) :
      Unfittable samples labels params
        (.inconsistentWidth before.length first.length row.length)

theorem HyperParameters.fault?_eq_some_iff (params : HyperParameters) (fault : ParameterFault) :
    params.fault? = some fault ↔
      params.estimators = 0 ∧ fault = .noTrees ∨
      params.estimators ≠ 0 ∧ params.maxDepth = some 0 ∧ fault = .noDepth := by
  unfold fault?
  by_cases htrees : params.estimators = 0
  · simp only [htrees, if_true, Option.some.injEq, true_and, ne_eq, not_true_eq_false, false_and,
      or_false, eq_comm]
  · by_cases hdepth : params.maxDepth = some 0
    · simp only [htrees, hdepth, if_false, if_true, Option.some.injEq, false_and, ne_eq,
        not_false_eq_true, true_and, false_or, eq_comm]
    · simp only [htrees, hdepth, if_false, reduceCtorEq, false_and, ne_eq, not_false_eq_true,
        and_false, or_self]

/-- The row that is reported is the first that is not as wide as expected. -/
theorem firstInconsistent?_eq_some_iff (width start : Nat) (rows : List (List Float))
    (e : ForestError) :
    firstInconsistent? width start rows = some e ↔
      ∃ before row after, rows = before ++ row :: after ∧ (∀ r ∈ before, r.length = width) ∧
        row.length ≠ width ∧ e = .inconsistentWidth (start + before.length) width row.length := by
  constructor
  · intro h
    induction rows generalizing start with
    | nil => cases h
    | cons cells rest ih =>
        by_cases hcells : cells.length = width
        · rw [firstInconsistent?, if_pos hcells] at h
          rcases ih (start + 1) h with ⟨before, row, after, rfl, hbefore, hrow, rfl⟩
          refine ⟨cells :: before, row, after, rfl, ?_, hrow, ?_⟩
          · exact List.forall_mem_cons.mpr ⟨hcells, hbefore⟩
          · rw [List.length_cons, Nat.add_right_comm, Nat.add_assoc]
        · rw [firstInconsistent?, if_neg hcells] at h
          cases h
          refine ⟨[], cells, rest, rfl, ?_, hcells, by rw [List.length_nil, Nat.add_zero]⟩
          exact fun r hr => absurd hr List.not_mem_nil
  · rintro ⟨before, row, after, rfl, hbefore, hrow, rfl⟩
    induction before generalizing start with
    | nil => rw [List.nil_append, firstInconsistent?, if_neg hrow, List.length_nil, Nat.add_zero]
    | cons cells before ih =>
        rcases List.forall_mem_cons.mp hbefore with ⟨hcells, hbefore⟩
        rw [List.cons_append, firstInconsistent?, if_pos hcells, ih (start + 1) hbefore,
          List.length_cons, Nat.add_right_comm, Nat.add_assoc]

namespace Forest

/-- The rows a forest is grown on: every sample in single precision with its label. -/
def labelled (samples : List (List Float)) (labels : List Bool) : List LabelledRow :=
  List.zipWith (fun cells buggy => ⟨cells.map narrow, buggy⟩) samples labels

theorem fit_of_fault (fault : ParameterFault) (hfault : params.fault? = some fault) :
    fit samples labels params chance = .error (.invalidParameter fault) := by
  rw [fit.eq_def, hfault]

theorem fit_nil (hfault : params.fault? = none) :
    fit [] labels params chance = .error .emptyInput := by
  rw [fit.eq_def, hfault]

/-- Fitting in the order of its checks, for parameters that are in order and some
    samples. -/
theorem fit_of_samples (hfault : params.fault? = none)
    (first : List Float) (hfirst : samples.head? = some first) :
    fit samples labels params chance =
      if samples.length ≠ labels.length then .error (.lengthMismatch samples.length labels.length)
      else match firstInconsistent? first.length 0 samples with
        | some fault => .error fault
        | none => .ok (ofRows first.length (labelled samples labels) params chance) := by
  rcases List.head?_eq_some_iff.mp hfirst with ⟨rest, rfl⟩
  rw [fit.eq_def, hfault]
  rfl

theorem fit_of_unfittable (e : ForestError) (h : Unfittable samples labels params e) :
    fit samples labels params chance = .error e := by
  cases h with
  | noTrees htrees =>
      exact fit_of_fault _ ((params.fault?_eq_some_iff _).mpr (.inl ⟨htrees, rfl⟩))
  | noDepth htrees hdepth =>
      exact fit_of_fault _ ((params.fault?_eq_some_iff _).mpr (.inr ⟨htrees, hdepth, rfl⟩))
  | empty hparams hempty =>
      rw [hempty, fit_nil (params.fault?_eq_none_iff.mpr hparams)]
  | lengths hparams hsome hlengths =>
      rw [fit_of_samples (params.fault?_eq_none_iff.mpr hparams) _
        (List.head?_eq_some_head hsome), if_pos hlengths]
  | width hparams hlengths first row before after hfirst hsamples hbefore hrow =>
      have hfault := (firstInconsistent?_eq_some_iff first.length 0 samples _).mpr
        ⟨before, row, after, hsamples, hbefore, hrow, rfl⟩
      rw [fit_of_samples (params.fault?_eq_none_iff.mpr hparams) first hfirst,
        if_neg (not_not.mpr hlengths), hfault, Nat.zero_add]

/-- Either something is reported, or a forest is grown on the rows. -/
theorem unfittable_or_fits (samples : List (List Float)) (labels : List Bool)
    (params : HyperParameters) (chance : Chance) :
    (∃ e, Unfittable samples labels params e) ∨
      params.estimators ≠ 0 ∧ samples ≠ [] ∧ samples.length = labels.length ∧
        ∃ width, (∀ row ∈ samples, row.length = width) ∧
          fit samples labels params chance
            = .ok (ofRows width (labelled samples labels) params chance) := by
  cases hfault : params.fault? with
  | some fault =>
      rcases (params.fault?_eq_some_iff fault).mp hfault with
        ⟨htrees, rfl⟩ | ⟨htrees, hdepth, rfl⟩
      · exact .inl ⟨_, .noTrees htrees⟩
      · exact .inl ⟨_, .noDepth htrees hdepth⟩
  | none =>
      have hparams := params.fault?_eq_none_iff.mp hfault
      cases samples with
      | nil => exact .inl ⟨_, .empty hparams rfl⟩
      | cons first rest =>
          by_cases hlengths : (first :: rest).length = labels.length
          · cases hwidth : firstInconsistent? first.length 0 (first :: rest) with
            | some fault =>
                rcases (firstInconsistent?_eq_some_iff _ 0 _ fault).mp hwidth with
                  ⟨before, row, after, hsamples, hbefore, hrow, _⟩
                exact .inl ⟨_, .width hparams hlengths first row before after rfl hsamples hbefore
                  hrow⟩
            | none =>
                refine .inr ⟨hparams.1, List.cons_ne_nil first rest, hlengths, first.length,
                  (firstInconsistent?_eq_none_iff _ 0 _).mp hwidth, ?_⟩
                rw [fit_of_samples hfault first rfl, if_neg (not_not.mpr hlengths), hwidth]
          · exact .inl ⟨_, .lengths hparams (List.cons_ne_nil first rest) hlengths⟩

theorem unfittable_of_fit (e : ForestError) (h : fit samples labels params chance = .error e) :
    Unfittable samples labels params e := by
  rcases unfittable_or_fits samples labels params chance with
    ⟨reported, hreported⟩ | ⟨_, _, _, _, _, hfit⟩
  · rw [fit_of_unfittable reported hreported] at h
    cases h
    exact hreported
  · rw [hfit] at h
    cases h

/-- What a forest was grown on. -/
theorem fit_eq_ok (forest : Forest) (h : fit samples labels params chance = .ok forest) :
    params.estimators ≠ 0 ∧ samples ≠ [] ∧ samples.length = labels.length ∧
      ∃ width, (∀ row ∈ samples, row.length = width) ∧
        forest = ofRows width (labelled samples labels) params chance := by
  rcases unfittable_or_fits samples labels params chance with
    ⟨e, he⟩ | ⟨htrees, hsome, hlengths, width, hwidth, hfit⟩
  · rw [fit_of_unfittable e he] at h
    cases h
  · rw [hfit] at h
    cases h
    exact ⟨htrees, hsome, hlengths, width, hwidth, rfl⟩

/-! ## The drawn rows -/

theorem drawIndices_length (bound n : Nat) (s : Words) : (drawIndices bound n s).length = n := by
  induction n generalizing s with
  | zero => rfl
  | succ n ih => rw [drawIndices, List.length_cons, ih]

/-- Every index that is drawn is below the bound. -/
theorem drawIndices_lt (bound n : Nat) (s : Words) (hbound : 0 < bound) :
    ∀ i ∈ drawIndices bound n s, i < bound := by
  induction n generalizing s with
  | zero => exact fun i hi => absurd hi List.not_mem_nil
  | succ n ih => exact List.forall_mem_cons.mpr ⟨s.index64_lt bound hbound, ih _⟩

/-- The rows of a tree: as many as there are, and all of them training rows. -/
theorem drawnRows (rows : List LabelledRow) (hsome : rows ≠ []) (words : Words) :
    let drawn := (bootstrap rows.length words).filterMap fun i => rows[i]?
    drawn.length = rows.length ∧ drawn ⊆ rows := by
  have hin : ∀ i ∈ bootstrap rows.length words, (rows[i]?).isSome := fun i hi => by
    rw [isSome_getElem?]
    exact drawIndices_lt _ _ _ (List.length_pos_iff.mpr hsome) i hi
  constructor
  · rw [List.filterMap_length_eq_length.mpr hin, bootstrap, drawIndices_length]
  · intro r hr
    rcases List.mem_filterMap.mp hr with ⟨i, _, hi⟩
    exact List.mem_of_getElem? hi

/-! ## The trees -/

/-- Every tree of a forest has a root, which was grown on as many of the training rows as
    there are, and not deeper than allowed. -/
theorem root_grownOn (width : Nat) (rows : List LabelledRow) (hsome : rows ≠ [])
    (params : HyperParameters) (t : DecisionTree)
    (ht : t ∈ (ofRows width rows params chance).ensemble.trees) :
    ∃ tree drawn, t.root = some tree ∧ drawn.length = rows.length ∧ drawn ⊆ rows ∧
      GrownOn width drawn tree ∧ ∀ d, params.maxDepth = some d → tree.depth ≤ d.toNat := by
  rcases List.mem_map.mp ht with ⟨indices, hindices, rfl⟩
  rcases List.mem_map.mp hindices with ⟨position, _, rfl⟩
  rcases drawnRows rows hsome (params.words chance position) with ⟨hlength, hsub⟩
  have hdrawn : (bootstrap rows.length (params.words chance position)).filterMap
      (fun i => rows[i]?) ≠ [] := by
    rw [← List.length_pos_iff, hlength]
    exact List.length_pos_iff.mpr hsome
  refine ⟨_, _, rfl, hlength, hsub, grow_grownOn width _ 0 _ hdrawn, fun d hd => ?_⟩
  rw [hd]
  have hdepth := grow_depth width d.toNat 0
    ((bootstrap rows.length (params.words chance position)).filterMap fun i => rows[i]?)
    (Nat.zero_le _)
  rwa [Nat.zero_add] at hdepth

end Forest

/-- The shape of a tree in a forest for rows of a width, of which there are so many with
    these labels. -/
structure Tree.WellFormed (tree : Tree) (width count : Nat) (labels : List Bool)
    (maxDepth : Option UInt64) : Prop where
  /-- Every split asks for a column there is. -/
  features : ∀ feature threshold left right,
    .split feature threshold left right ∈ tree.subtrees → feature < width
  /-- No subtree is without rows. -/
  nonempty : ∀ sub ∈ tree.subtrees, 1 ≤ sub.samples
  /-- Every leaf has rows, and its class is a label there is. -/
  leaves : ∀ cls rows, .leaf cls rows ∈ tree.subtrees →
    1 ≤ rows ∧ ∃ label ∈ labels, cls = label.toNat
  /-- All leaves together have as many rows as there are. -/
  samples : tree.samples = count
  /-- The tree is not deeper than allowed. -/
  depth : ∀ d, maxDepth = some d → tree.depth ≤ d.toNat

/-- A forest is one for samples with labels. -/
structure Forest.FittedTo (forest : Forest) (samples : List (List Float)) (labels : List Bool)
    (params : HyperParameters) : Prop where
  isFitted : forest.isFitted = true
  made : forest.params = params
  width : ∀ row ∈ samples, row.length = forest.width
  count : forest.ensemble.trees.length = params.estimators.toNat
  trees : ∀ t ∈ forest.ensemble.trees, ∃ tree, t.root = some tree ∧
    tree.WellFormed forest.width samples.length labels params.maxDepth

theorem GrownOn.leaf_class {width cls count : Nat} {rows : List LabelledRow}
    (h : GrownOn width rows (.leaf cls count)) : ∃ r ∈ rows, cls = r.buggy.toNat := by
  generalize htree : Tree.leaf cls count = tree at h
  cases h with
  | leaf _ hsome =>
      cases htree
      exact exists_of_majority rows hsome
  | split => cases htree

/-- A tree that was grown is well formed. -/
theorem GrownOn.wellFormed {width : Nat} {rows : List LabelledRow} {tree : Tree}
    (h : GrownOn width rows tree) (labels : List Bool) (maxDepth : Option UInt64)
    (hlabels : ∀ r ∈ rows, r.buggy ∈ labels)
    (hdepth : ∀ d, maxDepth = some d → tree.depth ≤ d.toNat) :
    tree.WellFormed width rows.length labels maxDepth where
  features := fun feature threshold left right hsub => by
    rcases h.subtree _ hsub with ⟨part, _, hpart⟩
    cases hpart with
    | split _ _ _ _ _ hfeature => exact hfeature
  nonempty := fun sub hsub => by
    rcases h.subtree sub hsub with ⟨part, _, hpart⟩
    rw [hpart.samples_eq]
    exact List.length_pos_iff.mpr hpart.rows_ne_nil
  leaves := fun cls count hsub => by
    rcases h.subtree _ hsub with ⟨part, hrows, hpart⟩
    rcases hpart.leaf_class with ⟨r, hr, hcls⟩
    refine ⟨?_, r.buggy, hlabels r (hrows hr), hcls⟩
    have hcount := hpart.samples_eq
    rw [Tree.samples] at hcount
    rw [hcount]
    exact List.length_pos_iff.mpr hpart.rows_ne_nil
  samples := h.samples_eq
  depth := hdepth

namespace Forest

theorem labelled_length (h : samples.length = labels.length) :
    (labelled samples labels).length = samples.length := by
  rw [labelled, List.length_zipWith, h, min_self]

/-- The rows carry the labels in their order. -/
theorem labelled_labels (h : samples.length = labels.length) :
    (labelled samples labels).map LabelledRow.buggy = labels := by
  rw [labelled, ← List.map_uncurry_zip_eq_zipWith, List.map_map]
  exact List.map_snd_zip h.ge

/-- A forest that was fitted is one for its samples. -/
theorem fittedTo_of_fit (forest : Forest) (h : fit samples labels params chance = .ok forest) :
    forest.FittedTo samples labels params := by
  rcases fit_eq_ok forest h with ⟨htrees, hsome, hlengths, width, hwidth, rfl⟩
  have hrows : labelled samples labels ≠ [] := by
    rw [← List.length_pos_iff, labelled_length hlengths]
    exact List.length_pos_iff.mpr hsome
  have hcount : (ofRows width (labelled samples labels) params chance).ensemble.trees.length
      = params.estimators.toNat := by
    rw [ofRows, List.length_map, List.length_map, List.length_range]
  refine ⟨?_, rfl, hwidth, hcount, fun t ht => ?_⟩
  · have hpos : 0 < params.estimators.toNat := Nat.pos_of_ne_zero fun hzero =>
      htrees (UInt64.toNat_inj.mp hzero)
    rw [isFitted, Bool.and_eq_true, Bool.not_eq_true', List.isEmpty_eq_false_iff,
      ← List.length_pos_iff, hcount]
    exact ⟨rfl, hpos⟩
  · rcases root_grownOn width _ hrows params t ht with
      ⟨tree, drawn, hroot, hlength, hsub, hgrown, hdepth⟩
    have hlabels : ∀ r ∈ drawn, r.buggy ∈ labels := fun r hr => by
      rw [← labelled_labels hlengths]
      exact List.mem_map_of_mem (hsub hr)
    have hwell := hgrown.wellFormed labels params.maxDepth hlabels hdepth
    rw [hlength, labelled_length hlengths] at hwell
    exact ⟨tree, hroot, hwell⟩

end Forest

/-- Fitting fails exactly for the reasons of `Unfittable`, the first of which is reported.
    Without a reason it gives a forest that is ready, as wide as the rows and with as many
    trees as were asked for. All of these are well formed: a split asks for a column there
    is, no subtree is empty, the class of a leaf is a label there is, the leaves have all the
    rows, and the depth is kept to. Fitting a training set is the same. -/
theorem fit_gives_wellFormed (samples : List (List Float)) (labels : List Bool)
    (params : HyperParameters) (chance : Chance) :
    (∀ e, Forest.fit samples labels params chance = .error e ↔ Unfittable samples labels params e) ∧
    ((∀ e, ¬ Unfittable samples labels params e) →
      ∃ forest, Forest.fit samples labels params chance = .ok forest) ∧
    (∀ forest, Forest.fit samples labels params chance = .ok forest →
      forest.FittedTo samples labels params) ∧
    (TrainingSet.mk samples labels).fit params chance
      = Forest.fit samples labels params chance := by
  refine ⟨fun e => ⟨Forest.unfittable_of_fit e, Forest.fit_of_unfittable e⟩, fun h => ?_,
    Forest.fittedTo_of_fit, TrainingSet.fit_eq _ params chance⟩
  rcases Forest.unfittable_or_fits samples labels params chance with ⟨e, he⟩ | ⟨_, _, _, _, _, hfit⟩
  · exact absurd he (h e)
  · exact ⟨_, hfit⟩

end CommitRisk
