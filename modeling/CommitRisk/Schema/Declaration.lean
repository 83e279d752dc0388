import CommitRisk.Steps

/-!
# Declarations of Features

What a schema is declared as: a list of features, and named groups of them. The groups have
to cut the feature list into parts: every feature in exactly one dimension and no dimension
empty. `IsPartition` says so without reference to how it is checked.

A declaration is read once, and two tables come of it. One has the column of every feature.
The other has, for every column, the dimension that owns it; it begins without owners, and a
dimension that lists a feature becomes the owner of its column. A feature that has a column
already, a name that has come by, a list that is empty, a feature without a column or with an
owner, and at last a column without one end the reading, and the first of these is reported.

The owners that have been found are at any time those of a search among the dimensions that
have been read, `ownerAmong`. Reading a feature changes the answer of the search for this
feature only, and reading a dimension adds it to those that are searched.

## Main definitions

* `Dimension`: A named group of features.
* `IsPartition`: The dimensions cut the feature list into nonempty parts.
* `SchemaError`: What can be wrong with a declaration.
* `FeatureTables`: The columns of the features and the owners of the columns.
* `columnTable`, `ownerTable`, `settle`: The two tables and their last check.
* `tablesOf`: The tables of a declaration, or its first fault.
* `ownerAmong`: The dimension that lists a feature, of those at some places.

## Theorems

* `columnTable_eq_ok_iff`: When every feature gets a column.
* `own_eq_ok_iff`, `foldlM_own_eq_ok_iff`: A feature that is listed, and a list of them.
* `addDimension_eq_ok_iff`, `ownerTable_eq_ok_iff`: A dimension, and all of them.
* `settle_eq_ok_iff`: The last check, that every column has an owner.
* `isPartition_iff`: What has been checked then is that the declaration is a partition.
* `tablesOf_eq_ok_iff`: A declaration has tables precisely if it is a partition, and they
  answer as a search through the lists does.
-/

namespace CommitRisk

/-- A named group of features. -/
structure Dimension where
  name : String
  features : List String
deriving DecidableEq, Repr

/-- The dimensions cut the feature list into named, nonempty parts. -/
structure IsPartition (features : List String) (dimensions : List Dimension) : Prop where
  features_nodup : features.Nodup
  names_nodup : (dimensions.map Dimension.name).Nodup
  nonempty : ∀ d ∈ dimensions, d.features ≠ []
  perm : (dimensions.flatMap Dimension.features).Perm features

/-- What can be wrong with a declaration of features and dimensions. -/
inductive SchemaError where
  | duplicateFeature (feature : String)
  | duplicateDimension (dimension : String)
  | emptyDimension (dimension : String)
  | unknownFeature (dimension feature : String)
  | featureInMultipleDimensions (feature first second : String)
  | unassignedFeature (feature : String)
deriving DecidableEq, Repr

/-- The message of a schema error. -/
def SchemaError.message : SchemaError → String
  | .duplicateFeature f => s!"Feature '{f}' is declared more than once"
  | .duplicateDimension d => s!"Dimension '{d}' is declared more than once"
  | .emptyDimension d => s!"Dimension '{d}' has no features"
  | .unknownFeature d f => s!"Dimension '{d}' references undeclared feature '{f}'"
  | .featureInMultipleDimensions f first second =>
      s!"Feature '{f}' belongs to both '{first}' and '{second}'"
  | .unassignedFeature f => s!"Feature '{f}' does not belong to any dimension"

/-! ## The columns -/

/-- Notes the column of a feature, which may not have one already. -/
def addColumn (columns : List (String × Nat)) (entry : String × Nat) :
    Except SchemaError (List (String × Nat)) :=
  match columns.lookup entry.1 with
  | some _ => .error (.duplicateFeature entry.1)
  | none => .ok (columns ++ [entry])

/-- The column of every feature. -/
def columnTable (features : List String) : Except SchemaError (List (String × Nat)) :=
  features.zipIdx.foldlM addColumn []

theorem lookup_eq_none_iff_notMem {α : Type} {entries : List (String × α)} {key : String} :
    entries.lookup key = none ↔ ∀ entry ∈ entries, entry.1 ≠ key := by
  simp only [List.lookup_eq_none_iff, bne_iff_ne, ne_comm]

/-- Among distinct keys a search finds what stands at its own key. -/
theorem lookup_eq_some_iff_mem {α : Type} {entries : List (String × α)}
    (hnodup : (entries.map Prod.fst).Nodup) {key : String} {value : α} :
    entries.lookup key = some value ↔ (key, value) ∈ entries := by
  induction entries with
  | nil => simp only [List.lookup_nil, reduceCtorEq, List.not_mem_nil]
  | cons entry rest ih =>
      rcases entry with ⟨first, x⟩
      rw [List.map_cons, List.nodup_cons] at hnodup
      rw [List.lookup_cons, List.mem_cons, Prod.mk.injEq]
      by_cases hkey : key = first
      · -- The key does not come again, so the entry is the only one that can be meant.
        subst hkey
        have hrest : (key, value) ∉ rest := fun h =>
          hnodup.1 (List.mem_map.mpr ⟨(key, value), h, rfl⟩)
        simp only [beq_self_eq_true, Option.some.injEq, hrest, or_false, true_and, eq_comm]
      · simp only [beq_eq_false_iff_ne.mpr hkey, ih hnodup.2, hkey, false_and, false_or]

/-- Every feature gets a column if none comes twice, and it is the place of the feature. -/
theorem columnTable_eq_ok_iff {features : List String} {columns : List (String × Nat)} :
    columnTable features = .ok columns ↔ features.Nodup ∧ columns = features.zipIdx := by
  have hstep : ∀ (done : List (String × Nat)) entry next, addColumn done entry = .ok next ↔
      (True ∧ ∀ before ∈ done, before.1 ≠ entry.1) ∧ next = done ++ [entry] := by
    intro done entry next
    rw [true_and, ← lookup_eq_none_iff_notMem, addColumn]
    cases done.lookup entry.1 with
    | some column => simp only [reduceCtorEq, false_and]
    | none => simp only [Except.ok.injEq, true_and, eq_comm]
  have hnodup : features.zipIdx.Pairwise (fun a b => a.1 ≠ b.1) ↔ features.Nodup := by
    rw [← List.pairwise_map, List.zipIdx_map_fst]
    rfl
  have hread := foldlM_eq_ok_iff hstep [] features.zipIdx columns
  rw [List.nil_append, hnodup] at hread
  simp only [implies_true, List.not_mem_nil, false_imp_iff, true_and] at hread
  exact hread

/-! ## The owners -/

/-- The owners found so far, one for every column that has one. -/
abbrev Owners (dims : List Dimension) :=
  List (Option (Fin dims.length))

section Owners

variable {features : List String} {dims : List Dimension}

/-- Makes a dimension the owner of a feature that it lists. The feature has to be declared and
    may not have an owner, be it the same dimension. -/
def own (columns : List (String × Nat)) (d : Fin dims.length) (owners : Owners dims)
    (feature : String) : Except SchemaError (Owners dims) :=
  match columns.lookup feature with
  | none => .error (.unknownFeature dims[d].name feature)
  | some column =>
      match owners[column]?.join with
      | some first =>
          .error (.featureInMultipleDimensions feature dims[first].name dims[d].name)
      | none => .ok (owners.set column (some d))

/-- What is known after some dimensions: their names and the owners of the columns. -/
structure Progress (dims : List Dimension) where
  names : List String
  owners : Owners dims

/-- Reads the dimension at a place. Its name may not have come by, and it has to list
    something. -/
def addDimension (columns : List (String × Nat)) (p : Progress dims) (d : Fin dims.length) :
    Except SchemaError (Progress dims) :=
  if dims[d].name ∈ p.names then .error (.duplicateDimension dims[d].name)
  else if dims[d].features = [] then .error (.emptyDimension dims[d].name)
  else
    match dims[d].features.foldlM (own columns d) p.owners with
    | .error fault => .error fault
    | .ok owners => .ok ⟨p.names ++ [dims[d].name], owners⟩

/-- The owners of the columns once all dimensions are read. -/
def ownerTable (features : List String) (dims : List Dimension) (columns : List (String × Nat)) :
    Except SchemaError (Owners dims) :=
  match (List.finRange dims.length).foldlM (addDimension columns)
    ⟨[], features.map fun _ => none⟩ with
  | .error fault => .error fault
  | .ok p => .ok p.owners

/-- The owner of a column, which each of them has to have. -/
def settleOne (column : String × Option (Fin dims.length)) :
    Except SchemaError (Fin dims.length) :=
  match column.2 with
  | some d => .ok d
  | none => .error (.unassignedFeature column.1)

def settle (features : List String) (owners : Owners dims) :
    Except SchemaError (List (Fin dims.length)) :=
  (features.zip owners).mapM settleOne

/-- The columns of the features, and the owners of the columns. -/
structure FeatureTables (dims : List Dimension) where
  columns : List (String × Nat)
  owners : List (Fin dims.length)
deriving DecidableEq, Repr

/-- The tables of a declaration, or its first fault. -/
def tablesOf (features : List String) (dims : List Dimension) :
    Except SchemaError (FeatureTables dims) := do
  let columns ← columnTable features
  let owners ← ownerTable features dims columns
  let settled ← settle features owners
  return ⟨columns, settled⟩

/-- The dimension that lists a feature, of those at some places. -/
def ownerAmong (places : List (Fin dims.length)) (feature : String) : Option (Fin dims.length) :=
  places.find? fun d => feature ∈ dims[d].features

theorem ownerAmong_eq_none_iff {places : List (Fin dims.length)} {feature : String} :
    ownerAmong places feature = none ↔ ∀ d ∈ places, feature ∉ dims[d].features := by
  simp only [ownerAmong, List.find?_eq_none, decide_eq_true_eq]

theorem mem_of_ownerAmong {places : List (Fin dims.length)} {feature : String}
    {d : Fin dims.length} (h : ownerAmong places feature = some d) :
    feature ∈ dims[d].features := by
  have hd := List.find?_some h
  rwa [decide_eq_true_eq] at hd

/-- Setting one place of a table is changing the function it lists at what stands there. -/
theorem set_map_of_nodup {α : Type} (f : String → α) (hnodup : features.Nodup) {column : Nat}
    {feature : String} (hcolumn : features[column]? = some feature) (x : α) :
    (features.map f).set column x = features.map fun g => if g = feature then x else f g := by
  refine List.ext_getElem (by simp) fun i hi hi' => ?_
  rw [List.length_map] at hi'
  rcases List.getElem?_eq_some_iff.mp hcolumn with ⟨hlt, rfl⟩
  rw [List.getElem_set, List.getElem_map, List.getElem_map]
  -- Features do not repeat, so places and features can be told apart alike.
  have hsame : (column = i) ↔ features[i] = features[column] := by
    rw [List.getElem_inj hnodup]
    exact eq_comm
  simp only [hsame]

theorem own_eq_ok_iff (hnodup : features.Nodup) (owner : String → Option (Fin dims.length))
    (d : Fin dims.length) (feature : String) (next : Owners dims) :
    own features.zipIdx d (features.map owner) feature = .ok next ↔
      (feature ∈ features ∧ owner feature = none) ∧
        next = features.map fun g => if g = feature then some d else owner g := by
  have hkeys : (features.zipIdx.map Prod.fst).Nodup := by rwa [List.zipIdx_map_fst]
  unfold own
  cases hlookup : features.zipIdx.lookup feature with
  | none =>
      -- Whatever is declared has a column.
      have hunknown : feature ∉ features := by
        intro hmem
        rcases List.mem_iff_getElem?.mp hmem with ⟨i, hi⟩
        rw [(lookup_eq_some_iff_mem hkeys).mpr (List.mem_zipIdx_iff_getElem?.mpr hi)] at hlookup
        cases hlookup
      simp only [reduceCtorEq, hunknown, false_and]
  | some column =>
      have hcolumn := List.mem_zipIdx_iff_getElem?.mp ((lookup_eq_some_iff_mem hkeys).mp hlookup)
      have hmem : feature ∈ features := List.mem_of_getElem? hcolumn
      -- The table is looked into at the place of the feature, where its own owner stands.
      have howner : (features.map owner)[column]?.join = owner feature := by
        rw [List.getElem?_map, hcolumn, Option.map_some, Option.join_some]
      simp only [howner, hmem, true_and]
      cases hown : owner feature with
      | some first => simp only [reduceCtorEq, false_and]
      | none =>
          simp only [Except.ok.injEq, set_map_of_nodup owner hnodup hcolumn, true_and, eq_comm]

/-- A dimension becomes the owner of what it lists if that is declared, has no owner and does
    not come twice. -/
theorem foldlM_own_eq_ok_iff (hnodup : features.Nodup) (owner : String → Option (Fin dims.length))
    (d : Fin dims.length) (listed : List String) (next : Owners dims) :
    listed.foldlM (own features.zipIdx d) (features.map owner) = .ok next ↔
      ((∀ f ∈ listed, f ∈ features ∧ owner f = none) ∧ listed.Nodup) ∧
        next = features.map fun g => if g ∈ listed then some d else owner g := by
  have hstep : ∀ (done : List String) (f : String) (after : Owners dims),
      own features.zipIdx d (features.map fun g => if g ∈ done then some d else owner g) f
          = .ok after ↔
        ((f ∈ features ∧ owner f = none) ∧ ∀ g ∈ done, g ≠ f) ∧
          after = features.map fun g => if g ∈ done ++ [f] then some d else owner g := by
    intro done f after
    have hnew : (∀ g ∈ done, g ≠ f) ↔ f ∉ done :=
      ⟨fun h hf => h f hf rfl, fun h g hg heq => h (heq ▸ hg)⟩
    have htable : ∀ g, (if g = f then some d else if g ∈ done then some d else owner g)
        = if g ∈ done ++ [f] then some d else owner g := by
      intro g
      by_cases hgf : g = f <;> by_cases hgd : g ∈ done <;> simp [hgf, hgd]
    rw [own_eq_ok_iff hnodup, hnew]
    simp only [htable]
    by_cases hdone : f ∈ done <;> simp [hdone]
  have hread := foldlM_eq_ok_iff hstep [] listed next
  simp only [List.not_mem_nil, if_false, List.nil_append, false_imp_iff, implies_true,
    true_and] at hread
  exact hread

/-- What is known after the dimensions at some places. -/
def progressAfter (features : List String) (places : List (Fin dims.length)) : Progress dims where
  names := places.map fun d => dims[d].name
  owners := features.map (ownerAmong places)

/-- A dimension can be read if it lists something, no feature twice and declared ones only. -/
structure Listing (features : List String) (d : Dimension) : Prop where
  nonempty : d.features ≠ []
  declared : ∀ f ∈ d.features, f ∈ features
  nodup : d.features.Nodup

/-- Two dimensions go together if neither their names are the same nor any of their features. -/
structure Apart (d e : Dimension) : Prop where
  names : d.name ≠ e.name
  features : ∀ f ∈ d.features, ∀ g ∈ e.features, f ≠ g

theorem forall_apart_iff {done : List (Fin dims.length)} {d : Dimension} :
    (∀ e ∈ done, Apart dims[e] d) ↔
      d.name ∉ done.map (fun e => dims[e].name) ∧ ∀ f ∈ d.features, ownerAmong done f = none := by
  simp only [ownerAmong_eq_none_iff, List.mem_map, not_exists, not_and]
  constructor
  · intro h
    exact ⟨fun e he => (h e he).names, fun f hf e he hfe => (h e he).features f hfe f hf rfl⟩
  · rintro ⟨hnames, hfeatures⟩ e he
    exact ⟨hnames e he, fun f hf g hg heq => hfeatures g hg e he (heq ▸ hf)⟩

/-- A dimension that is searched last answers for what it lists, if no other one does. -/
theorem ownerAmong_append_singleton {done : List (Fin dims.length)} {d : Fin dims.length}
    (hfree : ∀ f ∈ dims[d].features, ownerAmong done f = none) (g : String) :
    ownerAmong (done ++ [d]) g = if g ∈ dims[d].features then some d else ownerAmong done g := by
  have happend : ownerAmong (done ++ [d]) g = (ownerAmong done g).or (ownerAmong [d] g) :=
    List.find?_append
  rw [happend]
  by_cases hg : g ∈ dims[d].features
  · rw [hfree g hg, Option.none_or, if_pos hg]
    exact List.find?_cons_of_pos (by simpa using hg)
  · have hnone : ownerAmong [d] g = none := by
      simpa only [ownerAmong_eq_none_iff, List.forall_mem_singleton] using hg
    rw [hnone, Option.or_none, if_neg hg]

theorem addDimension_eq_ok_iff (hnodup : features.Nodup) (done : List (Fin dims.length))
    (d : Fin dims.length) (next : Progress dims) :
    addDimension features.zipIdx (progressAfter features done) d = .ok next ↔
      (Listing features dims[d] ∧ ∀ e ∈ done, Apart dims[e] dims[d]) ∧
        next = progressAfter features (done ++ [d]) := by
  have hlisting : Listing features dims[d] ↔ dims[d].features ≠ [] ∧
      (∀ f ∈ dims[d].features, f ∈ features) ∧ dims[d].features.Nodup :=
    ⟨fun h => ⟨h.nonempty, h.declared, h.nodup⟩, fun h => ⟨h.1, h.2.1, h.2.2⟩⟩
  rw [forall_apart_iff, hlisting]
  unfold addDimension
  by_cases hname : dims[d].name ∈ (progressAfter features done).names
  · rw [if_pos hname]
    simp only [reduceCtorEq, false_iff]
    exact fun h => h.1.2.1 hname
  by_cases hempty : dims[d].features = []
  · rw [if_neg hname, if_pos hempty]
    simp only [reduceCtorEq, false_iff]
    exact fun h => h.1.1.1 hempty
  rw [if_neg hname, if_neg hempty]
  -- The names and the length are in order, so the features decide.
  have hown := foldlM_own_eq_ok_iff hnodup (ownerAmong done) d dims[d].features
  cases hread : dims[d].features.foldlM (own features.zipIdx d)
      (progressAfter features done).owners with
  | error fault =>
      simp only [reduceCtorEq, false_iff]
      rintro ⟨⟨⟨-, hdeclared, hlisted⟩, -, hfree⟩, -⟩
      have hok := (hown _).mpr ⟨⟨fun f hf => ⟨hdeclared f hf, hfree f hf⟩, hlisted⟩, rfl⟩
      exact absurd (hread.symm.trans hok) (by simp only [reduceCtorEq, not_false_eq_true])
  | ok owners =>
      rcases (hown owners).mp hread with ⟨⟨hlist, hlisted⟩, rfl⟩
      have hfree : ∀ f ∈ dims[d].features, ownerAmong done f = none := fun f hf => (hlist f hf).2
      have hnext : progressAfter features (done ++ [d]) =
          ⟨(progressAfter features done).names ++ [dims[d].name], features.map fun g =>
            if g ∈ dims[d].features then some d else ownerAmong done g⟩ := by
        have hsearch := funext (ownerAmong_append_singleton hfree)
        rw [progressAfter, List.map_append, hsearch]
        rfl
      rw [hnext, Except.ok.injEq]
      exact ⟨fun h => ⟨⟨⟨hempty, fun f hf => (hlist f hf).1, hlisted⟩, hname, hfree⟩, h.symm⟩,
        fun h => h.2.symm⟩

/-- The dimensions can be read if each of them can, and any two go together. -/
theorem ownerTable_eq_ok_iff (hnodup : features.Nodup) {owners : Owners dims} :
    ownerTable features dims features.zipIdx = .ok owners ↔
      ((∀ d ∈ dims, Listing features d) ∧ dims.Pairwise Apart) ∧
        owners = features.map (ownerAmong (List.finRange dims.length)) := by
  have hplaces : (List.finRange dims.length).map (fun d => dims[d]) = dims :=
    List.ext_getElem (by simp) fun i hi hi' => by simp
  have hread : ∀ last, (List.finRange dims.length).foldlM (addDimension features.zipIdx)
      ⟨[], features.map fun _ => none⟩ = .ok last ↔
        ((∀ d ∈ dims, Listing features d) ∧ dims.Pairwise Apart) ∧
          last = progressAfter features (List.finRange dims.length) := by
    intro last
    have h := foldlM_eq_ok_iff (addDimension_eq_ok_iff hnodup) [] (List.finRange dims.length) last
    rw [← List.pairwise_map (R := Apart), hplaces, List.nil_append] at h
    rw [← List.forall_mem_map (P := Listing features), hplaces] at h
    simp only [List.not_mem_nil, false_imp_iff, implies_true, true_and] at h
    exact h
  unfold ownerTable
  cases hlast : (List.finRange dims.length).foldlM (addDimension features.zipIdx)
      ⟨[], features.map fun _ => none⟩ with
  | error fault =>
      simp only [reduceCtorEq, false_iff]
      rintro ⟨hdims, -⟩
      exact absurd (hlast.symm.trans ((hread _).mpr ⟨hdims, rfl⟩))
        (by simp only [reduceCtorEq, not_false_eq_true])
  | ok last =>
      rcases (hread last).mp hlast with ⟨hdims, rfl⟩
      rw [Except.ok.injEq]
      exact ⟨fun h => ⟨hdims, h.symm⟩, fun h => h.2.symm⟩

/-- The last check takes owners as they are if every column has one. -/
theorem settle_eq_ok_iff {owner : String → Option (Fin dims.length)}
    {owners : List (Fin dims.length)} :
    settle features (features.map owner) = .ok owners ↔
      owners.map some = features.map owner := by
  induction features generalizing owners with
  | nil =>
      rw [settle, List.zip_nil_left, List.mapM_nil, List.map_nil, List.map_eq_nil_iff]
      exact ⟨fun h => (Except.ok.inj h).symm, fun h => h ▸ rfl⟩
  | cons f rest ih =>
      have hstep : settle (f :: rest) ((f :: rest).map owner) = (settleOne (f, owner f) >>= fun d =>
          settle rest (rest.map owner) >>= fun later => pure (d :: later)) :=
        List.mapM_cons
      rw [hstep, List.map_cons]
      have hone : ∀ d, settleOne (f, owner f) = .ok d ↔ owner f = some d := by
        intro d
        cases hf : owner f with
        | none => simp only [settleOne, reduceCtorEq]
        | some e => simp only [settleOne, Except.ok.injEq, Option.some.injEq]
      simp only [bind_eq_ok, hone, ih]
      constructor
      · rintro ⟨d, hd, later, hlater, howners⟩
        rw [← Except.ok.inj howners, List.map_cons, hd, hlater]
      · intro h
        cases owners with
        | nil => cases h
        | cons d later =>
            rw [List.map_cons, List.cons.injEq] at h
            exact ⟨d, h.1.symm, later, h.2, rfl⟩

/-- With dimensions that can be read together, what is left to be a partition is that every
    feature is listed. -/
theorem isPartition_iff (hnodup : features.Nodup) :
    IsPartition features dims ↔
      ((∀ d ∈ dims, Listing features d) ∧ dims.Pairwise Apart) ∧
        ∀ f ∈ features, ∃ d ∈ dims, f ∈ d.features := by
  have hapart : dims.Pairwise Apart ↔ (dims.map Dimension.name).Nodup ∧
      dims.Pairwise fun d e => ∀ f ∈ d.features, ∀ g ∈ e.features, f ≠ g := by
    rw [List.Nodup, List.pairwise_map, ← List.pairwise_and_iff]
    exact ⟨List.Pairwise.imp fun h => ⟨h.names, h.features⟩,
      List.Pairwise.imp fun h => ⟨h.1, h.2⟩⟩
  have hflat : (dims.flatMap Dimension.features).Nodup ↔ (∀ d ∈ dims, d.features.Nodup) ∧
      dims.Pairwise fun d e => ∀ f ∈ d.features, ∀ g ∈ e.features, f ≠ g :=
    List.pairwise_flatMap
  constructor
  · intro h
    have hlisted := hflat.mp (h.perm.nodup_iff.mpr hnodup)
    refine ⟨⟨fun d hd => ⟨h.nonempty d hd, fun f hf => ?_, hlisted.1 d hd⟩,
      hapart.mpr ⟨h.names_nodup, hlisted.2⟩⟩, fun f hf => ?_⟩
    · exact h.perm.mem_iff.mp (List.mem_flatMap.mpr ⟨d, hd, hf⟩)
    · exact List.mem_flatMap.mp (h.perm.mem_iff.mpr hf)
  · rintro ⟨⟨hlisting, hpairs⟩, hcovered⟩
    have hnames := hapart.mp hpairs
    have hlisted := hflat.mpr ⟨fun d hd => (hlisting d hd).nodup, hnames.2⟩
    refine ⟨hnodup, hnames.1, fun d hd => (hlisting d hd).nonempty, ?_⟩
    refine (List.perm_ext_iff_of_nodup hlisted hnodup).mpr fun f => ⟨fun hf => ?_, fun hf => ?_⟩
    · rcases List.mem_flatMap.mp hf with ⟨d, hd, hfd⟩
      exact (hlisting d hd).declared f hfd
    · exact List.mem_flatMap.mpr (hcovered f hf)

/-- A declaration has tables precisely if it is a partition. They hold the place of every
    feature and, for every feature, the dimension that lists it. -/
theorem tablesOf_eq_ok_iff {tables : FeatureTables dims} :
    tablesOf features dims = .ok tables ↔
      IsPartition features dims ∧ tables.columns = features.zipIdx ∧
        tables.owners.map some = features.map (ownerAmong (List.finRange dims.length)) := by
  have hread : tablesOf features dims = .ok tables ↔
      columnTable features = .ok tables.columns ∧ ∃ owners,
        ownerTable features dims tables.columns = .ok owners ∧
          settle features owners = .ok tables.owners := by
    simp only [tablesOf, bind_eq_ok]
    constructor
    · rintro ⟨columns, hcolumns, owners, howners, settled, hsettled, htables⟩
      rw [← Except.ok.inj htables]
      exact ⟨hcolumns, owners, howners, hsettled⟩
    · rintro ⟨hcolumns, owners, howners, hsettled⟩
      exact ⟨_, hcolumns, owners, howners, _, hsettled, rfl⟩
  rw [hread, columnTable_eq_ok_iff]
  constructor
  · rintro ⟨⟨hnodup, hcolumns⟩, owners, howners, hsettle⟩
    rw [hcolumns, ownerTable_eq_ok_iff hnodup] at howners
    rcases howners with ⟨hdims, rfl⟩
    rw [settle_eq_ok_iff] at hsettle
    refine ⟨(isPartition_iff hnodup).mpr ⟨hdims, fun f hf => ?_⟩, hcolumns, hsettle⟩
    -- Every entry of the table of owners is the answer for some feature.
    have howned : ownerAmong (List.finRange dims.length) f ∈ tables.owners.map some :=
      hsettle ▸ List.mem_map_of_mem hf
    rcases List.mem_map.mp howned with ⟨d, -, hd⟩
    exact ⟨dims[d], List.getElem_mem d.isLt, mem_of_ownerAmong hd.symm⟩
  · rintro ⟨hpartition, hcolumns, howners⟩
    have hnodup := hpartition.features_nodup
    have hdims := ((isPartition_iff hnodup).mp hpartition).1
    exact ⟨⟨hnodup, hcolumns⟩, _, hcolumns ▸ (ownerTable_eq_ok_iff hnodup).mpr ⟨hdims, rfl⟩,
      settle_eq_ok_iff.mpr howners⟩

end Owners

end CommitRisk
