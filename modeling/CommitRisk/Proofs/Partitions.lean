import CommitRisk.Schema
import Mathlib.Data.List.Nodup

/-!
# Every Feature Has One Dimension

A declaration is read once, and two tables are filled on the way: the columns of the
features and the owners of the columns. Six kinds of fault end the reading. `IsPartition`
knows nothing of this, and yet the declarations that have tables are the partitions: none
that is no partition passes, and no partition is refused.

In a partition every feature is listed in one dimension, at one place of the list of
dimensions. So the search that the table of owners stands for has one answer, and the tables
say what the lists say. A schema looks a feature up in the tables in three ways, by its name,
by its column and, for its dimension, by both in turn. `LookupsAgree` says that they are ways
to the same place, and that it is the place where the lists have the feature.

## Main definitions

* `Schema.LookupsAgree`: Features are found where the dimensions list them.

## Theorems

* `IsPartition.mem_iff`: A feature is what some dimension lists.
* `IsPartition.place_unique`, `IsPartition.dimension_unique`: It is listed once.
* `find?_eq_some_iff_of_unique`: Searching for what is there once.
* `IsPartition.ownerAmong_eq_some_iff`: Searching for the dimension that lists a feature.
* `exists_tables_iff`, `ofParts_isOk_iff`: When there are tables, and a schema.
* `column_mem_iff`, `owner_eq_some_iff`: The tables hold what the lists do.
* `index?_eq_some_iff`, `dimensionFeatures?_eq_some_iff`, `dimensionOf?_eq_some_iff`,
  `mask_eq_true_iff`: The ways to look a feature up.
* `mask_length`, `existsUnique_mask`: Every column is in one mask.
* `ofParts_accepts_partitions`: All of it together.
-/

namespace CommitRisk

/-! ## Where a feature is listed -/

namespace IsPartition

variable {features : List String} {dims : List Dimension}

theorem listed_nodup (h : IsPartition features dims) :
    (dims.flatMap Dimension.features).Nodup :=
  h.perm.nodup_iff.mpr h.features_nodup

theorem mem_iff (h : IsPartition features dims) (f : String) :
    f ∈ features ↔ ∃ d ∈ dims, f ∈ d.features := by
  rw [← h.perm.mem_iff, List.mem_flatMap]

/-- Places in the list of dimensions at which one feature is listed are the same. -/
theorem place_unique (h : IsPartition features dims) (f : String) (i j : Nat) (d e : Dimension)
    (hi : dims[i]? = some d) (hj : dims[j]? = some e) (hd : f ∈ d.features)
    (he : f ∈ e.features) : i = j := by
  rcases List.getElem?_eq_some_iff.mp hi with ⟨hlti, rfl⟩
  rcases List.getElem?_eq_some_iff.mp hj with ⟨hltj, rfl⟩
  have hapart := List.pairwise_iff_getElem.mp (List.nodup_flatMap.mp h.listed_nodup).2
  -- Of two places one comes first, and what it lists is not listed again.
  rcases Nat.lt_trichotomy i j with hlt | heq | hlt
  · exact absurd he (hapart i j hlti hltj hlt hd)
  · exact heq
  · exact absurd hd (hapart j i hltj hlti hlt he)

theorem dimension_unique (h : IsPartition features dims) (f : String) (d e : Dimension)
    (hd : d ∈ dims) (he : e ∈ dims) (hfd : f ∈ d.features) (hfe : f ∈ e.features) : d = e := by
  rcases List.mem_iff_getElem?.mp hd with ⟨i, hi⟩
  rcases List.mem_iff_getElem?.mp he with ⟨j, hj⟩
  rw [h.place_unique f i j d e hi hj hfd hfe, hj, Option.some.injEq] at hi
  exact hi.symm

end IsPartition

/-! ## Looking a feature up -/

/-- Where at most one entry answers to a search, it finds what does. -/
theorem find?_eq_some_iff_of_unique {α : Type} (p : α → Bool) (xs : List α)
    (hunique : ∀ x ∈ xs, ∀ y ∈ xs, p x = true → p y = true → x = y) (x : α) :
    xs.find? p = some x ↔ x ∈ xs ∧ p x = true := by
  constructor
  · intro hfind
    exact ⟨List.mem_of_find?_eq_some hfind, List.find?_some hfind⟩
  · rintro ⟨hx, hp⟩
    cases hfind : xs.find? p with
    | none => exact absurd hp (List.find?_eq_none.mp hfind x hx)
    | some y => rw [hunique y (List.mem_of_find?_eq_some hfind) x hx (List.find?_some hfind) hp]

namespace IsPartition

variable {features : List String} {dims : List Dimension}

/-- Only one place lists a feature, so a search through all of them ends there. -/
theorem ownerAmong_eq_some_iff (h : IsPartition features dims) (f : String)
    (d : Fin dims.length) :
    ownerAmong (List.finRange dims.length) f = some d ↔ f ∈ (dims.get d).features := by
  have hunique : ∀ i ∈ List.finRange dims.length, ∀ j ∈ List.finRange dims.length,
      decide (f ∈ dims[i].features) = true → decide (f ∈ dims[j].features) = true → i = j := by
    intro i _ j _ hi hj
    exact Fin.ext (h.place_unique f i j _ _ (List.getElem?_eq_getElem i.isLt)
      (List.getElem?_eq_getElem j.isLt) (of_decide_eq_true hi) (of_decide_eq_true hj))
  rw [ownerAmong, find?_eq_some_iff_of_unique _ _ hunique, decide_eq_true_eq]
  exact and_iff_right (List.mem_finRange d)

end IsPartition

namespace Schema

/-! ## What is accepted -/

/-- The declarations that have tables are the partitions. -/
theorem exists_tables_iff (features : List String) (dims : List Dimension) :
    (∃ tables, tablesOf features dims = .ok tables) ↔ IsPartition features dims := by
  constructor
  · rintro ⟨tables, htables⟩
    exact (tablesOf_eq_ok_iff.mp htables).1
  · intro h
    -- Every feature is listed, so a search for its owner finds one.
    have howned : ∀ f ∈ features, (ownerAmong (List.finRange dims.length) f).isSome = true := by
      intro f hf
      rcases (h.mem_iff f).mp hf with ⟨d, hd, hfd⟩
      rcases List.getElem_of_mem hd with ⟨i, hi, rfl⟩
      rw [(h.ownerAmong_eq_some_iff f ⟨i, hi⟩).mpr hfd]
      rfl
    refine ⟨⟨features.zipIdx, features.pmap (fun _ => Option.get _) howned⟩,
      tablesOf_eq_ok_iff.mpr ⟨h, rfl, ?_⟩⟩
    simp only [List.map_pmap, Option.some_get, List.pmap_eq_map]

theorem ofParts_isOk_iff (features : List String) (dims : List Dimension) :
    (∃ s, ofParts features dims = .ok s) ↔ IsPartition features dims := by
  rw [← exists_tables_iff]
  constructor
  · rintro ⟨s, hs⟩
    rcases ofParts_eq_ok_iff.mp hs with ⟨rfl, rfl⟩
    exact ⟨s.tables, s.made⟩
  · rintro ⟨tables, made⟩
    exact ⟨⟨features, dims, tables, made⟩, ofParts_eq_ok_iff.mpr ⟨rfl, rfl⟩⟩

/-! ## What the tables hold -/

/-- The table of columns has every feature at its place. -/
theorem column_mem_iff (s : Schema) (f : String) (i : Nat) :
    (f, i) ∈ s.tables.columns ↔ s.features[i]? = some f := by
  rw [s.columns_eq, List.mem_zipIdx_iff_getElem?]

/-- The table of owners has, for every column, the dimension that lists its feature. -/
theorem owner_eq_some_iff (s : Schema) (i : Nat) (d : Fin s.dimensions.length) :
    s.tables.owners[i]? = some d ↔
      ∃ f, s.features[i]? = some f ∧ f ∈ (s.dimensions.get d).features := by
  -- Entry by entry the table is what a search through all dimensions finds.
  have hentry : s.tables.owners[i]?.map some =
      s.features[i]?.map (ownerAmong (List.finRange s.dimensions.length)) := by
    rw [← List.getElem?_map, s.owners_eq, List.getElem?_map]
  have hsome : s.tables.owners[i]? = some d ↔ s.tables.owners[i]?.map some = some (some d) := by
    simp only [Option.map_eq_some_iff, Option.some.injEq, exists_eq_right]
  simp only [hsome, hentry, Option.map_eq_some_iff, s.partition.ownerAmong_eq_some_iff]

theorem owners_length (s : Schema) : s.tables.owners.length = s.features.length := by
  have hlength := congrArg List.length s.owners_eq
  rwa [List.length_map, List.length_map] at hlength

/-- Features do not repeat, so a feature has one column. -/
theorem index?_eq_some_iff (s : Schema) (f : String) (i : Nat) :
    s.index? f = some i ↔ s.features[i]? = some f := by
  have hkeys : (s.tables.columns.map Prod.fst).Nodup := by
    rw [s.columns_eq, List.zipIdx_map_fst]
    exact s.partition.features_nodup
  rw [index?, lookup_eq_some_iff_mem hkeys, s.column_mem_iff]

/-- No two dimensions have one name, so a name leads to the list of its dimension. -/
theorem dimensionFeatures?_eq_some_iff (s : Schema) (name : String) (listed : List String) :
    s.dimensionFeatures? name = some listed ↔
      ∃ d ∈ s.dimensions, d.name = name ∧ d.features = listed := by
  have hunique : ∀ d ∈ s.dimensions, ∀ e ∈ s.dimensions, (d.name == name) = true →
      (e.name == name) = true → d = e := by
    intro d hd e he hname hname'
    rw [beq_iff_eq] at hname hname'
    exact List.inj_on_of_nodup_map s.partition.names_nodup hd he (hname.trans hname'.symm)
  simp only [dimensionFeatures?, Option.map_eq_some_iff,
    find?_eq_some_iff_of_unique _ _ hunique, beq_iff_eq, and_assoc]

/-- A feature leads to its column, and the column to the dimension that owns it. -/
theorem dimensionOf?_eq_some_iff (s : Schema) (f name : String) :
    s.dimensionOf? f = some name ↔ ∃ d ∈ s.dimensions, f ∈ d.features ∧ d.name = name := by
  simp only [dimensionOf?, Option.bind_eq_some_iff, Option.map_eq_some_iff, s.index?_eq_some_iff,
    s.owner_eq_some_iff]
  constructor
  · rintro ⟨i, hf, d, ⟨g, hg, hgd⟩, hname⟩
    -- The column has one feature, the one that led to it.
    rw [hf, Option.some.injEq] at hg
    exact ⟨s.dimensions[d], List.getElem_mem d.isLt, hg ▸ hgd, hname⟩
  · rintro ⟨d, hd, hfd, hname⟩
    -- What a dimension lists is declared, so it has a column to go through.
    rcases List.mem_iff_getElem?.mp ((s.partition.mem_iff f).mpr ⟨d, hd, hfd⟩) with ⟨i, hi⟩
    rcases List.getElem_of_mem hd with ⟨k, hk, rfl⟩
    exact ⟨i, hi, ⟨k, hk⟩, ⟨f, hi, hfd⟩, hname⟩

theorem mask_length (s : Schema) (d : Nat) : (s.mask d).length = s.features.length := by
  rw [mask, List.length_map, s.owners_length]

theorem mask_eq_true_iff (s : Schema) (d i : Nat) :
    (s.mask d)[i]? = some true ↔
      ∃ g f, s.dimensions[d]? = some g ∧ s.features[i]? = some f ∧ f ∈ g.features := by
  simp only [mask, List.getElem?_map, Option.map_eq_some_iff, beq_iff_eq, s.owner_eq_some_iff]
  constructor
  · rintro ⟨owner, ⟨f, hf, hfd⟩, rfl⟩
    exact ⟨_, f, List.getElem?_eq_getElem owner.isLt, hf, hfd⟩
  · rintro ⟨g, f, hg, hf, hfg⟩
    rcases List.getElem?_eq_some_iff.mp hg with ⟨hd, rfl⟩
    exact ⟨⟨d, hd⟩, ⟨f, hf, hfg⟩, rfl⟩

/-- Features are found where the dimensions list them, whichever way they are looked up. -/
structure LookupsAgree (s : Schema) : Prop where
  /-- The table of columns has every feature at its place. -/
  columns : ∀ f i, (f, i) ∈ s.tables.columns ↔ s.features[i]? = some f
  /-- The table of owners has the dimension that lists the feature of a column. -/
  owners : ∀ (i : Nat) (d : Fin s.dimensions.length), s.tables.owners[i]? = some d ↔
    ∃ f, s.features[i]? = some f ∧ f ∈ (s.dimensions.get d).features
  index : ∀ f i, s.index? f = some i ↔ s.features[i]? = some f
  features : ∀ name listed, s.dimensionFeatures? name = some listed ↔
    ∃ d ∈ s.dimensions, d.name = name ∧ d.features = listed
  dimension : ∀ f name, s.dimensionOf? f = some name ↔
    ∃ listed, s.dimensionFeatures? name = some listed ∧ f ∈ listed
  mask_length : ∀ d, (s.mask d).length = s.features.length
  mask : ∀ d i : Nat, (s.mask d)[i]? = some true ↔
    ∃ g f, s.dimensions[d]? = some g ∧ s.features[i]? = some f ∧ f ∈ g.features
  /-- Of the masks of all dimensions a column is in one. -/
  column : ∀ i, i < s.features.length →
    ∃! d : Nat, d < s.dimensions.length ∧ (s.mask d)[i]? = some true
  /-- Behind the last dimension the masks are empty. -/
  beyond : ∀ d, s.dimensions.length ≤ d → ∀ b ∈ s.mask d, b = false

/-- Every column is in the mask of the dimension that lists its feature. -/
theorem existsUnique_mask (s : Schema) (i : Nat) (hi : i < s.features.length) :
    ∃! d : Nat, d < s.dimensions.length ∧ (s.mask d)[i]? = some true := by
  have hf := List.getElem?_eq_getElem hi
  rcases (s.partition.mem_iff _).mp (List.getElem_mem hi) with ⟨g, hg, hfg⟩
  rcases List.mem_iff_getElem?.mp hg with ⟨d, hd⟩
  refine ⟨d, ⟨(List.getElem?_eq_some_iff.mp hd).1,
    (s.mask_eq_true_iff d i).mpr ⟨g, _, hd, hf, hfg⟩⟩, fun e he => ?_⟩
  -- Another dimension with the column in its mask would list the feature, too.
  rcases (s.mask_eq_true_iff e i).mp he.2 with ⟨g', f', hg', hf', hfg'⟩
  rw [hf, Option.some.injEq] at hf'
  subst hf'
  exact s.partition.place_unique _ e d g' g hg' hd hfg' hfg

theorem lookupsAgree (s : Schema) : s.LookupsAgree where
  columns := s.column_mem_iff
  owners := s.owner_eq_some_iff
  index := s.index?_eq_some_iff
  features := s.dimensionFeatures?_eq_some_iff
  dimension f name := by
    simp only [s.dimensionOf?_eq_some_iff, s.dimensionFeatures?_eq_some_iff]
    constructor
    · rintro ⟨d, hd, hf, hname⟩
      exact ⟨d.features, ⟨d, hd, hname, rfl⟩, hf⟩
    · rintro ⟨_, ⟨d, hd, hname, rfl⟩, hf⟩
      exact ⟨d, hd, hf, hname⟩
  mask_length := s.mask_length
  mask := s.mask_eq_true_iff
  column := s.existsUnique_mask
  beyond d hd b hb := by
    rcases List.mem_map.mp hb with ⟨owner, _, rfl⟩
    exact beq_eq_false_iff_ne.mpr (Nat.ne_of_lt (Nat.lt_of_lt_of_le owner.isLt hd))

/-- A schema can be made of exactly the declarations that are partitions, and it has the
    features and dimensions that were declared. Its columns, its dimensions by name, the
    dimension of a feature and the masks all go by where the features are listed. -/
theorem ofParts_accepts_partitions (features : List String) (dims : List Dimension) :
    ((∃ s, ofParts features dims = .ok s) ↔ IsPartition features dims) ∧
      ∀ s, ofParts features dims = .ok s →
        s.features = features ∧ s.dimensions = dims ∧ s.LookupsAgree := by
  refine ⟨ofParts_isOk_iff features dims, fun s hs => ?_⟩
  rcases ofParts_eq_ok_iff.mp hs with ⟨hfeatures, hdims⟩
  exact ⟨hfeatures, hdims, s.lookupsAgree⟩

example : commitDefault.dimensionOf? "entropy" = some "diffusion" ∧
    (commitDefault.mask 3)[12]? = some true ∧ commitDefault.dimensionOf? "ha" = none := by
  decide

end Schema

end CommitRisk
