import CommitRisk.Proofs.Payloads
import CommitRisk.Proofs.Replay

/-!
# Reading a Payload by Its Keys

An object keeps its members in order, so a key may come twice in it, and then a reader who asks
for the key gets the first member only. Where no object of a tree has a key twice, every value
in it is what its key leads to.

The keys of a payload are its own, apart from the names of features, of columns and of
dimensions. These stand in objects of their own, but for the flat object of an attribution, in
which the names of the dimensions stand beside two names of the payload.

## Main definitions

* `Json.Within`: A value stands somewhere in a tree.
* `Json.DistinctKeys`: No object in a tree has a key twice.
* `Json.ReadByKey`: Every member in a tree is what its key leads to.
* `QuantileTable.NamesOnce`: Steps and columns that come once each.

## Theorems

* `Json.DistinctKeys.readByKey`: Distinct keys lead to every member.
* `distinctKeys_array_iff`, `distinctKeys_object_iff`: Distinct keys from part to part.
* `ModelMedians.distinctKeys_iff`, `ModelReport.distinctKeys_iff`, `Quantiles.distinctKeys_iff`,
  `Attribution.distinctKeys_iff`: Which names have to be distinct in the parts of a payload.
* `Output.distinctKeys_iff`: A payload has distinct keys if these parts have.
-/

namespace CommitRisk

namespace Json

/-! ## Keys -/

/-- A value stands somewhere in a tree. -/
inductive Within (part : Json) : Json → Prop where
  | self : Within part part
  | item (items : List Json) (item : Json) (hitem : item ∈ items) (h : Within part item) :
      Within part (.array items)
  | member (members : List (String × Json)) (entry : String × Json) (hentry : entry ∈ members)
      (h : Within part entry.2) : Within part (.object members)

/-- No object in a tree has a key twice. -/
def DistinctKeys (j : Json) : Prop :=
  ∀ members, Within (.object members) j → (members.map Prod.fst).Nodup

/-- Every member of an object in a tree is what its key leads to. -/
def ReadByKey (j : Json) : Prop :=
  ∀ members, Within (.object members) j →
    ∀ entry ∈ members, (Json.object members).member? entry.1 = some entry.2

/-- Distinct keys lead to every member. -/
theorem DistinctKeys.readByKey {j : Json} (h : j.DistinctKeys) : j.ReadByKey :=
  fun members hwithin _ hentry => (lookup_eq_some_iff_mem (h members hwithin)).mpr hentry

theorem distinctKeys_number (literal : String) : (Json.number literal).DistinctKeys :=
  fun _ h => by cases h

theorem distinctKeys_text (value : String) : (Json.text value).DistinctKeys :=
  fun _ h => by cases h

theorem distinctKeys_bool (value : Bool) : (Json.bool value).DistinctKeys :=
  fun _ h => by cases h

theorem distinctKeys_null : Json.null.DistinctKeys :=
  fun _ h => by cases h

theorem distinctKeys_ofFloat (x : Float) : (Json.ofFloat x).DistinctKeys := by
  unfold Json.ofFloat
  split
  · exact distinctKeys_number _
  · exact distinctKeys_null

theorem distinctKeys_ofNat (n : Nat) : (Json.ofNat n).DistinctKeys :=
  distinctKeys_number _

theorem distinctKeys_ofOption {α : Type} (f : α → Json) (x : Option α)
    (h : ∀ x, (f x).DistinctKeys) : (Json.ofOption f x).DistinctKeys := by
  cases x with
  | none => exact distinctKeys_null
  | some x => exact h x

theorem distinctKeys_array_iff (items : List Json) :
    (Json.array items).DistinctKeys ↔ ∀ item ∈ items, item.DistinctKeys := by
  constructor
  · intro h item hitem members hwithin
    exact h members (.item items item hitem hwithin)
  · intro h members hwithin
    cases hwithin with
    | item _ item hitem hwithin => exact h item hitem members hwithin

theorem distinctKeys_object_iff (members : List (String × Json)) :
    (Json.object members).DistinctKeys ↔
      (members.map Prod.fst).Nodup ∧ ∀ entry ∈ members, entry.2.DistinctKeys := by
  constructor
  · intro h
    exact ⟨h members .self, fun entry hentry inner hwithin =>
      h inner (.member members entry hentry hwithin)⟩
  · rintro ⟨hkeys, hvalues⟩ inner hwithin
    cases hwithin with
    | self => exact hkeys
    | member _ entry hentry hwithin => exact hvalues entry hentry inner hwithin

theorem distinctKeys_object_of_nodup (members : List (String × Json))
    (hkeys : (members.map Prod.fst).Nodup) :
    (Json.object members).DistinctKeys ↔ ∀ entry ∈ members, entry.2.DistinctKeys := by
  rw [distinctKeys_object_iff, and_iff_right hkeys]

/-- Floats under names that differ. -/
theorem distinctKeys_ofValues_iff (entries : List (String × Float)) :
    (Json.ofValues entries).DistinctKeys ↔ (entries.map Prod.fst).Nodup := by
  rw [Json.ofValues, distinctKeys_object_iff, List.map_map]
  refine and_iff_left fun entry hentry => ?_
  rcases List.mem_map.mp hentry with ⟨value, _, rfl⟩
  exact distinctKeys_ofFloat value.2

end Json

/-! ## The parts of a payload -/

open Json

theorem LabelCounts.distinctKeys (c : LabelCounts) : c.toJson.DistinctKeys := by
  rw [LabelCounts.toJson, distinctKeys_object_iff]
  refine ⟨show ["True", "False"].Nodup by decide, ?_⟩
  simp only [List.forall_mem_cons, distinctKeys_ofNat, List.not_mem_nil, false_imp_iff,
    implies_true, and_self]

theorem DataPoints.distinctKeys (d : DataPoints) : d.toJson.DistinctKeys := by
  rw [DataPoints.toJson, distinctKeys_object_iff]
  refine ⟨show ["all", "train", "test", "predict"].Nodup by decide, ?_⟩
  simp only [List.forall_mem_cons, distinctKeys_ofNat, LabelCounts.distinctKeys, List.not_mem_nil,
    false_imp_iff, implies_true, and_self]

theorem StageError.distinctKeys (e : StageError) : e.toJson.DistinctKeys := by
  rw [StageError.toJson, distinctKeys_object_iff]
  refine ⟨show ["stage", "message"].Nodup by decide, ?_⟩
  simp only [List.forall_mem_cons, distinctKeys_text, List.not_mem_nil, false_imp_iff,
    implies_true, and_self]

theorem HyperParameters.distinctKeys (p : HyperParameters) : p.toJson.DistinctKeys := by
  rw [HyperParameters.toJson, distinctKeys_object_iff]
  refine ⟨show ["n_estimators", "max_depth", "random_state"].Nodup by decide, ?_⟩
  simp only [List.forall_mem_cons, distinctKeys_ofNat, distinctKeys_ofOption, List.not_mem_nil,
    false_imp_iff, implies_true, and_self]

theorem ClassMetrics.distinctKeys (m : ClassMetrics Float) : m.toJson.DistinctKeys := by
  rw [ClassMetrics.toJson, distinctKeys_object_iff]
  refine ⟨show ["precision", "recall", "f1-score", "support"].Nodup by decide, ?_⟩
  simp only [List.forall_mem_cons, distinctKeys_ofNat, distinctKeys_ofFloat, List.not_mem_nil,
    false_imp_iff, implies_true, and_self]

theorem ModelMedians.distinctKeys_iff (m : ModelMedians) :
    m.toJson.DistinctKeys ↔
      ∀ v ∈ [m.all, m.buggy, m.clean], (v.entries.map Prod.fst).Nodup := by
  rw [ModelMedians.toJson, distinctKeys_object_of_nodup]
  · simp only [List.forall_mem_cons, NamedValues.toJson, distinctKeys_ofValues_iff,
      List.not_mem_nil, false_imp_iff, implies_true]
  · exact show ["all", "buggy", "clean"].Nodup by decide

theorem ModelReport.distinctKeys_iff (r : ModelReport) :
    r.toJson.DistinctKeys ↔ (r.importances.map Prod.fst).Nodup := by
  rw [ModelReport.toJson, distinctKeys_object_of_nodup]
  · simp only [Report.members, List.forall_mem_append, List.forall_mem_cons, distinctKeys_text,
      HyperParameters.distinctKeys, distinctKeys_ofValues_iff, distinctKeys_ofFloat,
      ClassMetrics.distinctKeys, List.not_mem_nil, false_imp_iff, implies_true, and_true, true_and]
  · exact show ["format", "params", "feature_importance", "medians_score", "accuracy", "buggy",
      "clean", "macro_avg", "weighted_avg"].Nodup by decide

/-- Steps and columns that come once each. -/
def QuantileTable.NamesOnce (t : QuantileTable) : Prop :=
  (t.map Prod.fst).Nodup ∧ ∀ entry ∈ t, (entry.2.map Prod.fst).Nodup

theorem QuantileTable.distinctKeys_iff (t : QuantileTable) :
    t.toJson.DistinctKeys ↔ t.NamesOnce := by
  rw [QuantileTable.toJson, distinctKeys_object_iff, List.map_map, List.forall_mem_map]
  simp only [distinctKeys_ofValues_iff]
  rfl

theorem Quantiles.distinctKeys_iff (q : Quantiles) :
    q.toJson.DistinctKeys ↔
      ∀ t ∈ [q.commit, q.file, q.developer], QuantileTable.NamesOnce t := by
  rw [Quantiles.toJson, distinctKeys_object_of_nodup]
  · simp only [List.forall_mem_cons, QuantileTable.distinctKeys_iff, List.not_mem_nil,
      false_imp_iff, implies_true]
  · exact show ["commit", "file", "developer"].Nodup by decide

/-- The names of an attribution are those of its dimensions and two of its own. -/
theorem Attribution.distinctKeys_iff (a : Attribution Float) :
    a.toJson.DistinctKeys ↔
      (a.contributions.map Prod.fst ++ ["score", "commit_id"]).Nodup := by
  rw [Attribution.toJson, distinctKeys_object_iff, List.map_append, List.map_map]
  refine and_iff_left ?_
  simp only [List.forall_mem_append, List.forall_mem_map, List.forall_mem_cons,
    distinctKeys_ofFloat, distinctKeys_text, List.not_mem_nil, false_imp_iff, implies_true,
    and_self]

/-! ## The payload -/

namespace Output

theorem sublist_optionalMember {α : Type} (name : String) (f : α → Json) (x : Option α) :
    ((optionalMember name f x).map Prod.fst).Sublist [name] := by
  cases x with
  | none => exact List.nil_sublist _
  | some x => exact List.Sublist.refl _

theorem distinctKeys_optionalMember {α : Type} (name : String) (f : α → Json) (x : Option α) :
    (∀ entry ∈ optionalMember name f x, entry.2.DistinctKeys) ↔
      ∀ value, x = some value → (f value).DistinctKeys := by
  cases x with
  | none => exact iff_of_true (fun _ h => absurd h List.not_mem_nil) nofun
  | some x =>
      rw [optionalMember, Option.map_some, Option.toList_some, List.forall_mem_singleton]
      simp only [Option.some.injEq, forall_eq']

/-- No part of a payload comes twice, whichever of them are there. -/
theorem nodup_members (o : Output) :
    (["is_built", "is_predicted", "status", "confidence"]
      ++ (optionalMember "error" StageError.toJson o.error).map Prod.fst
      ++ (optionalMember "data_points" DataPoints.toJson o.dataPoints).map Prod.fst
      ++ (optionalMember "model_report" ModelReport.toJson o.report).map Prod.fst
      ++ (optionalMember "medians" ModelMedians.toJson o.medians).map Prod.fst
      ++ (optionalMember "quantiles" Quantiles.toJson o.quantiles).map Prod.fst
      ++ (optionalMember "prediction" (fun rows => .array (rows.map Attribution.toJson))
          o.prediction).map Prod.fst).Nodup := by
  have hall : (["is_built", "is_predicted", "status", "confidence"] ++ ["error"]
      ++ ["data_points"] ++ ["model_report"] ++ ["medians"] ++ ["quantiles"]
      ++ ["prediction"]).Nodup := by decide
  refine hall.sublist ?_
  repeat refine List.Sublist.append ?_ (sublist_optionalMember _ _ _)
  exact List.Sublist.refl _

/-- A payload has distinct keys exactly if the parts with names from outside have. -/
theorem distinctKeys_iff (o : Output) :
    o.toJson.DistinctKeys ↔
      (∀ r, o.report = some r → r.toJson.DistinctKeys) ∧
      (∀ m, o.medians = some m → m.toJson.DistinctKeys) ∧
      (∀ q, o.quantiles = some q → q.toJson.DistinctKeys) ∧
      ∀ rows, o.prediction = some rows → ∀ a ∈ rows, a.toJson.DistinctKeys := by
  rw [toJson, distinctKeys_object_of_nodup]
  · simp only [List.forall_mem_append, List.forall_mem_cons, distinctKeys_optionalMember,
      distinctKeys_bool, distinctKeys_text, distinctKeys_ofFloat, StageError.distinctKeys,
      DataPoints.distinctKeys, distinctKeys_array_iff, List.forall_mem_map, List.not_mem_nil,
      false_imp_iff, implies_true, and_true, true_and, and_assoc]
  · simp only [List.map_append]
    exact o.nodup_members

end Output

end CommitRisk
