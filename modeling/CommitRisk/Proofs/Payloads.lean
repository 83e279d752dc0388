import CommitRisk.Output.Payload
import CommitRisk.Proofs.JsonTexts
import CommitRisk.Proofs.Midpoints
import CommitRisk.Proofs.PrintedNumerals

/-!
# What a Payload Says

A payload is read as the tree it was written from, whatever texts and numbers are in it, because
all its literals are numerals. What the tree holds is said here once more without the functions
that make it: a `Shape` is what a value has to be, and the shape of a result names the members of
each object in their order, with the shapes of their values.

A text is there character for character. A finite float is the literal it is printed as, and any
other float is null. A part of the result that is not there has no member at all, while a
parameter that is left open is null.

## Main definitions

* `Shape`: What a value has to be.
* `Shape.float`, `Shape.object`, `Shape.present`: Floats, objects and members that may be missing.
* `Output.shape`: What the payload of a result has to be.
* `Json.Fits`: A value is what it has to be and can be written.

## Theorems

* `isSome_jsonText?`: The floats that are printed are the finite ones.
* `fits_ofFloat`, `fits_ofNat`: Numbers fit their shapes.
* `fits_object`, `fits_array`: So do containers of values that fit theirs.
* `Output.fits`: The payload is what it has to be.
* `Output.parse?_text`: What is printed is read as the payload.
-/

namespace CommitRisk

/-- What a value has to be. -/
abbrev Shape := Json → Prop

namespace Shape

def text (s : String) : Shape := fun j => j = .text s

def flag (b : Bool) : Shape := fun j => j = .bool b

/-- A count is its decimal digits. -/
def count (n : Nat) : Shape := fun j => j = .number (toString n)

/-- A finite float is the literal it is printed as, and any other is null. -/
def float (x : Float) : Shape := fun j =>
  if x.isFinite = true then ∃ literal, jsonText? x = some literal ∧ j = .number literal
  else j = .null

/-- A value that is left open is null. -/
def optional (f : α → Shape) : Option α → Shape
  | some x => f x
  | none => fun j => j = .null

/-- An array of values, each of its own shape. -/
def array (items : List Shape) : Shape := fun j =>
  ∃ values, j = .array values ∧ List.Forall₂ (fun shape value => shape value) items values

/-- An object with members of these names in this order, each of its own shape. -/
def object (fields : List (String × Shape)) : Shape := fun j =>
  ∃ members, j = .object members ∧
    List.Forall₂ (fun field member => member.1 = field.1 ∧ field.2 member.2) fields members

/-- Floats under their names. -/
def floats (entries : List (String × Float)) : Shape :=
  object (entries.map fun entry => (entry.1, float entry.2))

/-- The member of a part that may not be there. -/
def present (name : String) (f : α → Shape) : Option α → List (String × Shape)
  | some x => [(name, f x)]
  | none => []

end Shape

/-! ## The parts of a result -/

def LabelCounts.shape (c : LabelCounts) : Shape :=
  .object [("True", .count c.buggy), ("False", .count c.clean)]

def DataPoints.shape (d : DataPoints) : Shape :=
  .object [("all", .count d.all), ("train", d.train.shape), ("test", d.test.shape),
    ("predict", .count d.predict)]

def ModelMedians.shape (m : ModelMedians) : Shape :=
  .object [("all", .floats m.all.entries), ("buggy", .floats m.buggy.entries),
    ("clean", .floats m.clean.entries)]

def HyperParameters.shape (p : HyperParameters) : Shape :=
  .object [("n_estimators", .count p.estimators.toNat),
    ("max_depth", .optional (fun d => .count d.toNat) p.maxDepth),
    ("random_state", .optional (fun s => .count s.toNat) p.seed)]

def ClassMetrics.shape (m : ClassMetrics Float) : Shape :=
  .object [("precision", .float m.precision), ("recall", .float m.sensitivity),
    ("f1-score", .float m.f1), ("support", .count m.support)]

/-- The figures of a report stand beside the other members of a model's report. -/
def ModelReport.shape (r : ModelReport) : Shape :=
  .object [("format", .text r.format), ("params", r.params.shape),
    ("feature_importance", .floats r.importances), ("medians_score", .float r.mediansScore),
    ("accuracy", .float r.classification.accuracy), ("buggy", r.classification.buggy.shape),
    ("clean", r.classification.clean.shape), ("macro_avg", r.classification.macroAvg.shape),
    ("weighted_avg", r.classification.weightedAvg.shape)]

def StageError.shape (e : StageError) : Shape :=
  .object [("stage", .text e.stage.name), ("message", .text e.message)]

/-- Under every printed step the columns. -/
def QuantileTable.shape (t : QuantileTable) : Shape :=
  .object (t.map fun entry => (entry.1, .floats entry.2))

def Quantiles.shape (q : Quantiles) : Shape :=
  .object [("commit", QuantileTable.shape q.commit), ("file", QuantileTable.shape q.file),
    ("developer", QuantileTable.shape q.developer)]

/-- The contributions in order, followed by the score and the commit. -/
def Attribution.shape (a : Attribution Float) : Shape :=
  .object ((a.contributions.map fun entry => (entry.1, .float entry.2)) ++
    [("score", .float a.score), ("commit_id", .text a.commit)])

/-- What the payload of a result has to be. -/
def Output.shape (o : Output) : Shape :=
  .object ([("is_built", .flag o.isBuilt), ("is_predicted", .flag o.isPredicted),
      ("status", .text o.status.name), ("confidence", .float o.confidence)]
    ++ Shape.present "error" StageError.shape o.error
    ++ Shape.present "data_points" DataPoints.shape o.dataPoints
    ++ Shape.present "model_report" ModelReport.shape o.report
    ++ Shape.present "medians" ModelMedians.shape o.medians
    ++ Shape.present "quantiles" Quantiles.shape o.quantiles
    ++ Shape.present "prediction" (fun rows => .array (rows.map Attribution.shape)) o.prediction)

/-! ## Values that fit -/

/-- A value is what it has to be, and its literals are numerals. -/
structure Json.Fits (j : Json) (shape : Shape) : Prop where
  shaped : shape j
  writable : Json.Writable j

/-- The floats that are printed are the finite ones. -/
theorem isSome_jsonText? (x : Float) : (jsonText? x).isSome = x.isFinite := by
  have hfinite : x.isFinite = x.toModel.unpack.isFinite := rfl
  rw [jsonText?, Binary.ofFloat_eq, hfinite]
  cases x.toModel.unpack <;> rfl

theorem isNumeral_jsonText? (x : Float) (literal : String) (h : jsonText? x = some literal) :
    Json.isNumeral literal.toList = true := by
  unfold jsonText? at h
  split at h
  · cases h
    rw [String.toList_ofList]
    exact Json.isNumeral_finite _ _ _
  · cases h

theorem fits_ofFloat (x : Float) : (Json.ofFloat x).Fits (.float x) := by
  have hsome := isSome_jsonText? x
  unfold Json.ofFloat
  cases hx : jsonText? x with
  | none =>
      rw [hx] at hsome
      refine ⟨?_, .null⟩
      rw [Shape.float, ← hsome]
      rfl
  | some literal =>
      rw [hx] at hsome
      refine ⟨?_, .number literal (isNumeral_jsonText? x literal hx)⟩
      rw [Shape.float, ← hsome]
      exact ⟨literal, hx, rfl⟩

theorem fits_ofNat (n : Nat) : (Json.ofNat n).Fits (.count n) := by
  refine ⟨?_, .number _ ?_⟩
  · rw [Shape.count, Json.ofNat, NumberFormat.digitsOf, Nat.toString_eq_ofList_toDigits]
  · rw [String.toList_ofList]
    exact Json.isNumeral_digitsOf n

theorem fits_text (s : String) : (Json.text s).Fits (.text s) :=
  ⟨rfl, .text s⟩

theorem fits_flag (b : Bool) : (Json.bool b).Fits (.flag b) :=
  ⟨rfl, .bool b⟩

/-! ## Containers -/

/-- Members have the names of the fields and fit them. -/
def FitFields (fields : List (String × Shape)) (members : List (String × Json)) : Prop :=
  List.Forall₂ (fun field member => member.1 = field.1 ∧ member.2.Fits field.2) fields members

theorem fits_object {fields : List (String × Shape)} {members : List (String × Json)}
    (h : FitFields fields members) : (Json.object members).Fits (.object fields) := by
  refine ⟨⟨members, rfl, h.imp fun _ _ hmember => ⟨hmember.1, hmember.2.shaped⟩⟩,
    .object members fun member hmember => ?_⟩
  rcases List.mem_iff_get.mp hmember with ⟨i, rfl⟩
  have hfield : i.val < fields.length := by
    rw [h.length_eq]
    exact i.isLt
  exact ((List.forall₂_iff_get.mp h).2 i hfield i.isLt).2.writable

theorem FitFields.append {fields fields' : List (String × Shape)}
    {members members' : List (String × Json)} (h : FitFields fields members)
    (h' : FitFields fields' members') : FitFields (fields ++ fields') (members ++ members') :=
  List.rel_append h h'

section Fields

variable {α : Type} {shape : α → Shape} {json : α → Json}

/-- Members that are made alike fit fields that are made alike. -/
theorem fitFields_map (name : α → String) (xs : List α) (h : ∀ x, (json x).Fits (shape x)) :
    FitFields (xs.map fun x => (name x, shape x)) (xs.map fun x => (name x, json x)) := by
  rw [FitFields, List.forall₂_map_left_iff, List.forall₂_map_right_iff]
  exact List.forall₂_same.mpr fun x _ => ⟨rfl, h x⟩

theorem fitFields_present (name : String) (x : Option α) (h : ∀ x, (json x).Fits (shape x)) :
    FitFields (Shape.present name shape x) (Output.optionalMember name json x) := by
  cases x with
  | none => exact .nil
  | some x => exact .cons ⟨rfl, h x⟩ .nil

theorem fits_ofOption (x : Option α) (h : ∀ x, (json x).Fits (shape x)) :
    (Json.ofOption json x).Fits (.optional shape x) := by
  cases x with
  | none => exact ⟨rfl, .null⟩
  | some x => exact h x

theorem fits_array (xs : List α) (h : ∀ x, (json x).Fits (shape x)) :
    (Json.array (xs.map json)).Fits (.array (xs.map shape)) := by
  refine ⟨⟨_, rfl, ?_⟩, .array _ fun item hitem => ?_⟩
  · rw [List.forall₂_map_left_iff, List.forall₂_map_right_iff]
    exact List.forall₂_same.mpr fun x _ => (h x).shaped
  · rcases List.mem_map.mp hitem with ⟨x, _, rfl⟩
    exact (h x).writable

end Fields

theorem fits_ofValues (entries : List (String × Float)) :
    (Json.ofValues entries).Fits (.floats entries) :=
  fits_object (fitFields_map Prod.fst entries fun entry => fits_ofFloat entry.2)

/-! ## The payload -/

theorem LabelCounts.fits (c : LabelCounts) : c.toJson.Fits c.shape :=
  fits_object (.cons ⟨rfl, fits_ofNat _⟩ (.cons ⟨rfl, fits_ofNat _⟩ .nil))

theorem DataPoints.fits (d : DataPoints) : d.toJson.Fits d.shape :=
  fits_object (.cons ⟨rfl, fits_ofNat _⟩ (.cons ⟨rfl, d.train.fits⟩
    (.cons ⟨rfl, d.test.fits⟩ (.cons ⟨rfl, fits_ofNat _⟩ .nil))))

theorem ModelMedians.fits (m : ModelMedians) : m.toJson.Fits m.shape :=
  fits_object (.cons ⟨rfl, fits_ofValues _⟩ (.cons ⟨rfl, fits_ofValues _⟩
    (.cons ⟨rfl, fits_ofValues _⟩ .nil)))

theorem HyperParameters.fits (p : HyperParameters) : p.toJson.Fits p.shape :=
  fits_object (.cons ⟨rfl, fits_ofNat _⟩
    (.cons ⟨rfl, fits_ofOption _ fun d => fits_ofNat d.toNat⟩
      (.cons ⟨rfl, fits_ofOption _ fun s => fits_ofNat s.toNat⟩ .nil)))

theorem ClassMetrics.fits (m : ClassMetrics Float) : m.toJson.Fits m.shape :=
  fits_object (.cons ⟨rfl, fits_ofFloat _⟩ (.cons ⟨rfl, fits_ofFloat _⟩
    (.cons ⟨rfl, fits_ofFloat _⟩ (.cons ⟨rfl, fits_ofNat _⟩ .nil))))

theorem ModelReport.fits (r : ModelReport) : r.toJson.Fits r.shape :=
  fits_object (.cons ⟨rfl, fits_text _⟩ (.cons ⟨rfl, r.params.fits⟩
    (.cons ⟨rfl, fits_ofValues _⟩ (.cons ⟨rfl, fits_ofFloat _⟩ (.cons ⟨rfl, fits_ofFloat _⟩
      (.cons ⟨rfl, r.classification.buggy.fits⟩ (.cons ⟨rfl, r.classification.clean.fits⟩
        (.cons ⟨rfl, r.classification.macroAvg.fits⟩
          (.cons ⟨rfl, r.classification.weightedAvg.fits⟩ .nil)))))))))

theorem StageError.fits (e : StageError) : e.toJson.Fits e.shape :=
  fits_object (.cons ⟨rfl, fits_text _⟩ (.cons ⟨rfl, fits_text _⟩ .nil))

theorem QuantileTable.fits (t : QuantileTable) : t.toJson.Fits t.shape :=
  fits_object (fitFields_map Prod.fst t fun entry => fits_ofValues entry.2)

theorem Quantiles.fits (q : Quantiles) : q.toJson.Fits q.shape :=
  fits_object (.cons ⟨rfl, QuantileTable.fits _⟩ (.cons ⟨rfl, QuantileTable.fits _⟩
    (.cons ⟨rfl, QuantileTable.fits _⟩ .nil)))

theorem Attribution.fits (a : Attribution Float) : a.toJson.Fits a.shape :=
  fits_object (FitFields.append
    (fitFields_map Prod.fst a.contributions fun entry => fits_ofFloat entry.2)
    (.cons ⟨rfl, fits_ofFloat _⟩ (.cons ⟨rfl, fits_text _⟩ .nil)))

/-- The payload of a result is what it has to be. -/
theorem Output.fits (o : Output) : o.toJson.Fits o.shape := by
  refine fits_object (FitFields.append (FitFields.append (FitFields.append (FitFields.append
    (FitFields.append (FitFields.append ?_ ?_) ?_) ?_) ?_) ?_) ?_)
  · exact .cons ⟨rfl, fits_flag _⟩ (.cons ⟨rfl, fits_flag _⟩ (.cons ⟨rfl, fits_text _⟩
      (.cons ⟨rfl, fits_ofFloat _⟩ .nil)))
  · exact fitFields_present "error" o.error StageError.fits
  · exact fitFields_present "data_points" o.dataPoints DataPoints.fits
  · exact fitFields_present "model_report" o.report ModelReport.fits
  · exact fitFields_present "medians" o.medians ModelMedians.fits
  · exact fitFields_present "quantiles" o.quantiles Quantiles.fits
  · exact fitFields_present "prediction" o.prediction fun rows => fits_array rows Attribution.fits

/-- What is printed is read as the payload. -/
theorem Output.parse?_text (o : Output) : Json.parse? o.text = some o.toJson :=
  Json.parse?_write .pretty o.toJson o.fits.writable

end CommitRisk
