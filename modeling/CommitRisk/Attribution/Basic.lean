import CommitRisk.Attribution.Redistribute
import CommitRisk.Medians
import CommitRisk.RiskModel

/-!
# Attribution

How much of a commit's risk each dimension accounts for.

The engine compares every commit with a baseline commit. For one dimension it
keeps the commit's values of that dimension, puts the baseline's values
everywhere else and asks the model for a score; the relative distance to the
baseline's own score is the lift of the dimension, and `redistribute` turns the
lifts of a commit into contributions to its score.

The model is asked for whole batches: one with the commits as they are and then
one for each dimension. `Engine.batches` lists them, and the answers are put
back together commit by commit.

## Main definitions

* `Attribution`: The score of a commit and what the dimensions contribute.
* `AttributionError`: Why commits cannot be attributed.
* `baselineOf`, `baselineOfMap`: The baseline of a list and of a map of values.
* `Engine`: A model with the baseline it is compared against.
* `Engine.batches`: The rows the model is asked about.
* `Engine.attributions`: The attributions of a batch of commits.
-/

namespace CommitRisk

/-- The score of one commit and the contributions of the dimensions to it, in
    the order of the schema. -/
structure Attribution (α : Type) where
  commit : String
  score : α
  contributions : List (String × α)

namespace Attribution

/-- The contribution of the first dimension with a name. -/
def contribution? (a : Attribution α) (dimension : String) : Option α :=
  a.contributions.lookup dimension

/-- The sum of all contributions. It starts from negative zero, which changes
    no value it is added to. -/
def total (a : Attribution Float) : Float :=
  (a.contributions.map Prod.snd).foldl (· + ·) (-0.0)

end Attribution

/-- Why commits cannot be attributed. -/
inductive AttributionError where
  | baselineWidth (expected actual : Nat)
  | missingBaselineFeature (feature : String)
  | rowWidth (commit : String) (expected actual : Nat)
  | predictionCount (expected actual : Nat)
  | inference (error : InferenceError)
deriving DecidableEq, Repr

/-- The message of an attribution error. -/
def AttributionError.message : AttributionError → String
  | .baselineWidth expected actual =>
      s!"Baseline has {actual} values, schema has {expected} features"
  | .missingBaselineFeature f => s!"Baseline is missing feature '{f}'"
  | .rowWidth commit expected actual =>
      s!"Commit '{commit}' has {actual} features, schema has {expected}"
  | .predictionCount expected actual =>
      s!"Model returned {actual} predictions for {expected} rows"
  | .inference e => s!"Model prediction failed: {e.message}"

/-- The baseline of values in column order. -/
def baselineOf (s : Schema) (values : List Float) : Except AttributionError NamedValues :=
  if values.length = s.width then .ok ⟨s.features.zip values⟩
  else .error (.baselineWidth s.width values.length)

/-- The baseline of values by feature name. Values for other names are not
    looked at. -/
def baselineOfMap (s : Schema) (values : String → Option Float) :
    Except AttributionError NamedValues := do
  let row ← s.features.mapM fun f => match values f with
    | some x => .ok x
    | none => .error (.missingBaselineFeature f)
  baselineOf s row

/-- A model with the schema of its rows, the baseline and the baseline's score. -/
structure Engine (α : Type) where
  model : RiskModel α
  schema : Schema
  baseline : NamedValues
  mediansScore : α
  baseline_width : baseline.entries.length = schema.width

namespace Engine

/-- The engine over a baseline, which has to be as wide as the schema. -/
def ofBaseline (model : RiskModel α) (schema : Schema) (baseline : NamedValues)
    (mediansScore : α) : Except AttributionError (Engine α) :=
  if h : baseline.entries.length = schema.width then
    .ok ⟨model, schema, baseline, mediansScore, h⟩
  else .error (.baselineWidth schema.width baseline.entries.length)

/-- The row of a commit, with missing metrics as not a number. -/
def row (s : Schema) (c : Commit) : Except AttributionError (List Float) :=
  if c.metrics.length = s.width then .ok (c.metrics.map fun m => m.getD Scalar.nan)
  else .error (.rowWidth c.id s.width c.metrics.length)

/-- A row with every value outside the mask replaced by the baseline's. -/
def holdAtBaseline (baseline : List Float) (mask : List Bool) (row : List Float) : List Float :=
  List.zipWith (fun (value, keep) base => if keep then value else base) (row.zip mask) baseline

/-- The batches the model is asked about, in order: the commits as they are,
    and for every dimension the commits with all else at the baseline. -/
def batches (e : Engine α) (commits : List Commit) :
    Except AttributionError (List (List (List Float))) := do
  let rows ← commits.mapM (row e.schema)
  return rows :: e.schema.masks.map fun mask =>
    rows.map (holdAtBaseline e.baseline.values mask)

/-- The scores of a batch, one for each of its rows. -/
def ask (e : Engine α) (rows : List (List Float)) : Except AttributionError (List α) :=
  match e.model.predict rows with
  | .error fault => .error (.inference fault)
  | .ok scores =>
      if scores.length = rows.length then .ok scores
      else .error (.predictionCount rows.length scores.length)

variable [Scalar α]

/-- How far a score is away from the baseline's, as a share of the latter. -/
def lift (e : Engine α) (score : α) : α :=
  (score - e.mediansScore) / e.mediansScore

/-- The attribution of a commit from its score and its scores by dimension. A
    baseline that scores zero leaves every lift undefined, and nothing is
    attributed. -/
def attributeOne (e : Engine α) (commit : String) (score : α) (byDimension : List α) :
    Attribution α :=
  let score := finiteOrZero score
  let contributions :=
    if Scalar.isZero e.mediansScore then byDimension.map fun _ => Scalar.ofNat 0
    else redistribute (byDimension.map e.lift) score
  ⟨commit, score, e.schema.dimensionNames.zip contributions⟩

/-- The attributions of commits from the scores of all batches. -/
def collect (e : Engine α) (commits : List Commit) (scores : List α)
    (byDimension : List (List α)) : List (Attribution α) :=
  (commits.zip scores).zipIdx.map fun ((commit, score), i) =>
    e.attributeOne commit.id score (byDimension.map fun column => column.getD i Scalar.nan)

/-- The attributions of a batch of commits, in input order. -/
def attributions (e : Engine α) (commits : List Commit) :
    Except AttributionError (List (Attribution α)) := do
  let batches ← e.batches commits
  let answers ← batches.mapM e.ask
  return e.collect commits (answers.headD []) answers.tail

/-- The batches up to and including the first one that the model fails on. -/
def asked (e : Engine α) : List (List (List Float)) → List (List (List Float))
  | [] => []
  | rows :: rest =>
      match e.ask rows with
      | .ok _ => rows :: asked e rest
      | .error _ => [rows]

/-- The rows that are handed to the model, in order. -/
def askedRows (e : Engine α) (commits : List Commit) : List (List Float) :=
  match e.batches commits with
  | .ok batches => (e.asked batches).flatten
  | .error _ => []

end Engine

end CommitRisk
