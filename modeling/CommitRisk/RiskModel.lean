/-!
# Risk Models

All that attribution and evaluation ask of a model is a score for every row of
a batch. A model may refuse the batch, and nothing is assumed about how the
answers depend on it; `RiskModel.ofRows` is the model that scores each row by
itself.

## Main definitions

* `RiskModel`: What scores a batch of rows.
* `InferenceError`: Why a model gives no scores.
* `RiskModel.ofRows`: The model of a function on rows.
* `RiskModel.predictOne`: The score of a single row.
* `firstOfOtherWidth?`: The first row of another width.
-/

namespace CommitRisk

/-- Why a model gives no scores. -/
inductive InferenceError where
  | widthMismatch (row expected actual : Nat)
  | emptyModel
  | misnamedColumns (width names : Nat)
  | noPrediction
deriving DecidableEq, Repr

/-- The message of an inference error. -/
def InferenceError.message : InferenceError → String
  | .widthMismatch row expected actual =>
      s!"Row {row} has {actual} features, model expects {expected}"
  | .emptyModel => "Model has no trees"
  | .misnamedColumns width names =>
      s!"Corrupt model: forest expects {width} features but {names} are named"
  | .noPrediction => "Corrupt model: no prediction returned"

/-- What scores a batch of rows in schema column order. A missing value stands
    in a row as not a number. -/
structure RiskModel (α : Type) where
  /-- The width of the rows the model was trained on. -/
  width : Nat
  predict : List (List Float) → Except InferenceError (List α)

namespace RiskModel

/-- The model that scores every row by itself. -/
def ofRows (width : Nat) (score : List Float → α) : RiskModel α where
  width := width
  predict rows := .ok (rows.map score)

/-- The score of a single row: the last one returned for a batch of that row. -/
def predictOne (m : RiskModel α) (row : List Float) : Except InferenceError α :=
  match m.predict [row] with
  | .error e => .error e
  | .ok scores => match scores.getLast? with
    | some score => .ok score
    | none => .error .noPrediction

end RiskModel

/-- The first row whose width is not the expected one, counted from `row`. -/
def firstOfOtherWidth? (expected : Nat) : Nat → List (List Float) → Option InferenceError
  | _, [] => none
  | row, cells :: rest =>
      if cells.length = expected then firstOfOtherWidth? expected (row + 1) rest
      else some (.widthMismatch row expected cells.length)

end CommitRisk
