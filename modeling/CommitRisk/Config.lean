import CommitRisk.Files
import CommitRisk.Number.Checked
import CommitRisk.Number.Format
import CommitRisk.Stats
import CommitRisk.Toml.Reader

/-!
# Configuration

What a run can be told about preparing, splitting and judging its data. Every
setting has a default, and a TOML file may give any of them; a key that is no
setting is ignored. The settings are checked one after the other, and the first
that is out of range is reported. Of the length of the prediction window only the
sign is checked, so a window may be longer than its seconds can be counted.

## Main definitions

* `Config`: The settings.
* `Config.default`: The settings of a run that is told nothing.
* `Config.ignoredSeconds`: The length of the prediction window, if it can be counted.
* `ConfigFault`, `Config.fault?`: The first setting that is out of range.
* `ConfigError`: Why there is no configuration.
* `Config.ofToml?`, `Config.load`: The settings in a document and in a file.
-/

namespace CommitRisk

/-- The settings of a run. -/
structure Config where
  /-- The most rows a model is trained and tested on. -/
  maxTrainingRows : Nat
  /-- The length of the prediction window in days. -/
  ignoredDays : Int64
  /-- The share of the rows that is held out for the test. -/
  testSize : Float
  splitSeed : UInt64
  /-- The shares at which quantiles are reported. -/
  quantileSteps : List Float
  /-- The score from which on a commit is taken to be buggy. -/
  decisionThreshold : Float

/-- What is out of range. -/
inductive ConfigFault where
  | noTrainingRows
  | negativeDays (days : Int64)
  | testSize (value : Float)
  | quantileStep (value : Float)
  | threshold (value : Float)
deriving DecidableEq, Repr

/-- The message of a configuration fault. -/
def ConfigFault.message : ConfigFault → String
  | .noTrainingRows => "max_training_rows must be >= 1"
  | .negativeDays days => s!"ignored_days must be non-negative, got {days.toInt}"
  | .testSize x => s!"test_size must be in (0, 1), got {plainText x}"
  | .quantileStep x => s!"quantile steps must be in [0, 1], got {plainText x}"
  | .threshold x => s!"decision_threshold must be in [0, 1], got {plainText x}"

/-- Why there is no configuration. -/
inductive ConfigError where
  | read (path : String) (error : FileError)
  | parse
  | invalid (fault : ConfigFault)
deriving DecidableEq, Repr

/-- The message of a configuration error. -/
def ConfigError.message : ConfigError → String
  | .read path e => s!"Failed to read config file {path}: {e.message}"
  | .parse => "Failed to parse config file: TOML parse error"
  | .invalid fault => s!"Invalid configuration: {fault.message}"

namespace Config

/-- The settings of a run that is told nothing. -/
def default : Config where
  maxTrainingRows := 10000
  ignoredDays := 90
  testSize := 0.1
  splitSeed := 42
  quantileSteps := [0.5, 0.75, 0.9]
  decisionThreshold := 0.5

/-- The length of the prediction window in seconds. -/
def ignoredSeconds (c : Config) : Except Overflow Int64 :=
  checkedMul c.ignoredDays 86400

/-- The first setting that is out of range. -/
def fault? (c : Config) : Option ConfigFault :=
  if c.maxTrainingRows = 0 then some .noTrainingRows
  else if c.ignoredDays < 0 then some (.negativeDays c.ignoredDays)
  else if !(decide (0.0 < c.testSize) && decide (c.testSize < 1.0)) then
    some (.testSize c.testSize)
  else match c.quantileSteps.find? fun q => !isShare q with
    | some q => some (.quantileStep q)
    | none =>
        if !isShare c.decisionThreshold then some (.threshold c.decisionThreshold) else none

/-- The settings if all of them are in range. -/
def validate (c : Config) : Except ConfigError Config :=
  match c.fault? with
  | some fault => .error (.invalid fault)
  | none => .ok c

/-- A count as the value of a setting. -/
def countOf? : Toml → Option Nat
  | .integer n => if 0 ≤ n then some n.toNat else none
  | _ => none

/-- A number as the value of a setting, for which an integer does too. -/
def numberOf? : Toml → Option Float
  | .float x => some x
  | .integer n => some (Float.ofInt n)
  | _ => none

/-- An integer as the value of a setting. -/
def integerOf? : Toml → Option Int64
  | .integer n => some (Int64.ofInt n)
  | _ => none

/-- A list of numbers as the value of a setting. -/
def numbersOf? : Toml → Option (List Float)
  | .array items => items.mapM numberOf?
  | _ => none

/-- The value of a setting, its default if the document does not give it, and
    nothing if it gives a value of another kind. -/
def setting? (entries : Toml.Entries) (key : String) (read : Toml → Option α) (byDefault : α) :
    Option α :=
  match entries.lookup key with
  | none => some byDefault
  | some value => read value

/-- The settings in a document. -/
def ofToml? (entries : Toml.Entries) : Option Config := do
  let rows ← setting? entries "max_training_rows" countOf? default.maxTrainingRows
  let days ← setting? entries "ignored_days" integerOf? default.ignoredDays
  let testSize ← setting? entries "test_size" numberOf? default.testSize
  let seed ← setting? entries "split_seed" countOf? default.splitSeed.toNat
  let steps ← setting? entries "quantile_steps" numbersOf? default.quantileSteps
  let threshold ← setting? entries "decision_threshold" numberOf? default.decisionThreshold
  return ⟨rows, days, testSize, UInt64.ofNat seed, steps, threshold⟩

/-- The settings in a file, all of them in range. -/
def load (files : Files) (path : String) : Except ConfigError Config :=
  match files.readText path with
  | .error e => .error (.read path e)
  | .ok text => match (Toml.parse? text).bind ofToml? with
    | none => .error .parse
    | some c => c.validate

end Config

end CommitRisk
