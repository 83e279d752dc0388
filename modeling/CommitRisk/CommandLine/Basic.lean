import CommitRisk.CommandLine.Usage

/-!
# The Command Line

The options and the two subcommands of the program, and what a list of arguments
asks it to do.

## Main definitions

* `mainSpec`, `buildSpec`, `predictSpec`: The options.
* `CommandLine`: What the arguments ask for.
* `CommandLine.parse`: Reading the arguments.
-/

namespace CommitRisk

/-- The form in which a result is printed. -/
inductive OutputForm where
  | json
  | csv
deriving DecidableEq, Repr

/-- What the program is to do. -/
inductive Command where
  | build (params : Option String) (model : String)
  | predict (model medians : String) (mediansScore : Float)

/-- What the arguments ask for. -/
structure CommandLine where
  ingestUrl : Option String
  repoId : Option String
  startJob : Option String
  lastJob : Option String
  auth : Option String
  data : Option String
  config : Option String
  form : OutputForm
  debug : Bool
  command : Command

/-- An option with a value. -/
def valueOption (name : String) (kind : ValueKind) (valueName about : String) : OptionSpec :=
  ⟨name, some kind, false, false, none, valueName, about⟩

/-- The same option, which has to be given. -/
def OptionSpec.mustBeGiven (o : OptionSpec) : OptionSpec :=
  { o with required := true }

/-- The words for the forms of output. -/
def outputForms : ValueKind :=
  .oneOf [("json", "Full result payload as JSON (default)"), ("csv", "Attribution rows as CSV")]

/-- The options in front of the subcommand. -/
def mainSpec : CommandSpec where
  name := "faultline"
  about := "Commit defect-risk model builder with per-dimension risk attribution"
  options := [
    valueOption "ingest-url" .text "URL" "Base URL of the ingest service",
    valueOption "repo-id" .text "ID" "Repository identifier",
    valueOption "start-job-id" .text "JOB" "First job whose commits are predicted",
    valueOption "last-job-id" .text "JOB" "Last job whose commits are included",
    valueOption "auth" .text "AUTH" "Authorization header value (e.g., \"Bearer <token>\")",
    valueOption "data" .path "DIR"
      "Read metric CSV files from a local directory instead of the ingest service",
    valueOption "config" .path "PATH" "Pipeline configuration file (TOML)",
    { valueOption "format" outputForms "FORMAT" "Output format (json or csv)" with
      byDefault := some "json" },
    ⟨"debug", none, false, false, none, "", "Enable debug tracing output (to stderr)"⟩]
  subcommands := ["build", "predict"]
  tellsVersion := true

/-- The options of the subcommand that builds a model. -/
def buildSpec : CommandSpec where
  name := "build"
  about := "Train and export a model, then predict the newest commits"
  options := [
    valueOption "params" .text "JSON" "Forest hyper-parameters as a JSON object",
    (valueOption "model" .path "PATH" "Path the exported model is written to").mustBeGiven]
  subcommands := []
  tellsVersion := false

/-- The options of the subcommand that predicts with a model. -/
def predictSpec : CommandSpec where
  name := "predict"
  about := "Predict job commits with a previously exported model"
  options := [
    (valueOption "model" .path "PATH" "Exported model file").mustBeGiven,
    (valueOption "medians" .text "JSON"
      "Baseline medians as a JSON object (feature -> value)").mustBeGiven,
    { valueOption "medians-score" .number "SCORE"
        "Model probability for the baseline commit" with allowsNegative := true, required := true }]
  subcommands := []
  tellsVersion := false

/-- Reads all arguments of a subcommand. -/
def readSubcommand (c : CommandSpec) (args : List String) : Except UsageError Given := do
  let (g, _) ← readOptions c false .none args
  let g ← g.settle
  c.checkRequired g
  return g

/-- Reads a subcommand by its name. -/
def readCommand (name : String) (args : List String) : Except UsageError Command :=
  if name == "build" then
    (readSubcommand buildSpec args).map fun g =>
      .build (g.get? "params") ((g.get? "model").getD "")
  else
    (readSubcommand predictSpec args).map fun g =>
      .predict ((g.get? "model").getD "") ((g.get? "medians").getD "")
        (((g.get? "medians-score").bind fun s => readFloat s.toList).getD 0.0)

/-- What the options in front of a subcommand and the subcommand ask for. -/
def CommandLine.ofGiven (g : Given) (command : Command) : CommandLine where
  ingestUrl := g.get? "ingest-url"
  repoId := g.get? "repo-id"
  startJob := g.get? "start-job-id"
  lastJob := g.get? "last-job-id"
  auth := g.get? "auth"
  data := g.get? "data"
  config := g.get? "config"
  form := if g.get? "format" == some "csv" then .csv else .json
  debug := g.has "debug"
  command := command

/-- What a list of arguments asks for. The subcommand is read to its end before
    the last option in front of it is looked at. -/
def CommandLine.parse (args : List String) : Except UsageError CommandLine := do
  let (g, sub) ← readOptions mainSpec false .none args
  match sub with
  | none =>
      let g ← g.settle
      if g.values.isEmpty then .error .helpForMissing else .error .missingSubcommand
  | some (name, rest) =>
      let command ← readCommand name rest
      let g ← g.settle
      if g.has "data" && g.has "ingest-url" then .error .conflict
      else return .ofGiven g command

end CommitRisk
