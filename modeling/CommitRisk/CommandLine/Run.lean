import CommitRisk.CommandLine.Help
import CommitRisk.Output.Payload
import CommitRisk.Output.Sheet
import CommitRisk.Pipeline

/-!
# A Run of the Program

What the program prints, with which code it ends and which files it leaves, as
a function of its arguments, the time of day, what chance draws and the files it
finds.

Arguments that cannot be read end the program with code two, and anything that
keeps a run from beginning ends it with code one. A run that has begun ends with
code zero, because its failures are part of its result, or has no result at all
and ends with code one hundred and one.

## Main definitions

* `RunError`: Why a run has no result.
* `CommandLine.perform`: The result of a run.
* `CommandLine.print`: What is printed for a result.
* `runProgram`: The whole program.
-/

namespace CommitRisk

/-- Why a run has no result: it does not begin, or it is stopped. -/
inductive RunError where
  | config (error : ConfigError)
  | source (error : FetchError)
  | noSource
  | params
  | medians
  | stopped (overflow : Overflow)
deriving DecidableEq, Repr

/-- The message of a run error. -/
def RunError.message : RunError → String
  | .config e => s!"Error: {e.message}"
  | .source e => s!"Error: {e.message}"
  | .noSource => "Error: Must specify either --data DIR or --ingest-url URL with --repo-id ID"
  | .params => "Error: Invalid --params JSON"
  | .medians => "Error: Invalid --medians JSON"
  | .stopped overflow => overflow.message

/-- The code that a program ends with after a run error. -/
def RunError.code : RunError → Nat
  | .stopped _ => 101
  | _ => 1

/-- What a program that has ended leaves behind. -/
structure Ended where
  code : Nat
  stdout : String
  stderr : String
  files : Files

/-- A member of a JSON object of numbers. -/
def readMedian? (member : String × Json) : Option (String × Float) :=
  match member.2 with
  | .number literal => (Json.float? literal).map fun x => (member.1, x)
  | _ => none

/-- The values of a JSON object of numbers. If a name comes twice, the last one
    counts. -/
def readMedians? (text : String) : Option (String → Option Float) :=
  match Json.parse? text with
  | some (.object members) =>
      (members.mapM readMedian?).map fun entries name => entries.reverse.lookup name
  | _ => none

namespace CommandLine

/-- The settings of the run. -/
def loadConfig (c : CommandLine) (files : Files) : Except RunError Config :=
  match c.config with
  | none => .ok .default
  | some path => match Config.load files path with
    | .ok config => .ok config
    | .error e => .error (.config e)

/-- Where the metrics of the run come from. -/
def chooseSource (c : CommandLine) (files : Files) : Except RunError Source :=
  match c.data, c.ingestUrl, c.repoId with
  | some directory, _, _ => .ok (directorySource files directory)
  | none, some url, some repo => match Service.ofAddress url repo c.auth with
    | .ok service => .ok service.offline
    | .error e => .error (.source e)
  | none, _, _ => .error .noSource

/-- The result of a run. -/
def perform (c : CommandLine) (now : String) (chance : Chance) (files : Files) :
    Except RunError (Output × Files) := do
  let config ← c.loadConfig files
  let source ← c.chooseSource files
  let collector := Collector.ofJobs ⟨c.startJob, c.lastJob⟩ config.quantileSteps
  let pipeline : Pipeline := ⟨.commitDefault, config⟩
  match c.command with
  | .build text path =>
      match text.elim (some HyperParameters.default) HyperParameters.parse? with
      | none => .error .params
      | some params =>
          match pipeline.build source now chance path params collector files with
          | .error overflow => .error (.stopped overflow)
          | .ok outcome => return (outcome.output, outcome.files)
  | .predict path text mediansScore =>
      match readMedians? text with
      | none => .error .medians
      | some medians =>
          let outcome := pipeline.predict source path medians mediansScore collector files
          return (outcome.output, outcome.files)

/-- What is printed for a result, on the output and beside it. A table has no
    room for a failure, which is printed beside it. -/
def print (c : CommandLine) (o : Output) : String × String :=
  match c.form with
  | .json => (o.text ++ "\n", "")
  | .csv =>
      let beside := match o.error with
        | some e => s!"error: {e.text}\n"
        | none => ""
      (writeSheet Schema.commitDefault.dimensionNames (o.prediction.getD []), beside)

end CommandLine

/-- The whole program. -/
def runProgram (args : List String) (now : String) (chance : Chance) (files : Files) : Ended :=
  match CommandLine.parse args with
  | .error (.help command long) => ⟨0, helpText command long, "", files⟩
  | .error .version => ⟨0, s!"{mainSpec.name} {release}\n", "", files⟩
  | .error .helpForMissing => ⟨2, "", helpText mainSpec.name false, files⟩
  | .error _ => ⟨2, "", "error: invalid arguments\n", files⟩
  | .ok c => match c.perform now chance files with
    | .error e => ⟨e.code, "", s!"{e.message}\n", files⟩
    | .ok (o, files) =>
        let (stdout, stderr) := c.print o
        ⟨0, stdout, stderr, files⟩

end CommitRisk
