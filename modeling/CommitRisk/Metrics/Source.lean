import CommitRisk.Files
import CommitRisk.Table
import CommitRisk.Stats

/-!
# Where Metrics Come From

A repository's metrics are three tables: one of its commits and two that add up
the metrics by file and by developer. A source supplies the text of a table on
request, and it may answer the same request differently the next time, so a
source is asked together with how many requests came before.

Two sources are known here: a directory with one file for each table, and a
service that is addressed by one URL for each table and wants to be given
authorization.

## Main definitions

* `Resource`, `JobFilter`, `Request`: What is asked for.
* `FetchError`: Why metrics cannot be had.
* `Source`: The answers to requests.
* `directorySource`: The tables in a directory.
* `Service`: The addresses of the tables at a service.
* `Service.addressOf`: The address of a table with a range of jobs.
-/

namespace CommitRisk

/-- A table of metrics. -/
inductive Resource where
  | commits
  | files
  | developers
deriving DecidableEq, Repr

/-- The name of a table's file. -/
def Resource.fileName : Resource → String
  | .commits => "metrics.csv"
  | .files => "file_aggregated_metrics.csv"
  | .developers => "developer_aggregated_metrics.csv"

/-- The range of jobs whose commits are asked for, either end of it open. -/
structure JobFilter where
  start : Option String
  last : Option String
deriving DecidableEq, Repr

namespace JobFilter

/-- Every job. -/
def all : JobFilter :=
  ⟨none, none⟩

/-- Every job up to the last one of a range. -/
def upToLast (f : JobFilter) : JobFilter :=
  ⟨none, f.last⟩

/-- The parameters that a range adds to an address. An end that is empty text
    adds none. -/
def queryPairs (f : JobFilter) : List (String × String) :=
  (f.start.filter fun s => !s.isEmpty).toList.map (("start_job", ·))
    ++ (f.last.filter fun s => !s.isEmpty).toList.map (("last_job", ·))

end JobFilter

/-- A table asked for, with the jobs it is to cover. -/
structure Request where
  resource : Resource
  filter : JobFilter
deriving DecidableEq, Repr

/-- Why metrics cannot be had. -/
inductive FetchError where
  | missingAuth
  | unreadable (path : String) (error : FileError)
  | unreachable (url : String)
  | table (error : TableError)
  | quantile (column : String) (error : StatError)
deriving DecidableEq, Repr

/-- The message of a fetch error. -/
def FetchError.message : FetchError → String
  | .missingAuth => "Missing authentication for the ingest service"
  | .unreadable path e => s!"Failed to read {path}: {e.message}"
  | .unreachable url => s!"HTTP request failed: error sending request for url ({url})"
  | .table e => s!"Malformed metrics table: {e.message}"
  | .quantile column e => s!"Quantile calculation failed for column '{column}': {e.message}"

/-- The answers to requests, each given the number of requests before it. -/
abbrev Source := Nat → Request → Except FetchError String

/-- The tables in a directory. The files cover all jobs, whichever are asked
    for. -/
def directorySource (files : Files) (directory : String) : Source := fun _ request =>
  let path := joinPath directory request.resource.fileName
  match files.readText path with
  | .ok text => .ok text
  | .error e => .error (.unreadable path e)

/-- A repository at a metrics service. -/
structure Service where
  repository : String
  auth : String
deriving DecidableEq, Repr

namespace Service

/-- The repository with an identifier at the service with an address. The
    authorization must not be blank, and one slash at the end of the address
    does not count. -/
def ofAddress (address repository : String) (auth : Option String) :
    Except FetchError Service :=
  match auth.filter fun a => !a.toList.all isBlank with
  | none => .error .missingAuth
  | some auth =>
      let base := if address.endsWith "/" then (address.dropEnd 1).toString else address
      .ok ⟨s!"{base}/repositories/{repository}", auth⟩

/-- The address of a table. -/
def urlOf (s : Service) (r : Resource) : String :=
  s!"{s.repository}/{r.fileName}"

/-- A byte of a parameter as an address has it: letters, digits and four marks
    stand for themselves, and a blank becomes a plus. -/
def encodeByte (b : UInt8) : List Char :=
  let c := Char.ofNat b.toNat
  if c.isAlphanum || c == '*' || c == '-' || c == '.' || c == '_' then [c]
  else if c == ' ' then ['+']
  else ['%', (Nat.digitChar (b.toNat / 16)).toUpper,
    (Nat.digitChar (b.toNat % 16)).toUpper]

/-- A parameter as an address has it. -/
def encodeParameter (text : String) : String :=
  String.ofList (text.toUTF8.toList.flatMap encodeByte)

/-- The address of a table with the range of jobs that is asked for. -/
def addressOf (s : Service) (r : Request) : String :=
  let pairs := r.filter.queryPairs.map fun (key, value) => key ++ "=" ++ encodeParameter value
  s.urlOf r.resource ++ if pairs.isEmpty then "" else "?" ++ "&".intercalate pairs

/-- The service as a source that nothing can be fetched from. -/
def offline (s : Service) : Source := fun _ request =>
  .error (.unreachable (s.addressOf request))

end Service

end CommitRisk
