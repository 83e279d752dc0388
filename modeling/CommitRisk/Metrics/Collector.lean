import CommitRisk.Commit
import CommitRisk.Metrics.Quantiles

/-!
# Collecting Metrics

A collector asks a source for the tables of one repository and reads them. It
keeps the table of all commits once it is told to, and gives that table back
without asking again until it is told to forget it. The tables by file and by
developer, and the commits of a range of jobs, are asked for every time.

Every operation takes the collector as it is and gives it back as it is
afterwards, with a list of the requests made.

## Main definitions

* `Collector`: What is collected, and what is kept.
* `Collector.fetchTable`: One request.
* `Collector.allCommits`: The table of all commits.
* `Collector.jobCommits`, `Collector.fileMetrics`, `Collector.developerMetrics`:
  The other tables.
* `Collector.quantiles`: Quantiles of all three tables.
* `Collector.forget`: The collector without the table it keeps.
-/

namespace CommitRisk

/-- What is collected: for which jobs and at which quantile steps, the table of
    all commits if it is kept, and the requests made so far, latest first. -/
structure Collector where
  jobs : JobFilter
  steps : List Float
  cached : Option Table
  requests : List Request

namespace Collector

/-- A collector that has not asked for anything. -/
def ofJobs (jobs : JobFilter) (steps : List Float) : Collector :=
  ⟨jobs, steps, none, []⟩

/-- Asks for a table and reads it. -/
def fetchTable (source : Source) (request : Request) (c : Collector) :
    Except FetchError Table × Collector :=
  let after := { c with requests := request :: c.requests }
  match source c.requests.length request with
  | .error e => (.error e, after)
  | .ok text => match Table.parse text with
    | .error e => (.error (.table e), after)
    | .ok table => (.ok table, after)

/-- Every commit up to the last job, from the table that is kept if there is
    one. -/
def allCommits (source : Source) (keep : Bool) (c : Collector) :
    Except FetchError Table × Collector :=
  match c.cached with
  | some table => (.ok table, c)
  | none =>
      match c.fetchTable source ⟨.commits, c.jobs.upToLast⟩ with
      | (.error e, c) => (.error e, c)
      | (.ok table, c) => (.ok table, if keep then { c with cached := some table } else c)

/-- The commits of the range of jobs. -/
def jobCommits (source : Source) (c : Collector) : Except FetchError Table × Collector :=
  c.fetchTable source ⟨.commits, c.jobs⟩

/-- The metrics added up by file. -/
def fileMetrics (source : Source) (c : Collector) : Except FetchError Table × Collector :=
  c.fetchTable source ⟨.files, .all⟩

/-- The metrics added up by developer. -/
def developerMetrics (source : Source) (c : Collector) : Except FetchError Table × Collector :=
  c.fetchTable source ⟨.developers, .all⟩

/-- The collector without the table it keeps. -/
def forget (c : Collector) : Collector :=
  { c with cached := none }

/-- The columns of the commit table that are no metrics. -/
def recordColumns : List String :=
  [idColumn, dateColumn, labelColumn]

/-- Quantiles of all three tables. The table of all commits is kept, and the
    quantiles of one table are worked out before the next one is asked for. -/
def quantiles (source : Source) (c : Collector) : Except FetchError Quantiles × Collector :=
  match c.allCommits source true with
  | (.error e, c) => (.error e, c)
  | (.ok commits, c) =>
    match quantileTable c.steps recordColumns commits with
    | .error e => (.error e, c)
    | .ok commit =>
      match c.fileMetrics source with
      | (.error e, c) => (.error e, c)
      | (.ok files, c) =>
        match quantileTable c.steps [] files with
        | .error e => (.error e, c)
        | .ok file =>
          match c.developerMetrics source with
          | (.error e, c) => (.error e, c)
          | (.ok developers, c) =>
            match quantileTable c.steps [] developers with
            | .error e => (.error e, c)
            | .ok developer => (.ok ⟨commit, file, developer⟩, c)

end Collector

end CommitRisk
