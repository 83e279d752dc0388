import CommitRisk.Proofs.Exits
import CommitRisk.Proofs.KeptTables
import CommitRisk.Proofs.Replay

/-!
# The Table a Build Leaves

A build has the commit table kept while it collects, and forgets it once it has handed
it on. Collecting can fail between the two: the commit table is there, and then one of
the other tables cannot be had or a quantile cannot be worked out. Such a build ends
before the table is forgotten, and the collector still has it.

That is the only way. Every build that gets past collecting leaves no table, however it
ends, and a build that could not have the commit table has nothing to leave.

What is left decides what the next build on the collector asks for. The requests for
commits that are on its log, `commitRequests`, become one more if no table was left, and
no more if one was: then the next build works with the table of the failed one, whatever
the source would answer by now.

## Main definitions

* `Collector.commitRequests`: The requests for commits.

## Theorems

* `cached_allCommits`, `cached_quantiles`: The table that is kept is the one handed out.
* `commitRequests_allCommits`, `commitRequests_quantiles`: When the commits are asked for.
* `failedIn_of_buildEnds`: The later stages do not fail in collecting.
* `build_cached`: The table a build leaves.
* `build_commitRequests`: The requests for commits that a build makes.
* `build_leaves_table_iff`: When a table is left, and what the next build makes of it.
* `failed_build_leaves_table`: A build that leaves one.
-/

namespace CommitRisk

namespace Collector

/-- The requests for commits that were made, latest first. -/
def commitRequests (c : Collector) : List Request :=
  c.requests.filter fun r => decide (r.resource = .commits)

variable (source : Source) (c : Collector)

/-- Whatever is asked for after the commits, if it is only other tables, adds nothing. -/
theorem commitRequests_of_later (c' : Collector) (later : List Request)
    (hlog : c'.requests = later ++ c.requests) (hothers : ∀ r ∈ later, r.resource ≠ .commits) :
    c'.commitRequests = c.commitRequests := by
  have hnone : later.filter (fun r => decide (r.resource = .commits)) = [] := by
    rw [List.filter_eq_nil_iff]
    intro r hr
    rw [decide_eq_true_eq]
    exact hothers r hr
  rw [commitRequests, commitRequests, hlog, List.filter_append, hnone, List.nil_append]

theorem cached_allCommits :
    (c.allCommits source true).2.cached = (c.allCommits source true).1.toOption := by
  cases hc : c.cached with
  | some table =>
      rw [allCommits_of_cached source true c table hc]
      exact hc
  | none =>
      rw [allCommits_of_none source true c hc]
      rfl

theorem commitRequests_allCommits (keep : Bool) :
    (c.allCommits source keep).2.commitRequests
      = (if c.cached.isSome then [] else [⟨.commits, c.jobs.upToLast⟩]) ++ c.commitRequests := by
  cases hc : c.cached with
  | some table =>
      rw [allCommits_of_cached source keep c table hc]
      rfl
  | none =>
      rw [allCommits_of_none source keep c hc]
      simp only [commitRequests, Option.isSome_none, Bool.false_eq_true, if_false]
      rfl

theorem cached_quantiles :
    (c.quantiles source).2.cached = (c.allCommits source true).1.toOption := by
  rcases quantiles_leaves source c with ⟨later, hleaves, _⟩
  rw [hleaves]
  exact cached_allCommits source c

theorem commitRequests_quantiles :
    (c.quantiles source).2.commitRequests
      = (if c.cached.isSome then [] else [⟨.commits, c.jobs.upToLast⟩]) ++ c.commitRequests := by
  rcases quantiles_leaves source c with ⟨later, hleaves, hothers⟩
  rw [← commitRequests_allCommits source c true]
  exact commitRequests_of_later _ _ later (by rw [hleaves]) hothers

theorem quantiles_jobs : (c.quantiles source).2.jobs = c.jobs := by
  rcases quantiles_leaves source c with ⟨later, hleaves, _⟩
  rw [hleaves]
  exact allCommits_jobs source true c

end Collector

namespace Pipeline

variable {p : Pipeline} {source : Source} {now : String} {chance : Chance} {path : String}
  {params : HyperParameters} {c : Collector} {files : Files} {built : Outcome}

theorem failedIn_of_buildEnds {table : Table} {q : Quantiles} {o : Output} {after : Files}
    (h : p.BuildEnds now chance path params table (Output.withQuantiles q) files o after) :
    o.failedIn ≠ some .quantileCalculation := by
  cases h <;> exact nofun

/-- A build leaves the collector as quantiles do if they fail, and forgets the table after
    them if they do not. -/
theorem build_collector (h : p.build source now chance path params c files = .ok built) :
    built.output.failedIn = some .quantileCalculation ∧
        built.collector = (c.quantiles source).2 ∨
      built.output.failedIn ≠ some .quantileCalculation ∧
        built.collector = (c.quantiles source).2.forget := by
  rcases build_ends h with
    ⟨e, left, hq, rfl⟩ | ⟨q, table, o, left, after, hq, _, hends, rfl⟩
  · exact .inl ⟨rfl, by rw [hq]⟩
  · refine .inr ⟨?_, by rw [hq]⟩
    rw [failedIn_finish]
    exact failedIn_of_buildEnds hends

/-- The table a build leaves: none, unless it failed while collecting. Then it is the
    commit table, if that could be had. -/
theorem build_cached (h : p.build source now chance path params c files = .ok built) :
    built.collector.cached
      = if built.output.failedIn = some .quantileCalculation then
          (c.allCommits source true).1.toOption
        else none := by
  rcases build_collector h with ⟨hfailed, hleft⟩ | ⟨hpast, hleft⟩
  · rw [if_pos hfailed, hleft, Collector.cached_quantiles]
  · rw [if_neg hpast, hleft]
    rfl

/-- A build asks for the commits once if no table is kept, and else not at all. -/
theorem build_commitRequests (h : p.build source now chance path params c files = .ok built) :
    built.collector.commitRequests
      = (if c.cached.isSome then [] else [⟨.commits, c.jobs.upToLast⟩]) ++ c.commitRequests := by
  rw [← Collector.commitRequests_quantiles source c]
  rcases build_collector h with ⟨_, hleft⟩ | ⟨_, hleft⟩
  · rw [hleft]
  · -- Forgetting the table leaves the log alone.
    rw [hleft]
    rfl

theorem build_jobs (h : p.build source now chance path params c files = .ok built) :
    built.collector.jobs = c.jobs := by
  rw [← Collector.quantiles_jobs source c]
  rcases build_collector h with ⟨_, hleft⟩ | ⟨_, hleft⟩
  · rw [hleft]
  · rw [hleft]
    rfl

end Pipeline

/-- When a build leaves its commit table in the collector, whatever the collector had kept
    before. It does so exactly if it failed while collecting and the commit table could be
    had all the same. The next build on the collector, with whatever settings and source,
    asks for the commits once more exactly if no table was left, and a table that was left
    is the one it is handed. -/
theorem build_leaves_table_iff (p : Pipeline) (source : Source) (now : String) (chance : Chance)
    (path : String) (params : HyperParameters) (collector : Collector) (files : Files)
    (built : Pipeline.Outcome)
    (hbuilt : p.build source now chance path params collector files = .ok built) :
    let left := built.collector
    (∀ table, left.cached = some table ↔
      built.output.failedIn = some .quantileCalculation ∧
        (collector.allCommits source true).1 = .ok table) ∧
    (∀ (p' : Pipeline) (source' : Source) (now' : String) (chance' : Chance) (path' : String)
      (params' : HyperParameters) (files' : Files) (next : Pipeline.Outcome),
      p'.build source' now' chance' path' params' left files' = .ok next →
        next.collector.commitRequests
          = (if left.cached.isSome then [] else [⟨.commits, collector.jobs.upToLast⟩])
            ++ left.commitRequests) ∧
    ∀ (source' : Source) (table : Table), left.cached = some table →
      left.allCommits source' true = (.ok table, left) := by
  intro left
  refine ⟨fun table => ?_, fun p' source' now' chance' path' params' files' next hnext => ?_,
    fun source' table h => Collector.allCommits_of_cached source' true left table h⟩
  · have hleft : left.cached = _ := Pipeline.build_cached hbuilt
    by_cases hfailed : built.output.failedIn = some .quantileCalculation
    · rw [hleft, if_pos hfailed, and_iff_right hfailed]
      cases (collector.allCommits source true).1 <;> simp [Except.toOption]
    · rw [hleft, if_neg hfailed]
      simp only [hfailed, reduceCtorEq, false_and]
  · rw [Pipeline.build_commitRequests hnext,
      show left.jobs = collector.jobs from Pipeline.build_jobs hbuilt]

/-- The commits and the table by file, but not the one by developer. -/
def partialSource : Source := fun _ request =>
  match request.resource with
  | .commits => .ok smallText
  | .files => .ok "path\n"
  | .developers => .error .missingAuth

/-- A build that fails for want of the table by developer. -/
def partialBuild : Pipeline.Outcome :=
  (smallPipeline.build partialSource "1700000000" fixedChance "m.apr" ⟨2, some 3, some 7⟩
    (.ofJobs .all []) .empty).toOption.get (by decide +kernel)

theorem partialBuild_eq :
    smallPipeline.build partialSource "1700000000" fixedChance "m.apr" ⟨2, some 3, some 7⟩
      (.ofJobs .all []) .empty = .ok partialBuild :=
  eq_ok_get _ _

set_option maxRecDepth 100000 in
theorem partialBuild_leaves_table :
    smallPipeline.build partialSource "1700000000" fixedChance "m.apr" ⟨2, some 3, some 7⟩
      (.ofJobs .all []) .empty = .ok partialBuild ∧
    partialBuild.output.failedIn = some .quantileCalculation ∧
    partialBuild.collector.cached = some smallTable ∧
    partialBuild.collector.allCommits smallSource true
      = (.ok smallTable, partialBuild.collector) := by
  have hfailed : partialBuild.output.failedIn = some .quantileCalculation := by decide +kernel
  have hall : ((Collector.ofJobs .all []).allCommits partialSource true).1 = .ok smallTable := by
    decide +kernel
  rcases build_leaves_table_iff smallPipeline partialSource "1700000000" fixedChance "m.apr"
    ⟨2, some 3, some 7⟩ (.ofJobs .all []) .empty partialBuild partialBuild_eq with
    ⟨hleft, _, hhanded⟩
  have hcached := (hleft smallTable).mpr ⟨hfailed, hall⟩
  exact ⟨partialBuild_eq, hfailed, hcached, hhanded smallSource smallTable hcached⟩

/-- The same repository later: all three tables, and other commits. -/
def laterSource : Source := fun _ request =>
  match request.resource with
  | .commits => .ok "commit_id,author_date,buggy,la,exp\nc,0,1,8,5\nd,1,0,2,4\ne,9,0,2,4\n"
  | _ => .ok "path\n"

/-- The next build on what is left. -/
def laterBuild : Pipeline.Outcome :=
  (smallPipeline.build laterSource "1700000000" fixedChance "m.apr" ⟨2, some 3, some 7⟩
    partialBuild.collector .empty).toOption.get (by decide +kernel)

set_option maxRecDepth 100000 in
/-- A build that fails for want of the table by developer leaves the commit table. The next
    one has all tables to ask for, but it does not ask for the commits and predicts those
    of the table that was left, which are no commits of the repository any more. -/
theorem failed_build_leaves_table :
    smallPipeline.build partialSource "1700000000" fixedChance "m.apr" ⟨2, some 3, some 7⟩
      (.ofJobs .all []) .empty = .ok partialBuild ∧
    smallPipeline.build laterSource "1700000000" fixedChance "m.apr" ⟨2, some 3, some 7⟩
      partialBuild.collector .empty = .ok laterBuild ∧
    partialBuild.collector.cached ≠ none ∧
    laterBuild.collector.commitRequests = partialBuild.collector.commitRequests ∧
    laterBuild.output.prediction.map (fun rows => rows.map Attribution.commit)
      = some ["w", "v"] := by
  have hruns : partialBuild.collector.cached.isSome = true ∧
      laterBuild.collector.commitRequests = partialBuild.collector.commitRequests ∧
      laterBuild.output.prediction.map (fun rows => rows.map Attribution.commit)
        = some ["w", "v"] := by
    decide +kernel
  exact ⟨partialBuild_eq, eq_ok_get _ _, Option.isSome_iff_ne_none.mp hruns.1, hruns.2⟩

end CommitRisk
