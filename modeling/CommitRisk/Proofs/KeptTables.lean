import CommitRisk.Proofs.Collection
import Mathlib.Data.List.Induction

/-!
# When the Commit Table Is Kept

A collector is called again and again, and the source may answer differently every
time or not at all. The statements here are about any sequence of calls, with
failures anywhere in it.

The requests of a collector are a log, so what a call obtained can be read off the
log: `Obtains` says that a request for the commits was made during the call and was
answered with a table. Whether a table is kept is then a matter of the calls since
the last one that forgets. It is kept exactly if one of them was to keep what it
obtained, and it is the table obtained then.

## Main definitions

* `Call`, `Collector.afterCall`, `Collector.afterCalls`: What is done to a collector.
* `Collector.Obtains`: A call was answered with a table of commits.
* `Collector.KeptSinceForget`: A call that keeps its table obtained it, and none after
  that forgets it.

## Theorems

* `fetchTable_eq`: A request is answered by the source and nothing else.
* `allCommits_of_none`: Without a table that is kept one is asked for.
* `quantiles_leaves`: What quantiles leave, wherever they end.
* `obtains_iff_of_request`, `obtains_iff_of_later`: What a log says about a call.
* `cached_afterCall_iff`: What one call does to the table that is kept.
* `cached_afterCalls_iff`: What a sequence of calls does to it.
* `commit_table_kept`: The whole of it.
-/

namespace CommitRisk

/-- What a request gives: the answer read as a table. -/
def Source.table (source : Source) (earlier : Nat) (request : Request) : Except FetchError Table :=
  match source earlier request with
  | .error e => .error e
  | .ok text => (Table.parse text).mapError .table

theorem Source.table_eq_ok_iff (source : Source) (earlier : Nat) (request : Request)
    (table : Table) :
    source.table earlier request = .ok table ↔ source.Answers earlier request table := by
  unfold Source.table Source.Answers
  cases source earlier request with
  | error e => simp only [reduceCtorEq, false_and, exists_false]
  | ok text =>
      cases hparse : Table.parse text with
      | error e =>
          simp only [hparse, Except.mapError, Except.ok.injEq, reduceCtorEq, false_iff]
          rintro ⟨_, rfl, hread⟩
          rw [hparse] at hread
          cases hread
      | ok read =>
          simp only [hparse, Except.mapError, Except.ok.injEq]
          constructor
          · rintro rfl
            exact ⟨text, rfl, hparse⟩
          · rintro ⟨_, rfl, hread⟩
            rwa [hparse, Except.ok.injEq] at hread

/-- A call to a collector. -/
inductive Call where
  | allCommits (keep : Bool)
  | jobCommits
  | fileMetrics
  | developerMetrics
  | quantiles
  | forget
deriving DecidableEq, Repr

/-- The call keeps the table of all commits once it has it. -/
def Call.keeps : Call → Bool
  | .allCommits keep => keep
  | .quantiles => true
  | _ => false

namespace Collector

variable (source : Source)

/-- The collector after a call. -/
def afterCall (c : Collector) : Call → Collector
  | .allCommits keep => (c.allCommits source keep).2
  | .jobCommits => (c.jobCommits source).2
  | .fileMetrics => (c.fileMetrics source).2
  | .developerMetrics => (c.developerMetrics source).2
  | .quantiles => (c.quantiles source).2
  | .forget => c.forget

/-- The collector after some calls, one after the other. -/
def afterCalls (c : Collector) (calls : List Call) : Collector :=
  calls.foldl (afterCall source) c

/-- Between two moments of a collector the commits were asked for, of whatever jobs,
    and the answer was a table. -/
def Obtains (c c' : Collector) (table : Table) : Prop :=
  ∃ later request earlier, c'.requests = later ++ request :: earlier ∧ c.requests <:+ earlier ∧
    request.resource = .commits ∧ source.Answers earlier.length request table

/-- Some call was to keep the table of all commits and obtained it, and no call after it
    forgets it. -/
def KeptSinceForget (c : Collector) (calls : List Call) (table : Table) : Prop :=
  ∃ before call later, calls = before ++ call :: later ∧ Call.forget ∉ later ∧
    call.keeps = true ∧
    Obtains source (c.afterCalls source before) (c.afterCalls source (before ++ [call])) table

/-! ## One call -/

theorem afterCalls_concat (c : Collector) (calls : List Call) (call : Call) :
    c.afterCalls source (calls ++ [call]) = (c.afterCalls source calls).afterCall source call := by
  rw [afterCalls, afterCalls, List.foldl_append, List.foldl_cons, List.foldl_nil]

/-- A request is answered by the source and nothing else, and is put on the log. -/
theorem fetchTable_eq (request : Request) (c : Collector) :
    c.fetchTable source request
      = (source.table c.requests.length request,
        { c with requests := request :: c.requests }) := by
  unfold fetchTable Source.table
  cases source c.requests.length request with
  | error e => rfl
  | ok text =>
      cases hparse : Table.parse text with
      | error e => simp only [hparse, Except.mapError]
      | ok table => simp only [hparse, Except.mapError]

/-- Without a table that is kept there is one request, and what it gives is kept if it is
    to be and if it is a table. -/
theorem allCommits_of_none (keep : Bool) (c : Collector) (h : c.cached = none) :
    let answer := source.table c.requests.length ⟨.commits, c.jobs.upToLast⟩
    c.allCommits source keep = (answer, { c with
      requests := ⟨.commits, c.jobs.upToLast⟩ :: c.requests
      cached := if keep then answer.toOption else none }) := by
  intro answer
  simp only [allCommits, h, fetchTable_eq, answer]
  cases source.table c.requests.length ⟨.commits, c.jobs.upToLast⟩ with
  | error e => cases keep <;> rfl
  | ok table => cases keep <;> rfl

theorem allCommits_jobs (keep : Bool) (c : Collector) :
    (c.allCommits source keep).2.jobs = c.jobs := by
  cases hc : c.cached with
  | some kept => rw [allCommits_of_cached source keep c kept hc]
  | none => rw [allCommits_of_none source keep c hc]

/-- Quantiles ask for the commits first, and after that for other tables only. What they
    leave is the same collector with more requests on its log, wherever they end. -/
theorem quantiles_leaves (c : Collector) :
    ∃ later, (c.quantiles source).2 = { (c.allCommits source true).2 with
        requests := later ++ (c.allCommits source true).2.requests } ∧
      ∀ r ∈ later, r.resource ≠ .commits := by
  unfold quantiles
  cases c.allCommits source true with
  | mk answer c =>
      -- Each exit leaves none, one or both of the later requests on the log.
      have hnone : ∃ later, c = { c with requests := later ++ c.requests } ∧
          ∀ r ∈ later, r.resource ≠ .commits := ⟨[], rfl, by decide⟩
      have hfiles : ∃ later, { c with requests := ⟨.files, .all⟩ :: c.requests }
            = { c with requests := later ++ c.requests } ∧ ∀ r ∈ later, r.resource ≠ .commits :=
        ⟨[⟨.files, .all⟩], rfl, by decide⟩
      have hboth : ∃ later,
          { c with requests := ⟨.developers, .all⟩ :: ⟨.files, .all⟩ :: c.requests }
            = { c with requests := later ++ c.requests } ∧ ∀ r ∈ later, r.resource ≠ .commits :=
        ⟨[⟨.developers, .all⟩, ⟨.files, .all⟩], rfl, by decide⟩
      cases answer with
      | error e => exact hnone
      | ok commits =>
          simp only [fileMetrics, developerMetrics, fetchTable_eq]
          cases quantileTable c.steps recordColumns commits with
          | error e => exact hnone
          | ok commit =>
              simp only []
              cases source.table c.requests.length ⟨.files, .all⟩ with
              | error e => exact hfiles
              | ok files =>
                  simp only []
                  cases quantileTable c.steps [] files with
                  | error e => exact hfiles
                  | ok file =>
                      simp only []
                      generalize source.table _ ⟨.developers, .all⟩ = answer
                      cases answer with
                      | error e => exact hboth
                      | ok developers =>
                          simp only []
                          cases quantileTable c.steps [] developers <;> exact hboth

theorem afterCall_jobs (c : Collector) (call : Call) : (c.afterCall source call).jobs = c.jobs := by
  have hother : ∀ request, (c.fetchTable source request).2.jobs = c.jobs := fun request => by
    rw [fetchTable_eq]
  cases call with
  | allCommits keep => exact allCommits_jobs source keep c
  | jobCommits => exact hother ⟨.commits, c.jobs⟩
  | fileMetrics => exact hother ⟨.files, .all⟩
  | developerMetrics => exact hother ⟨.developers, .all⟩
  | quantiles =>
      rcases quantiles_leaves source c with ⟨later, hleaves, _⟩
      rw [afterCall, hleaves]
      exact allCommits_jobs source true c
  | forget => rfl

theorem afterCalls_jobs (c : Collector) (calls : List Call) :
    (c.afterCalls source calls).jobs = c.jobs := by
  induction calls generalizing c with
  | nil => rfl
  | cons call rest ih => exact (ih (c.afterCall source call)).trans (afterCall_jobs source c call)

/-! ## What the log says -/

theorem not_obtains_self (c : Collector) (table : Table) : ¬ Obtains source c c table := by
  rintro ⟨later, request, earlier, hlog, hsince, _⟩
  have hlength := congrArg List.length hlog
  have hle := hsince.length_le
  rw [List.length_append, List.length_cons] at hlength
  omega

theorem obtains_iff_of_request (c c' : Collector) (request : Request) (table : Table)
    (hlog : c'.requests = request :: c.requests) :
    Obtains source c c' table ↔
      request.resource = .commits ∧ source.Answers c.requests.length request table := by
  constructor
  · rintro ⟨later, asked, earlier, hrequests, hsince, hcommits, hanswer⟩
    rw [hlog] at hrequests
    -- Only one request was made, so nothing is later than the one in question.
    have hlater : later = [] := by
      have hlength := congrArg List.length hrequests
      have hle := hsince.length_le
      rw [List.length_append, List.length_cons, List.length_cons] at hlength
      exact List.length_eq_zero_iff.mp (by omega)
    rw [hlater, List.nil_append, List.cons.injEq] at hrequests
    rw [hrequests.1, hrequests.2]
    exact ⟨hcommits, hanswer⟩
  · rintro ⟨hcommits, hanswer⟩
    exact ⟨[], request, c.requests, hlog, List.suffix_rfl, hcommits, hanswer⟩

/-- Requests for other tables that are made later do not count. -/
theorem obtains_iff_of_later (c c' c'' : Collector) (later : List Request) (table : Table)
    (hlog : c''.requests = later ++ c'.requests) (hothers : ∀ r ∈ later, r.resource ≠ .commits) :
    Obtains source c c'' table ↔ Obtains source c c' table := by
  constructor
  · rintro ⟨last, request, earlier, hrequests, hsince, hcommits, hanswer⟩
    rw [hlog] at hrequests
    rcases List.append_eq_append_iff.mp hrequests with
      ⟨between, _, hrest⟩ | ⟨between, hlater, hrest⟩
    · exact ⟨between, request, earlier, hrest, hsince, hcommits, hanswer⟩
    · cases between with
      | nil => exact ⟨[], request, earlier, hrest.symm, hsince, hcommits, hanswer⟩
      | cons first between =>
          -- The request would be one of the later ones.
          rw [List.cons_append, List.cons.injEq] at hrest
          rw [hlater, ← hrest.1] at hothers
          exact absurd hcommits
            (hothers request (List.mem_append_right last List.mem_cons_self))
  · rintro ⟨last, request, earlier, hrequests, hsince, hcommits, hanswer⟩
    refine ⟨later ++ last, request, earlier, ?_, hsince, hcommits, hanswer⟩
    rw [hlog, hrequests, List.append_assoc]

/-! ## Sequences of calls -/

theorem cached_allCommits_iff (c : Collector) (keep : Bool) (table : Table) :
    (c.allCommits source keep).2.cached = some table ↔
      c.cached = some table ∨
        keep = true ∧ Obtains source c (c.allCommits source keep).2 table := by
  cases hc : c.cached with
  | some kept =>
      rw [allCommits_of_cached source keep c kept hc, hc]
      exact (or_iff_left fun h => not_obtains_self source c table h.2).symm
  | none =>
      -- What is obtained is what the one request gives.
      rw [allCommits_of_none source keep c hc, obtains_iff_of_request source c _ _ table rfl,
        ← Source.table_eq_ok_iff]
      simp only []
      cases source.table c.requests.length ⟨.commits, c.jobs.upToLast⟩ <;> cases keep <;>
        simp [Except.toOption]

/-- What is kept after a call was kept before or was obtained by a call that keeps it. -/
theorem cached_afterCall_iff (c : Collector) (call : Call) (table : Table) :
    (c.afterCall source call).cached = some table ↔
      call ≠ .forget ∧ (c.cached = some table ∨
        call.keeps = true ∧ Obtains source c (c.afterCall source call) table) := by
  -- The calls for other tables make a request and leave the rest alone.
  have hother : ∀ request, (c.fetchTable source request).2.cached = some table ↔
      c.cached = some table ∨ false = true ∧
        Obtains source c (c.fetchTable source request).2 table := by
    intro request
    rw [fetchTable_cached]
    exact (or_iff_left fun h => Bool.false_ne_true h.1).symm
  -- Only one kind of call forgets.
  cases call with
  | allCommits keep =>
      exact (cached_allCommits_iff source c keep table).trans (and_iff_right nofun).symm
  | jobCommits => exact (hother ⟨.commits, c.jobs⟩).trans (and_iff_right nofun).symm
  | fileMetrics => exact (hother ⟨.files, .all⟩).trans (and_iff_right nofun).symm
  | developerMetrics => exact (hother ⟨.developers, .all⟩).trans (and_iff_right nofun).symm
  | quantiles =>
      rcases quantiles_leaves source c with ⟨later, hleaves, hothers⟩
      have hcached : (c.quantiles source).2.cached = (c.allCommits source true).2.cached := by
        rw [hleaves]
      have hlog : (c.quantiles source).2.requests
          = later ++ (c.allCommits source true).2.requests := by
        rw [hleaves]
      refine Iff.trans ?_ (and_iff_right nofun).symm
      change (c.quantiles source).2.cached = some table ↔
        c.cached = some table ∨ true = true ∧ Obtains source c (c.quantiles source).2 table
      rw [hcached, cached_allCommits_iff,
        obtains_iff_of_later source c _ _ later table hlog hothers]
  | forget =>
      refine iff_of_false ?_ fun h => h.1 rfl
      simp only [afterCall, Collector.forget, reduceCtorEq, not_false_eq_true]

/-- The last of some calls is the one that obtained what is kept, or comes behind it. -/
theorem keptSinceForget_concat (c : Collector) (calls : List Call) (last : Call) (table : Table) :
    c.KeptSinceForget source (calls ++ [last]) table ↔
      last.keeps = true ∧ Obtains source (c.afterCalls source calls)
          (c.afterCalls source (calls ++ [last])) table ∨
        last ≠ .forget ∧ c.KeptSinceForget source calls table := by
  constructor
  · rintro ⟨before, call, later, hcalls, hkept, hkeeps, hobtains⟩
    rcases List.eq_nil_or_concat later with rfl | ⟨later, final, rfl⟩
    · rcases List.append_inj' hcalls rfl with ⟨rfl, hcall⟩
      cases hcall
      exact .inl ⟨hkeeps, hobtains⟩
    · rw [List.concat_eq_append] at hcalls hkept
      rw [← List.cons_append, ← List.append_assoc] at hcalls
      rcases List.append_inj' hcalls rfl with ⟨rfl, hfinal⟩
      cases hfinal
      rw [List.mem_append, not_or, List.mem_singleton] at hkept
      exact .inr ⟨Ne.symm hkept.2, before, call, later, rfl, hkept.1, hkeeps, hobtains⟩
  · rintro (⟨hkeeps, hobtains⟩ | ⟨hlast, before, call, later, rfl, hkept, hkeeps, hobtains⟩)
    · exact ⟨calls, last, [], rfl, List.not_mem_nil, hkeeps, hobtains⟩
    · refine ⟨before, call, later ++ [last], ?_, ?_, hkeeps, hobtains⟩
      · rw [List.append_assoc, List.cons_append]
      · rw [List.mem_append, not_or, List.mem_singleton]
        exact ⟨hkept, Ne.symm hlast⟩

/-- What is kept after some calls was kept before and never forgotten, or was obtained
    since the last call that forgets. -/
theorem cached_afterCalls_iff (c : Collector) (calls : List Call) (table : Table) :
    (c.afterCalls source calls).cached = some table ↔
      c.cached = some table ∧ Call.forget ∉ calls ∨ c.KeptSinceForget source calls table := by
  induction calls using List.reverseRecOn with
  | nil =>
      have hnone : ¬ c.KeptSinceForget source [] table := by
        rintro ⟨before, call, later, hcalls, _⟩
        exact absurd hcalls.symm (List.append_ne_nil_of_right_ne_nil before
          (List.cons_ne_nil call later))
      rw [or_iff_left hnone, and_iff_left List.not_mem_nil]
      exact Iff.rfl
  | append_singleton calls last ih =>
      have hkeeps : last.keeps = true → last ≠ .forget := by
        rintro h rfl
        exact Bool.false_ne_true h
      have hmem : Call.forget ∉ calls ++ [last] ↔ Call.forget ∉ calls ∧ last ≠ .forget := by
        rw [List.mem_append, not_or, List.mem_singleton, ne_comm]
      rw [keptSinceForget_concat, hmem, afterCalls_concat, cached_afterCall_iff, ih]
      grind

end Collector

/-- When the commit table is kept. After any calls to a collector that began without a
    table, whatever the source answered to each of its requests:

    * a table is kept exactly if a call that keeps it obtained it since the last call that
      forgets, and then it is that table;
    * while it is kept, asking for all commits gives it and asks for nothing;
    * while none is kept, asking for all commits makes one request, for the commits up to
      the last job, and keeps nothing if that fails;
    * quantiles that had the commit table keep it, whatever becomes of the other tables;
    * the commits of a range of jobs and the other two tables are asked for every time,
      and the table that is kept neither matters to the answer nor changes. -/
theorem commit_table_kept (source : Source) (jobs : JobFilter) (steps : List Float)
    (calls : List Call) :
    let begun := Collector.ofJobs jobs steps
    let c := begun.afterCalls source calls
    (∀ table, c.cached = some table ↔ begun.KeptSinceForget source calls table) ∧
    (∀ table keep, c.cached = some table → c.allCommits source keep = (.ok table, c)) ∧
    (∀ keep, c.cached = none →
      let answer := source.table c.requests.length ⟨.commits, ⟨none, jobs.last⟩⟩
      (c.allCommits source keep).1 = answer ∧
      (c.allCommits source keep).2.requests = ⟨.commits, ⟨none, jobs.last⟩⟩ :: c.requests ∧
      ∀ e, answer = .error e → (c.allCommits source keep).2.cached = none) ∧
    (∀ table, (c.allCommits source true).1 = .ok table →
      (c.quantiles source).2.cached = some table) ∧
    (let after (request : Request) : Collector := { c with requests := request :: c.requests }
      let table (request : Request) := source.table c.requests.length request
      c.jobCommits source
        = (table ⟨.commits, ⟨jobs.start, jobs.last⟩⟩, after ⟨.commits, ⟨jobs.start, jobs.last⟩⟩) ∧
      c.fileMetrics source = (table ⟨.files, .all⟩, after ⟨.files, .all⟩) ∧
      c.developerMetrics source = (table ⟨.developers, .all⟩, after ⟨.developers, .all⟩)) := by
  intro begun c
  have hjobs : c.jobs = jobs := Collector.afterCalls_jobs source begun calls
  have hlast : c.jobs.upToLast = ⟨none, jobs.last⟩ := by rw [hjobs, JobFilter.upToLast]
  refine ⟨fun table => ?_, fun table keep h => ?_, fun keep hnone => ?_, fun table h => ?_, ?_⟩
  · -- The collector began without a table.
    rw [Collector.cached_afterCalls_iff]
    exact or_iff_right fun h => nomatch h.1
  · exact Collector.allCommits_of_cached source keep c table h
  · rw [Collector.allCommits_of_none source keep c hnone, hlast]
    refine ⟨rfl, rfl, fun e he => ?_⟩
    simp only [he, Except.toOption, ite_self]
  · cases hall : c.allCommits source true with
    | mk answer after =>
        rw [hall] at h
        cases h
        exact Collector.quantiles_cached source c after table hall
  · refine ⟨?_, Collector.fetchTable_eq source _ c, Collector.fetchTable_eq source _ c⟩
    rw [Collector.jobCommits, Collector.fetchTable_eq, hjobs]

end CommitRisk
