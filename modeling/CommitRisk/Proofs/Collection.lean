import CommitRisk.Metrics.Collector

/-!
# What a Collector Hands Out

A collector is passed through a run and comes back changed: it has made more
requests and may have kept the commit table. The statements here say what each
operation does with the table that is kept, so that nothing else has to look
inside a request.

The commit table is fetched at most once in a run. Quantiles need it first and
keep it, and whoever asks for all commits afterwards gets the very same table,
whatever the source would answer by then.

## Main definitions

* `Source.Answers`: A request is answered with a table.
* `Collector.Reads`: The commit table of a collector is written in a text.

## Theorems

* `fetchTable_cached`: A request leaves the table that is kept alone.
* `fetchTable_eq_ok`, `fetchTable_eq_error`: A request is noted, whatever it gives.
* `fetchTable_of_answer`: A request that is answered gives the table of the
  answer.
* `allCommits_of_cached`: A table that is kept is handed out.
* `allCommits_keeps`: A table that is to be kept is kept.
* `allCommits_of_reads`: The table handed out is the one written in the text.
* `quantiles_cached`: Once it has been read, quantiles keep the commit table.
* `quantiles_table`: Quantiles that succeed have read the commit table.
-/

namespace CommitRisk

/-- A request that comes after so many others is answered with a text of a table. -/
def Source.Answers (source : Source) (earlier : Nat) (request : Request) (table : Table) : Prop :=
  ∃ text, source earlier request = .ok text ∧ Table.parse text = .ok table

namespace Collector

theorem fetchTable_cached (source : Source) (request : Request) (c : Collector) :
    (c.fetchTable source request).2.cached = c.cached := by
  unfold fetchTable
  cases source c.requests.length request with
  | error e => rfl
  | ok text =>
      cases hparse : Table.parse text with
      | error e => simp only [hparse]
      | ok table => simp only [hparse]

theorem fetchTable_eq_ok (source : Source) (request : Request) (c : Collector) (table : Table)
    (h : source.Answers c.requests.length request table) :
    c.fetchTable source request = (.ok table, { c with requests := request :: c.requests }) := by
  rcases h with ⟨text, hanswer, hparse⟩
  simp only [fetchTable, hanswer, hparse]

theorem fetchTable_eq_error (source : Source) (request : Request) (c : Collector)
    (h : ¬ ∃ table, source.Answers c.requests.length request table) :
    ∃ e, c.fetchTable source request
      = (.error e, { c with requests := request :: c.requests }) := by
  unfold fetchTable
  cases hanswer : source c.requests.length request with
  | error e => exact ⟨e, rfl⟩
  | ok text =>
      cases hparse : Table.parse text with
      | error e => exact ⟨.table e, by simp only [hparse]⟩
      | ok table => exact absurd ⟨table, text, hanswer, hparse⟩ h

theorem fetchTable_of_answer (source : Source) (request : Request) (c : Collector) (text : String)
    (table : Table) (hanswer : source c.requests.length request = .ok text)
    (hparse : Table.parse text = .ok table) : (c.fetchTable source request).1 = .ok table := by
  rw [fetchTable_eq_ok source request c table ⟨text, hanswer, hparse⟩]

theorem allCommits_of_cached (source : Source) (keep : Bool) (c : Collector) (table : Table)
    (h : c.cached = some table) : c.allCommits source keep = (.ok table, c) := by
  simp only [allCommits, h]

theorem allCommits_keeps (source : Source) (c c' : Collector) (table : Table)
    (h : c.allCommits source true = (.ok table, c')) : c'.cached = some table := by
  unfold allCommits at h
  cases hc : c.cached with
  | some kept =>
      simp only [hc, Prod.mk.injEq, Except.ok.injEq] at h
      rw [← h.2, ← h.1, hc]
  | none =>
      rw [hc] at h
      -- Nothing was kept before, so the table is the one that was fetched.
      cases hfetch : c.fetchTable source ⟨.commits, c.jobs.upToLast⟩ with
      | mk answer after =>
          cases answer with
          | error e => simp only [hfetch, Prod.mk.injEq, reduceCtorEq, false_and] at h
          | ok fetched =>
              simp only [hfetch, if_true, Prod.mk.injEq, Except.ok.injEq] at h
              rw [← h.2, h.1]

/-- The commit table of a collector is written in a text: it is the table that is
    kept or, if none is, the answer to the request that would be made. -/
def Reads (source : Source) (c : Collector) (text : String) : Prop :=
  match c.cached with
  | some table => Table.parse text = .ok table
  | none => source c.requests.length ⟨.commits, c.jobs.upToLast⟩ = .ok text

theorem allCommits_of_reads (source : Source) (c : Collector) (text : String) (table : Table)
    (hreads : c.Reads source text) (h : (c.allCommits source true).1 = .ok table) :
    Table.parse text = .ok table := by
  unfold Reads at hreads
  cases hc : c.cached with
  | some kept =>
      rw [hc] at hreads
      simp only [allCommits_of_cached source true c kept hc, Except.ok.injEq] at h
      rw [hreads, h]
  | none =>
      rw [hc] at hreads
      -- A text that is no table would have been an error.
      cases hparse : Table.parse text with
      | error e =>
          simp only [allCommits, hc, fetchTable, hreads, hparse, reduceCtorEq] at h
      | ok parsed =>
          simp only [allCommits, hc, fetchTable, hreads, hparse, Except.ok.injEq] at h
          rw [h]

/-- Quantiles read the commit table first and keep it. The requests for the other
    tables do not touch it, whether they are answered or not. -/
theorem quantiles_cached (source : Source) (c kept : Collector) (table : Table)
    (h : c.allCommits source true = (.ok table, kept)) :
    (c.quantiles source).2.cached = some table := by
  have hkept := allCommits_keeps source c kept table h
  -- A request leaves what is kept alone, so it can be followed through all exits.
  have hfiles : (kept.fileMetrics source).2.cached = some table := by
    rw [fileMetrics, fetchTable_cached, hkept]
  unfold quantiles
  simp only [h]
  cases quantileTable kept.steps recordColumns table with
  | error e => exact hkept
  | ok commit =>
      cases hf : kept.fileMetrics source with
      | mk files after =>
          rw [hf] at hfiles
          have hdevelopers : (after.developerMetrics source).2.cached = some table := by
            rw [developerMetrics, fetchTable_cached, hfiles]
          cases files with
          | error e => exact hfiles
          | ok files =>
              simp only []
              cases quantileTable after.steps [] files with
              | error e => exact hfiles
              | ok file =>
                  cases hd : after.developerMetrics source with
                  | mk developers last =>
                      rw [hd] at hdevelopers
                      cases developers with
                      | error e => exact hdevelopers
                      | ok developers =>
                          simp only []
                          cases quantileTable last.steps [] developers with
                          | error e => exact hdevelopers
                          | ok developer => exact hdevelopers

/-- Quantiles that succeed have had the commit table, and it is kept. -/
theorem quantiles_table (source : Source) (c after : Collector) (q : Quantiles)
    (h : c.quantiles source = (.ok q, after)) :
    ∃ table, (c.allCommits source true).1 = .ok table ∧ after.cached = some table := by
  cases hall : c.allCommits source true with
  | mk answer kept =>
      cases answer with
      | error e => simp only [quantiles, hall, Prod.mk.injEq, reduceCtorEq, false_and] at h
      | ok table =>
          have hcached := quantiles_cached source c kept table hall
          rw [h] at hcached
          exact ⟨table, rfl, hcached⟩

end Collector

end CommitRisk
