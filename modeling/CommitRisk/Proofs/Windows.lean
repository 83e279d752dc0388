import CommitRisk.Proofs.Failures
import CommitRisk.Proofs.NewestRows

/-!
# Where the Window Begins

The window begins so many days before the newest commit. As integers that is a product and
a difference, `Config.exactCutoff`. The dates and the days are read from files, both may be
any integer of sixty-four bits, and the settings are checked for days below zero only, so
neither of the two need have room in the word that it is kept in.

Where both have room the cutoff is the exact one. In this case it is not after the newest
commit, which is then predicted and is none of the commits that rows are prepared from,
because these are dated before the cutoff.

Otherwise there is no cutoff, and no result either: the build that needs one is stopped. It
stops there even if the difference alone would have room, because the product comes first,
and that is before it is known whether there are rows to train on.
`longest_window_stops_build` is such a setting.

## Main definitions

* `Config.exactCutoff`: Where the window begins, as an integer of any size.
* `InWindow`: The commits of a day are predicted and not trained on.

## Theorems

* `windowStart_eq_error_iff`: When the window cannot be counted.
* `newest_subperm`, `hasRowsOf_of_prepare`: Whose rows are prepared.
* `inWindow_of_le`: A cutoff that is not after the newest day.
* `build_eq_error_iff`: When a build is stopped.
* `cutoff_exact_iff`: All of it, for settings that are accepted.
-/

namespace CommitRisk

/-! ## The cutoff as an integer -/

/-- Where the window begins, so many days before the newest commit, as an integer of any
    size. -/
def Config.exactCutoff (c : Config) (day : Int64) : Int :=
  day.toInt - c.ignoredDays.toInt * 86400

theorem fitsInt64_iff_range (n : Int) : FitsInt64 n ↔ -2 ^ 63 ≤ n ∧ n < 2 ^ 63 := by
  rw [FitsInt64, Int64.toInt_minValue, Int64.toInt_maxValue]
  omega

/-- The window cannot be counted if the product has no room, and if it has, but the
    difference has none. -/
theorem Config.windowStart_eq_error_iff (c : Config) (commits : List Commit) (day : Int64)
    (h : IsNewest commits day) (overflow : Overflow) :
    c.windowStart commits = .error overflow ↔
      (overflow = .multiply ∧ ¬ FitsInt64 (c.ignoredDays.toInt * 86400)) ∨
      (overflow = .subtract ∧ FitsInt64 (c.ignoredDays.toInt * 86400) ∧
        ¬ FitsInt64 (c.exactCutoff day)) := by
  unfold windowStart
  cases hseconds : c.ignoredSeconds with
  | error found =>
      -- The length of the window has no room, and the difference is not looked at.
      rcases (c.ignoredSeconds_eq_error_iff found).mp hseconds with ⟨rfl, hfits⟩
      simp only [Except.error.injEq, hfits, not_false_eq_true, and_true, false_and, and_false,
        or_false, eq_comm]
  | ok seconds =>
      have hexact := (c.ignoredSeconds_eq_ok_iff seconds).mp hseconds
      have hfits : FitsInt64 (c.ignoredDays.toInt * 86400) := hexact ▸ fitsInt64_toInt seconds
      simp only [predictionCutoff_of_isNewest commits day seconds h,
        map_eq_error, checkedSub, checked_eq_error_iff, hexact, hfits, exactCutoff,
        not_true_eq_false, and_false, false_or, true_and]

/-! ## What is prepared -/

theorem newest_subperm (limit : Nat) (commits : List Commit) :
    (newest limit commits).Subperm commits := by
  unfold newest
  split
  · exact (List.take_sublist _ _).subperm.trans (List.mergeSort_perm _ _).subperm
  · exact List.Subperm.refl commits

/-- The rows that are prepared are those of the newest commits that can be trained on. -/
theorem hasRowsOf_of_prepare (commits : List Commit) (cutoff : Int64) (limit : Nat)
    (set : TrainingSet) (h : prepare commits cutoff limit = .ok set) :
    set.HasRowsOf (newest limit (trainable commits cutoff)) := by
  have hcomplete : ∀ c ∈ newest limit (trainable commits cutoff), c.isComplete = true :=
    fun c hc => (of_mem_newest_trainable commits cutoff limit c hc).2.1
  unfold prepare at h
  simp only [] at h
  split at h
  · cases h
  · cases h
    exact hasRowsOf_complete _ hcomplete

/-- The commits of a day are predicted. Rows are prepared from commits of other days
    only, each of them used once at most. -/
structure InWindow (commits : List Commit) (cutoff day : Int64) : Prop where
  predicted : ∀ c ∈ commits, c.date = day → c ∈ predictionSet commits cutoff
  untrained : ∀ limit set, prepare commits cutoff limit = .ok set →
    ∃ kept : List Commit, set.HasRowsOf kept ∧ kept.Subperm commits ∧ ∀ c ∈ kept, c.date < day

theorem inWindow_of_le (commits : List Commit) (cutoff day : Int64) (h : cutoff ≤ day) :
    InWindow commits cutoff day where
  predicted c hc hday := by
    refine List.mem_filter.mpr ⟨hc, ?_⟩
    rw [decide_eq_true_eq, hday]
    exact h
  untrained limit set hset := by
    refine ⟨_, hasRowsOf_of_prepare commits cutoff limit set hset,
      (newest_subperm limit _).trans List.filter_sublist.subperm, fun c hc => ?_⟩
    -- What can be trained on is dated before the cutoff.
    exact Int64.lt_of_lt_of_le (of_mem_newest_trainable commits cutoff limit c hc).2.2 h

/-! ## Builds that are stopped -/

theorem Pipeline.prepareData_eq_error_iff (p : Pipeline) (table : Table) (overflow : Overflow) :
    p.prepareData table = .error overflow ↔ ∃ commits, table.commits p.schema = .ok commits ∧
      p.config.windowStart commits = .error overflow := by
  unfold prepareData
  cases table.commits p.schema with
  | error e => simp only [reduceCtorEq, false_and, exists_false]
  | ok commits =>
      cases hstart : p.config.windowStart commits with
      | error found => simp only [Except.error.injEq, Except.ok.injEq, exists_eq_left', hstart]
      | ok answer =>
          simp only [Except.ok.injEq, exists_eq_left', hstart, reduceCtorEq, iff_false]
          cases answer <;> exact nofun

theorem Pipeline.buildFrom_eq_error_iff (p : Pipeline) (now : String) (chance : Chance)
    (path : String) (params : HyperParameters) (table : Table) (o : Output) (files : Files)
    (overflow : Overflow) :
    p.buildFrom now chance path params table o files = .error overflow ↔
      p.prepareData table = .error overflow := by
  unfold buildFrom
  cases p.prepareData table with
  | error found => simp only [Except.error.injEq]
  | ok answer => cases answer <;> simp only [reduceCtorEq]

/-- A build is stopped exactly if it has its quantiles and the commits of its table, but
    their window cannot be counted. -/
theorem Pipeline.build_eq_error_iff (p : Pipeline) (source : Source) (now : String)
    (chance : Chance) (path : String) (params : HyperParameters) (collector : Collector)
    (files : Files) (overflow : Overflow) :
    p.build source now chance path params collector files = .error overflow ↔
      (∃ q, (collector.quantiles source).1 = .ok q) ∧
      ∃ table commits, (collector.allCommits source true).1 = .ok table ∧
        table.commits p.schema = .ok commits ∧
        p.config.windowStart commits = .error overflow := by
  cases hq : collector.quantiles source with
  | mk answer left =>
      cases answer with
      | error e =>
          -- Without quantiles a build ends before its window is looked at.
          rw [p.build_of_no_quantiles source now chance path params collector left files e hq]
          simp only [reduceCtorEq, exists_false, false_and]
      | ok q =>
          rcases p.build_of_quantiles source now chance path params collector left files q hq with
            ⟨table, htable, hbuild⟩
          rw [hbuild, map_eq_error, buildFrom_eq_error_iff, prepareData_eq_error_iff, htable]
          simp only [Except.ok.injEq, exists_eq', true_and, exists_and_left, exists_eq_left']

/-! ## Settings that are accepted -/

/-- Where the window begins, for settings that are accepted and any commits at all. There is
    a cutoff precisely if the length of the window has room in sixty-four bits and the exact
    cutoff has, too. It is the exact one then, it is not after the newest day, and the
    commits of that day are predicted and not trained on. In all other cases the run is
    stopped: by the product if that has no room, and else by the difference. -/
theorem cutoff_exact_iff (c c' : Config) (haccepted : c.validate = .ok c')
    (commits : List Commit) (hsome : commits ≠ []) :
    ∃ day, IsNewest commits day ∧
      (∀ seconds, c.ignoredSeconds = .ok seconds ↔
        seconds.toInt = c.ignoredDays.toInt * 86400) ∧
      (∀ cutoff, c.windowStart commits = .ok (.ok cutoff) ↔
        c.ignoredDays.toInt * 86400 < 2 ^ 63 ∧ cutoff.toInt = c.exactCutoff day) ∧
      ((∃ cutoff, c.windowStart commits = .ok (.ok cutoff)) ↔
        c.ignoredDays.toInt * 86400 < 2 ^ 63 ∧ -2 ^ 63 ≤ c.exactCutoff day) ∧
      (∀ cutoff, c.windowStart commits = .ok (.ok cutoff) →
        cutoff ≤ day ∧ InWindow commits cutoff day) ∧
      ∀ overflow, c.windowStart commits = .error overflow ↔
        (overflow = .multiply ∧ 2 ^ 63 ≤ c.ignoredDays.toInt * 86400) ∨
        (overflow = .subtract ∧ c.ignoredDays.toInt * 86400 < 2 ^ 63 ∧
          c.exactCutoff day < -2 ^ 63) := by
  have hdays := (c.inRange_of_fault? (c.fault?_of_validate c' haccepted)).2.1
  have hzero : 0 ≤ c.ignoredDays.toInt := Int64.le_iff_toInt_le.mp hdays
  cases commits with
  | nil => exact absurd rfl hsome
  | cons first rest =>
      have hday := latest_isNewest first rest
      generalize latest first.date (rest.map Commit.date) = day at hday
      -- Days are not negative, so each of the two can leave the range at one end only.
      have hproduct : FitsInt64 (c.ignoredDays.toInt * 86400) ↔
          c.ignoredDays.toInt * 86400 < 2 ^ 63 := by
        rw [fitsInt64_iff_range]
        omega
      have hcutoff : FitsInt64 (c.exactCutoff day) ↔ -2 ^ 63 ≤ c.exactCutoff day := by
        have hlt := day.toInt_lt
        rw [fitsInt64_iff_range, Config.exactCutoff]
        omega
      have hexact : ∀ cutoff, c.windowStart (first :: rest) = .ok (.ok cutoff) ↔
          c.ignoredDays.toInt * 86400 < 2 ^ 63 ∧ cutoff.toInt = c.exactCutoff day := by
        intro cutoff
        rw [c.windowStart_eq_ok_iff _ day cutoff hday, hproduct, Config.exactCutoff]
      refine ⟨day, hday, c.ignoredSeconds_eq_ok_iff, hexact, ?_, fun cutoff hstart => ?_,
        fun overflow => ?_⟩
      · rw [← hcutoff, fitsInt64_iff, ← exists_and_left]
        exact exists_congr hexact
      · have hle : cutoff ≤ day := by
          rw [Int64.le_iff_toInt_le, ((hexact cutoff).mp hstart).2, Config.exactCutoff]
          omega
        exact ⟨hle, inWindow_of_le _ cutoff day hle⟩
      · rw [c.windowStart_eq_error_iff _ day hday, hproduct, hcutoff, Int.not_lt, Int.not_le]

/-- Settings with so many days of window and all else as it is by default. -/
def windowOf (days : Int64) : Config :=
  { Config.default with ignoredDays := days }

/-- A commit at the last date there is, and one long before. -/
def distantCommits : List Commit :=
  [⟨"a", 0, [some 1.0], some true⟩, ⟨"b", 9223372036854775807, [some 2.0], some false⟩]

/-- The longest window that can be counted in seconds. -/
theorem cutoff_exact_distant :
    (windowOf 106751991167300).validate = .ok (windowOf 106751991167300) ∧
    ∃ cutoff, (windowOf 106751991167300).windowStart distantCommits = .ok (.ok cutoff) ∧
      cutoff.toInt = 55807 ∧ InWindow distantCommits cutoff 9223372036854775807 := by
  have haccepted : (windowOf 106751991167300).validate = .ok (windowOf 106751991167300) := by
    rfl
  have hnewest : IsNewest distantCommits 9223372036854775807 := by decide
  rcases cutoff_exact_iff (windowOf 106751991167300) _ haccepted distantCommits
    (List.cons_ne_nil _ _) with ⟨day, hday, _, hexact, hstart, hwindow, _⟩
  rw [isNewest_unique _ _ _ hday hnewest] at hexact hstart hwindow
  rcases hstart.mpr ⟨by decide, by decide⟩ with ⟨cutoff, hcutoff⟩
  refine ⟨haccepted, cutoff, hcutoff, ?_, (hwindow cutoff hcutoff).2⟩
  rw [((hexact cutoff).mp hcutoff).2]
  decide

/-- Two commits a day apart. -/
def recentCommits : List Commit :=
  [⟨"a", 0, [some 1.0], some true⟩, ⟨"b", 86400, [some 2.0], some false⟩]

/-- The longest window that can be set is accepted, but it cannot be counted in seconds. As
    an integer there is a cutoff, so many days before the newest commit, and yet the run that
    needs it is stopped. -/
theorem longest_window_stops_build :
    (windowOf 9223372036854775807).validate = .ok (windowOf 9223372036854775807) ∧
    IsNewest recentCommits 86400 ∧
    (windowOf 9223372036854775807).exactCutoff 86400 = -796899343984252629638400 ∧
    (windowOf 9223372036854775807).windowStart recentCommits = .error .multiply ∧
    Pipeline.build ⟨smallSchema, windowOf 9223372036854775807⟩ smallSource "1700000000"
      fixedChance "m.apr" ⟨2, some 3, some 7⟩ (.ofJobs .all []) .empty = .error .multiply := by
  have hstart : (windowOf 9223372036854775807).windowStart smallCommits = .error .multiply := rfl
  refine ⟨rfl, by decide, by decide, rfl, ?_⟩
  rw [Pipeline.build_eq_error_iff]
  exact ⟨⟨_, eq_ok_get _ (by decide +kernel)⟩, smallTable, smallCommits, by decide +kernel,
    by decide +kernel, hstart⟩

end CommitRisk
