import CommitRisk.Proofs.KeptTables
import CommitRisk.Proofs.PrintedNumbers
import CommitRisk.Proofs.Stages
import CommitRisk.Proofs.Windows

/-!
# What Quantile Tables Hold

A quantile table is built by putting entries in their places, one step after the other and
within a step one column after the other. An entry that comes again replaces the one before, so
what a name leads to in the end is its last entry, and the names are in rising order without any
of them twice. That is said of `byName`, which puts in a whole list, and the two levels of a
table are both of this form.

A column without a number in it is left out and steps that were accepted are shares, so no
quantile is refused. Two steps that are printed alike are the same step, so the entries under a
printed step are those of that step, however often it is asked for.

## Main definitions

* `byName`: Entries put in their places one after the other.
* `Table.numbers`: The numbers in a column.
* `Table.LastNumeric`: The last column with a name and a number in it.
* `QuantileTable.Summarises`: What a quantile table says of a table.
* `Collector.HasTables`: The three tables of a repository are read.

## Theorems

* `mem_map_byName`, `rising_byName`: The names of entries that are put in their places.
* `lookup_byName_append`, `lookup_byName_of_same`: What a name leads to.
* `quantileTable_eq_bind`, `quantileTable_eq`: A quantile table as entries in their places.
* `summarises_of_shares`: It is complete at shares.
* `isNaN_of_mem_numbers`: What is summarised holds no NaN.
* `quantile_tables_complete`: The quantiles of three tables.
-/

namespace CommitRisk

/-! ## Entries in their places -/

section ByName

variable {β : Type}

/-- Entries put in their places one after the other. -/
def byName (entries : List (String × β)) : List (String × β) :=
  entries.foldl (fun kept entry => insertByName entry.1 entry.2 kept) []

theorem byName_append_singleton (entries : List (String × β)) (name : String) (x : β) :
    byName (entries ++ [(name, x)]) = insertByName name x (byName entries) := by
  rw [byName, List.foldl_append]
  rfl

theorem mem_insertByName (name : String) (x : β) (entries : List (String × β))
    (entry : String × β) (h : entry ∈ insertByName name x entries) :
    entry = (name, x) ∨ entry ∈ entries := by
  induction entries with
  | nil => exact .inl (List.mem_singleton.mp h)
  | cons first rest ih =>
      rcases first with ⟨n, y⟩
      rw [insertByName] at h
      split at h
      · exact (List.mem_cons.mp h).imp id (List.mem_cons_of_mem _)
      · split at h
        · exact List.mem_cons.mp h
        · rcases List.mem_cons.mp h with rfl | h
          · exact .inr List.mem_cons_self
          · exact (ih h).imp id (List.mem_cons_of_mem _)

theorem mem_map_insertByName (name : String) (x : β) (entries : List (String × β))
    (key : String) :
    key ∈ (insertByName name x entries).map Prod.fst ↔
      key = name ∨ key ∈ entries.map Prod.fst := by
  induction entries with
  | nil => exact List.mem_cons
  | cons first rest ih =>
      rcases first with ⟨n, y⟩
      rw [insertByName]
      split
      · rename_i hname
        subst hname
        simp only [List.map_cons, List.mem_cons, or_self_left]
      · split
        · simp only [List.map_cons, List.mem_cons]
        · simp only [List.map_cons, List.mem_cons, ih, or_left_comm]

theorem rising_insertByName (name : String) (x : β) (entries : List (String × β))
    (h : (entries.map Prod.fst).Pairwise (· < ·)) :
    ((insertByName name x entries).map Prod.fst).Pairwise (· < ·) := by
  induction entries with
  | nil => exact List.pairwise_singleton _ _
  | cons first rest ih =>
      rcases first with ⟨n, y⟩
      rw [List.map_cons, List.pairwise_cons] at h
      rcases h with ⟨hfirst, hrest⟩
      rw [insertByName]
      split
      · rename_i hname
        subst hname
        exact List.pairwise_cons.mpr ⟨hfirst, hrest⟩
      · rename_i hname
        split
        · -- The new name is below all others.
          rename_i hbelow
          refine List.pairwise_cons.mpr ⟨fun key hkey => ?_, List.pairwise_cons.mpr ⟨hfirst, hrest⟩⟩
          rcases List.mem_cons.mp hkey with rfl | hkey
          · exact hbelow
          · exact lt_trans hbelow (hfirst key hkey)
        · rename_i hbelow
          refine List.pairwise_cons.mpr ⟨fun key hkey => ?_, ih hrest⟩
          rcases (mem_map_insertByName name x rest key).mp hkey with rfl | hkey
          · exact lt_of_le_of_ne (not_lt.mp hbelow) (Ne.symm hname)
          · exact hfirst key hkey

theorem lookup_cons_ite (key name : String) (x : β) (rest : List (String × β)) :
    ((name, x) :: rest).lookup key = if key = name then some x else rest.lookup key := by
  rw [List.lookup_cons]
  by_cases hkey : key = name
  · rw [beq_iff_eq.mpr hkey, if_pos hkey]
  · rw [beq_eq_false_iff_ne.mpr hkey, if_neg hkey]

/-- Putting in an entry changes what its name leads to and nothing else. -/
theorem lookup_insertByName (name key : String) (x : β) (entries : List (String × β)) :
    (insertByName name x entries).lookup key
      = if key = name then some x else entries.lookup key := by
  induction entries with
  | nil => exact lookup_cons_ite key name x []
  | cons first rest ih =>
      rcases first with ⟨n, y⟩
      rw [insertByName]
      split
      · rename_i hname
        subst hname
        rw [lookup_cons_ite, lookup_cons_ite]
        split <;> rfl
      · rename_i hname
        split
        · rw [lookup_cons_ite]
        · rw [lookup_cons_ite, lookup_cons_ite, ih]
          split
          · -- The entry in front has another name.
            rename_i hkey
            rw [if_neg (hkey ▸ Ne.symm hname)]
          · rfl

theorem mem_of_mem_byName (entries : List (String × β)) (entry : String × β)
    (h : entry ∈ byName entries) : entry ∈ entries := by
  induction entries using List.reverseRecOn with
  | nil => exact h
  | append_singleton before last ih =>
      rw [byName_append_singleton] at h
      rcases mem_insertByName _ _ _ _ h with rfl | h
      · exact List.mem_append_right _ List.mem_cons_self
      · exact List.mem_append_left _ (ih h)

theorem mem_map_byName (entries : List (String × β)) (key : String) :
    key ∈ (byName entries).map Prod.fst ↔ key ∈ entries.map Prod.fst := by
  induction entries using List.reverseRecOn with
  | nil => exact Iff.rfl
  | append_singleton before last ih =>
      rw [byName_append_singleton, mem_map_insertByName, ih, List.map_append, List.mem_append,
        List.map_singleton, List.mem_singleton, or_comm]

theorem rising_byName (entries : List (String × β)) :
    ((byName entries).map Prod.fst).Pairwise (· < ·) := by
  induction entries using List.reverseRecOn with
  | nil => exact List.Pairwise.nil
  | append_singleton before last ih =>
      rw [byName_append_singleton]
      exact rising_insertByName _ _ _ ih

/-- A name leads to its last entry. -/
theorem lookup_byName_append (before after : List (String × β)) (key : String) (x : β)
    (hafter : ∀ entry ∈ after, entry.1 ≠ key) :
    (byName (before ++ (key, x) :: after)).lookup key = some x := by
  induction after using List.reverseRecOn with
  | nil => rw [byName_append_singleton, lookup_insertByName, if_pos rfl]
  | append_singleton after last ih =>
      have hlast := hafter last (List.mem_append_right _ List.mem_cons_self)
      rw [← List.cons_append, ← List.append_assoc, byName_append_singleton, lookup_insertByName,
        if_neg (Ne.symm hlast)]
      exact ih fun entry hentry => hafter entry (List.mem_append_left _ hentry)

/-- A name whose entries all say the same leads to what they say. -/
theorem lookup_byName_of_same (entries : List (String × β)) (key : String) (x : β)
    (hmem : key ∈ entries.map Prod.fst) (hsame : ∀ entry ∈ entries, entry.1 = key → entry.2 = x) :
    (byName entries).lookup key = some x := by
  induction entries using List.reverseRecOn with
  | nil => exact absurd hmem List.not_mem_nil
  | append_singleton before last ih =>
      rw [byName_append_singleton, lookup_insertByName]
      split
      · rename_i hkey
        rw [hsame last (List.mem_append_right _ List.mem_cons_self) hkey.symm]
      · rename_i hkey
        refine ih ?_ fun entry hentry => hsame entry (List.mem_append_left _ hentry)
        rw [List.map_append, List.mem_append, List.map_singleton, List.mem_singleton] at hmem
        exact hmem.resolve_right hkey

end ByName

/-! ## The numbers of a column -/

namespace Table

variable (t : Table)

/-- The numbers in a column, from the cells that are one. -/
def numbers (column : Nat) : List Float :=
  t.rows.filterMap fun row => row[column]?.bind cellNumber?

/-- The last column that has a name and a number in it. -/
structure LastNumeric (name : String) (column : Nat) : Prop where
  named : t.columns[column]? = some name
  numeric : t.numbers column ≠ []
  last : ∀ later, column < later → t.columns[later]? = some name → t.numbers later = []

theorem filterMap_numericColumn (column : Nat) :
    (t.numericColumn column).filterMap (fun x => x) = t.numbers column := by
  rw [numericColumn, List.filterMap_map, numbers]
  rfl

/-- No number of a column is a NaN, and none becomes one when it is narrowed. -/
theorem isNaN_of_mem_numbers (column : Nat) (x : Float) (h : x ∈ t.numbers column) :
    x.isNaN = false ∧ (narrow x).isNaN = false := by
  rcases List.mem_filterMap.mp h with ⟨row, _, hcell⟩
  rcases Option.bind_eq_some_iff.mp hcell with ⟨cell, _, hx⟩
  rw [cellNumber?, Option.filter_eq_some_iff, Bool.not_eq_true'] at hx
  exact ⟨hx.2, isNaN_narrow x hx.2⟩

end Table

/-- The columns that are summarised, with the positions they have. -/
def summarisedColumns (t : Table) (excluded : List String) : List (String × Nat) :=
  t.columns.zipIdx.filter fun entry =>
    !(t.numbers entry.2).isEmpty && !excluded.contains entry.1

theorem numericSamples_eq (t : Table) (excluded : List String) :
    numericSamples t excluded
      = (summarisedColumns t excluded).map fun entry => (entry.1, t.numbers entry.2) := by
  have hcells : ∀ entry : String × Nat,
      (t.numericColumn entry.2).filterMap (fun x => x) = t.numbers entry.2 :=
    fun entry => t.filterMap_numericColumn entry.2
  rw [numericSamples, Table.numericColumns, List.map_map, List.filter_map, List.filter_filter,
    summarisedColumns]
  simp only [Function.comp_def, hcells]

theorem mem_summarisedColumns (t : Table) (excluded : List String) (name : String)
    (column : Nat) :
    (name, column) ∈ summarisedColumns t excluded ↔
      t.columns[column]? = some name ∧ t.numbers column ≠ [] ∧ name ∉ excluded := by
  rw [summarisedColumns, List.mem_filter, List.mem_zipIdx_iff_getElem?, Bool.and_eq_true,
    Bool.not_eq_true', Bool.not_eq_true', List.isEmpty_eq_false_iff, ← Bool.not_eq_true,
    List.contains_iff_mem]

/-- The columns that are summarised, divided at the last one with a name. -/
theorem summarisedColumns_of_last (t : Table) (excluded : List String) (name : String)
    (column : Nat) (hname : name ∉ excluded) (h : t.LastNumeric name column) :
    ∃ before after, summarisedColumns t excluded = before ++ (name, column) :: after ∧
      ∀ entry ∈ after, entry.1 ≠ name := by
  rcases List.append_of_mem ((mem_summarisedColumns t excluded name column).mpr
    ⟨h.named, h.numeric, hname⟩) with ⟨before, after, hsplit⟩
  refine ⟨before, after, hsplit, ?_⟩
  rintro ⟨other, later⟩ hmem rfl
  -- Positions rise along the columns, so this one comes later.
  have hrising : ((summarisedColumns t excluded).map Prod.snd).Pairwise (· < ·) := by
    have hpositions : (t.columns.zipIdx.map Prod.snd).Pairwise (· < ·) := by
      rw [List.zipIdx_map_snd]
      exact List.pairwise_lt_range' 1 Nat.one_pos
    exact hpositions.sublist (List.filter_sublist.map Prod.snd)
  have hlater : column < later := by
    rw [hsplit, List.map_append, List.map_cons] at hrising
    exact (List.pairwise_cons.mp (List.pairwise_append.mp hrising).2.1).1 later
      (List.mem_map_of_mem hmem)
  have hin : (other, later) ∈ summarisedColumns t excluded := by
    rw [hsplit]
    exact List.mem_append_right _ (List.mem_cons_of_mem _ hmem)
  rcases (mem_summarisedColumns t excluded other later).mp hin with ⟨hnamed, hnumeric, _⟩
  exact hnumeric (h.last later hlater hnamed)

/-! ## The table -/

/-- The quantile of a sample that has one. -/
def quantileValue (values : List Float) (q : Float) : Float :=
  (quantile values q).toOption.getD 0.0

theorem quantile_eq_quantileValue (values : List Float) (q : Float) (hvalues : values ≠ [])
    (hshare : isShare q = true) : quantile values q = .ok (quantileValue values q) := by
  rcases (quantile_isOk_iff values q).mpr ⟨hvalues, hshare⟩ with ⟨x, hx⟩
  rw [quantileValue, hx]
  rfl

/-- The quantiles of all columns at one step. -/
def quantileRow (t : Table) (excluded : List String) (q : Float) : List (String × Float) :=
  byName ((summarisedColumns t excluded).map fun entry =>
    (entry.1, quantileValue (t.numbers entry.2) q))

/-- A quantile table is entries put in their places, and so is each of them. -/
theorem quantileTable_eq_bind (steps : List Float) (excluded : List String) (t : Table) :
    quantileTable steps excluded t
      = (numericSamples t excluded).mapM (fun sample => do
          return (sample.1, ← columnQuantiles steps sample.1 sample.2)) >>= fun columns =>
        .ok (byName (steps.zipIdx.map fun entry => (plainText entry.1,
          byName (columns.map fun column => (column.1, column.2.getD entry.2 0.0))))) := by
  simp only [byName, List.foldl_map]
  rfl

/-- At shares no column is refused, so the entries are the quantiles. -/
theorem quantileTable_eq (steps : List Float) (excluded : List String) (t : Table)
    (hsteps : ∀ q ∈ steps, isShare q = true) :
    quantileTable steps excluded t
      = .ok (byName (steps.map fun q => (plainText q, quantileRow t excluded q))) := by
  have hcolumns : (numericSamples t excluded).mapM (fun sample => do
      return (sample.1, ← columnQuantiles steps sample.1 sample.2))
        = .ok ((numericSamples t excluded).map fun sample =>
            (sample.1, steps.map (quantileValue sample.2))) := by
    refine mapM_eq_ok _ _ _ fun sample hsample => ?_
    have hvalues := (List.mem_filter.mp hsample).2
    rw [Bool.not_eq_true', List.isEmpty_eq_false_iff] at hvalues
    have hcolumn : columnQuantiles steps sample.1 sample.2
        = .ok (steps.map (quantileValue sample.2)) := by
      refine mapM_eq_ok _ _ steps fun q hq => ?_
      rw [quantile_eq_quantileValue _ q hvalues (hsteps q hq)]
    rw [hcolumn]
    rfl
  -- What is taken from a column at the position of a step is its quantile at the step.
  have hrow : ∀ entry ∈ steps.zipIdx,
      byName (((numericSamples t excluded).map fun sample =>
        (sample.1, steps.map (quantileValue sample.2))).map fun column =>
          (column.1, column.2.getD entry.2 0.0))
      = quantileRow t excluded entry.1 := by
    rintro ⟨q, position⟩ hentry
    rw [quantileRow, numericSamples_eq, List.map_map, List.map_map]
    refine congrArg byName (List.map_congr_left fun sample _ => ?_)
    simp only [Function.comp_def, List.getD_eq_getElem?_getD, List.getElem?_map,
      List.mem_zipIdx_iff_getElem?.mp hentry, Option.map_some, Option.getD_some]
  rw [quantileTable_eq_bind, hcolumns]
  refine congrArg (fun entries => Except.ok (byName entries)) ?_
  conv_rhs => rw [← List.zipIdx_map_fst 0 steps, List.map_map]
  exact List.map_congr_left fun entry hentry => by rw [hrow entry hentry]; rfl

/-- What a quantile table says of a table. The printed steps are its keys, each of them once,
    and under every step stand the columns that are not excluded and have a number in them,
    again each once. Under a step and a name stands the quantile at the step of the last column
    with that name that has a number in it. -/
structure QuantileTable.Summarises (q : QuantileTable) (steps : List Float)
    (excluded : List String) (t : Table) : Prop where
  keys : ∀ key, key ∈ q.map Prod.fst ↔ ∃ step ∈ steps, key = plainText step
  keys_rising : (q.map Prod.fst).Pairwise (· < ·)
  names : ∀ entry ∈ q, ∀ name, name ∈ entry.2.map Prod.fst ↔
    name ∉ excluded ∧ ∃ column, t.columns[column]? = some name ∧ t.numbers column ≠ []
  names_rising : ∀ entry ∈ q, (entry.2.map Prod.fst).Pairwise (· < ·)
  values : ∀ step ∈ steps, ∃ row, q.lookup (plainText step) = some row ∧
    ∀ name column, name ∉ excluded → t.LastNumeric name column →
      ∃ x, quantile (t.numbers column) step = .ok x ∧ row.lookup name = some x

theorem mem_map_quantileRow (t : Table) (excluded : List String) (q : Float) (name : String) :
    name ∈ (quantileRow t excluded q).map Prod.fst ↔
      name ∉ excluded ∧ ∃ column, t.columns[column]? = some name ∧ t.numbers column ≠ [] := by
  rw [quantileRow, mem_map_byName, List.map_map, List.mem_map]
  constructor
  · rintro ⟨⟨_, column⟩, hentry, rfl⟩
    rcases (mem_summarisedColumns t excluded _ column).mp hentry with ⟨hnamed, hnumeric, hname⟩
    exact ⟨hname, column, hnamed, hnumeric⟩
  · rintro ⟨hname, column, hnamed, hnumeric⟩
    exact ⟨(name, column), (mem_summarisedColumns t excluded name column).mpr
      ⟨hnamed, hnumeric, hname⟩, rfl⟩

theorem lookup_quantileRow (t : Table) (excluded : List String) (q : Float) (name : String)
    (column : Nat) (hname : name ∉ excluded) (h : t.LastNumeric name column) :
    (quantileRow t excluded q).lookup name = some (quantileValue (t.numbers column) q) := by
  rcases summarisedColumns_of_last t excluded name column hname h with
    ⟨before, after, hsplit, hafter⟩
  rw [quantileRow, hsplit, List.map_append, List.map_cons]
  refine lookup_byName_append _ _ name _ fun entry hentry => ?_
  rcases List.mem_map.mp hentry with ⟨later, hlater, rfl⟩
  exact hafter later hlater

/-- A quantile table at shares is complete. -/
theorem summarises_of_shares (steps : List Float) (excluded : List String) (t : Table)
    (hsteps : ∀ q ∈ steps, isShare q = true) :
    ∃ q, quantileTable steps excluded t = .ok q ∧ q.Summarises steps excluded t := by
  refine ⟨_, quantileTable_eq steps excluded t hsteps, ?_⟩
  have hrow : ∀ entry ∈ byName (steps.map fun q => (plainText q, quantileRow t excluded q)),
      ∃ q, entry.2 = quantileRow t excluded q := by
    intro entry hentry
    rcases List.mem_map.mp (mem_of_mem_byName _ _ hentry) with ⟨q, _, rfl⟩
    exact ⟨q, rfl⟩
  constructor
  · intro key
    rw [mem_map_byName, List.map_map, List.mem_map]
    simp only [Function.comp_def, eq_comm]
  · exact rising_byName _
  · intro entry hentry name
    rcases hrow entry hentry with ⟨q, hq⟩
    rw [hq, mem_map_quantileRow]
  · intro entry hentry
    rcases hrow entry hentry with ⟨q, hq⟩
    rw [hq]
    exact rising_byName _
  · intro step hstep
    refine ⟨quantileRow t excluded step, lookup_byName_of_same _ _ _ ?_ ?_, ?_⟩
    · rw [List.map_map]
      exact List.mem_map_of_mem hstep
    · -- A step that is printed alike is the same step.
      intro entry hentry hkey
      rcases List.mem_map.mp hentry with ⟨q, _, rfl⟩
      rw [plainText_inj q step hkey]
    · intro name column hname hlast
      exact ⟨_, quantile_eq_quantileValue _ step hlast.numeric (hsteps step hstep),
        lookup_quantileRow t excluded step name column hname hlast⟩

/-! ## The three tables -/

namespace Collector

variable (source : Source) (c : Collector)

/-- The three tables of a repository are read: the commit table is kept from before or asked
    for, and the other two are asked for after it. -/
def HasTables (commits files developers : Table) : Prop :=
  ∃ kept, c.allCommits source true = (.ok commits, kept) ∧
    source.Answers kept.requests.length ⟨.files, .all⟩ files ∧
    source.Answers (kept.requests.length + 1) ⟨.developers, .all⟩ developers

theorem allCommits_steps (keep : Bool) : (c.allCommits source keep).2.steps = c.steps := by
  cases hc : c.cached with
  | some kept => rw [allCommits_of_cached source keep c kept hc]
  | none => rw [allCommits_of_none source keep c hc]

/-- Three tables that are read have their quantiles at shares. -/
theorem quantiles_of_hasTables (commits files developers : Table)
    (hsteps : ∀ q ∈ c.steps, isShare q = true)
    (h : c.HasTables source commits files developers) :
    ∃ q, (c.quantiles source).1 = .ok q ∧ q.commit.Summarises c.steps recordColumns commits ∧
      q.file.Summarises c.steps [] files ∧ q.developer.Summarises c.steps [] developers := by
  rcases h with ⟨kept, hcommits, hfiles, hdevelopers⟩
  have hkept : kept.steps = c.steps := by
    rw [← c.allCommits_steps source true, hcommits]
  rcases summarises_of_shares c.steps recordColumns commits hsteps with ⟨qc, hqc, hsc⟩
  rcases summarises_of_shares c.steps [] files hsteps with ⟨qf, hqf, hsf⟩
  rcases summarises_of_shares c.steps [] developers hsteps with ⟨qd, hqd, hsd⟩
  rw [← Source.table_eq_ok_iff] at hfiles hdevelopers
  refine ⟨⟨qc, qf, qd⟩, ?_, hsc, hsf, hsd⟩
  unfold quantiles
  simp only [hcommits, hkept, hqc, fileMetrics, fetchTable_eq, hfiles, hqf, developerMetrics,
    List.length_cons, hdevelopers, hqd]

end Collector

/-- The quantiles of three tables that are read, at steps that were accepted with the
    configuration. No sample is refused, since each has a number in it and no NaN, and each of
    the three quantile tables is complete. -/
theorem quantile_tables_complete (config : Config) (c : Collector) (source : Source)
    (commits files developers : Table) (haccepted : config.validate = .ok config)
    (hsteps : c.steps = config.quantileSteps)
    (htables : c.HasTables source commits files developers) :
    (∃ q, (c.quantiles source).1 = .ok q ∧
      q.commit.Summarises config.quantileSteps [idColumn, dateColumn, labelColumn] commits ∧
      q.file.Summarises config.quantileSteps [] files ∧
      q.developer.Summarises config.quantileSteps [] developers) ∧
    ∀ t ∈ [commits, files, developers], ∀ column, ∀ x ∈ t.numbers column,
      x.isNaN = false ∧ (narrow x).isNaN = false := by
  have hshares := (config.inRange_of_fault? (config.fault?_of_validate config haccepted)).2.2
  rw [← hsteps] at hshares ⊢
  exact ⟨c.quantiles_of_hasTables source commits files developers hshares htables,
    fun t _ => t.isNaN_of_mem_numbers⟩

/-- Steps that come twice and out of order, at both ends of the range. -/
def doubledConfig : Config :=
  { Config.default with quantileSteps := [1.0, 0.5, 1.0, 0.0] }

/-- A name comes twice and its last column holds no number, and dates are no metrics. -/
def doubledTable : Table where
  columns := ["commit_id", "author_date", "la", "la", "exp", "exp", "note"]
  rows := [["a", "0", "1", "x", "5", "7", "nan"], ["b", "1", " 2 ", "", "", "-1e3", "y"]]
  rows_width := by decide

def doubledSource : Source := fun _ request =>
  match request.resource with
  | .commits =>
      .ok "commit_id,author_date,la,la,exp,exp,note\na,0,1,x,5,7,nan\nb,1, 2 ,,,-1e3,y\n"
  | _ => .ok "path\n"

/-- The tables by file and by developer have no rows. -/
def emptyTable : Table where
  columns := ["path"]
  rows := []
  rows_width := by decide

theorem quantile_tables_complete_doubled :
    doubledConfig.validate = .ok doubledConfig ∧
    let c := Collector.ofJobs .all doubledConfig.quantileSteps
    c.HasTables doubledSource doubledTable emptyTable emptyTable ∧
    ∃ q, (c.quantiles doubledSource).1 = .ok q ∧
      q.commit.Summarises doubledConfig.quantileSteps [idColumn, dateColumn, labelColumn]
        doubledTable := by
  have hconfig : doubledConfig.validate = .ok doubledConfig := by
    rw [Config.validate, show doubledConfig.fault? = none by decide +kernel]
  have htables : (Collector.ofJobs .all doubledConfig.quantileSteps).HasTables doubledSource
      doubledTable emptyTable emptyTable := by
    refine ⟨(Collector.ofJobs .all doubledConfig.quantileSteps).afterCommits doubledTable, ?_,
      ⟨_, rfl, ?_⟩, ⟨_, rfl, ?_⟩⟩
    · refine Collector.allCommits_of_answers doubledSource _ doubledTable rfl ⟨_, rfl, ?_⟩
      decide +kernel
    · decide +kernel
    · decide +kernel
  rcases (quantile_tables_complete doubledConfig _ doubledSource doubledTable emptyTable emptyTable
    hconfig rfl htables).1 with ⟨q, hq, hcommit, _⟩
  exact ⟨hconfig, htables, q, hq, hcommit⟩

end CommitRisk
