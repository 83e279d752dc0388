import CommitRisk.Proofs.Parts
import CommitRisk.Proofs.Regrouping

/-!
# Columns by Their Names

Reading the commits of a table looks up where its columns are and reads every row at these
positions. What comes of it depends on the names alone. This is made plain by a second way
to read a row, `Schema.commitOf`, which is given the cells under their names and knows of no
positions. Reading the commits is asking for the names in order, the id, the date and the
features, and then reading every row like this.

From there it is enough to look at the names. A cell under a name is what the row says of
it when it is read next to the header, the first of them if there are several. In a table
whose names differ, that does not change with the order of the columns. A further column
changes nothing either, wherever it is put, as long as its name is not one that is read.

## Main definitions

* `Schema.required`, `Schema.namesRead`: The names a column is looked for under.
* `SaysNumber`: A cell says a number.
* `Table.Reads`: A commit is what a row says under the names.
* `Table.Unreadable`: Why a table cannot be read.
* `Schema.commitOf`: The commit of a row that is given by names.
* `Table.Rearranges`: The columns of a table in another order, or one more that is not read.

## Theorems

* `cellNumber?_eq_some_iff`: The number of a cell.
* `bind_idxOf?_eq_lookup`: The cell of the first column with a name.
* `mapM_requireColumn`: The first name without a column ends the search.
* `commitOfRow_eq_commitOf`: Positions that were found are names.
* `commits_eq_commitOf`: Reading a table by names.
* `reads_of_commits`, `commits_eq_error_iff`: What the commits say, and why there are none.
* `commits_of_sameCells`: Tables that say the same under the names.
* `lookup_of_order`, `lookup_of_further`: One change of the columns.
* `commits_of_rearranges`: Reading after a change of the columns.
* `commits_by_name`: What the commits of a table depend on.
-/

namespace CommitRisk

/-! ## Names -/

namespace Schema

/-- The names there has to be a column for, in the order they are asked for. -/
def required (s : Schema) : List String :=
  idColumn :: dateColumn :: s.features

/-- All names a column is looked for under. -/
def namesRead (s : Schema) : List String :=
  labelColumn :: s.required

end Schema

/-- A cell says a number: it is not blank and spells one that is not NaN. -/
def SaysNumber (cell : String) (x : Float) : Prop :=
  trim cell.toList ≠ [] ∧ readFloat (trim cell.toList) = some x ∧ x.isNaN = false

theorem cellNumber?_eq_some_iff (cell : String) (x : Float) :
    cellNumber? cell = some x ↔ SaysNumber cell x := by
  have hblank : readFloat [] = none := by decide
  rw [cellNumber?, Option.filter_eq_some_iff, Bool.not_eq_true', SaysNumber]
  refine ⟨fun h => ⟨fun hempty => ?_, h⟩, fun h => h.2⟩
  rw [hempty, hblank] at h
  cases h.1

/-- The cell under the first column with a name is what the name leads to when header and
    row are read together. -/
theorem bind_idxOf?_eq_lookup (names cells : List String) (name : String) :
    ((names.idxOf? name).bind fun column => cells[column]?) = (names.zip cells).lookup name := by
  induction names generalizing cells with
  | nil => rfl
  | cons first rest ih =>
      cases cells with
      | nil =>
          rw [List.zip_nil_right, List.lookup_nil]
          cases (first :: rest).idxOf? name <;> rfl
      | cons cell cells =>
          rw [List.idxOf?_cons, List.zip_cons_cons, List.lookup_cons]
          by_cases hname : name = first
          · subst hname
            simp only [beq_self_eq_true, if_true, Option.bind_some, List.getElem?_cons_zero]
          · have hother : (name == first) = false := beq_eq_false_iff_ne.mpr hname
            have hother' : (first == name) = false := beq_eq_false_iff_ne.mpr (Ne.symm hname)
            simp only [hother, hother', Bool.false_eq_true, if_false, ← ih cells]
            cases rest.idxOf? name with
            | none => rfl
            | some column => rfl

namespace Table

theorem cellAt?_eq_lookup (t : Table) (row : List String) (name : String) :
    t.cellAt? row name = (t.columns.zip row).lookup name :=
  bind_idxOf?_eq_lookup t.columns row name

/-! ## Reading by names -/

/-- A commit is what a row says: the texts, the date and the label under their names, and
    for each feature the number under it, if there is one. -/
structure Reads (t : Table) (s : Schema) (row : List String) (c : Commit) : Prop where
  id : t.cellAt? row idColumn = some c.id
  date : (t.cellAt? row dateColumn).bind cellDate? = some c.date
  metrics : List.Forall₂ (fun f m => ∀ x, m = some x ↔
    ∃ cell, t.cellAt? row f = some cell ∧ SaysNumber cell x) s.features c.metrics
  label : c.label = (t.cellAt? row labelColumn).bind cellLabel?

/-- Why a table cannot be read: the first of the required names has no column, or all have
    one and the first row without a date is reported by its id and what stands in place of
    the date. -/
inductive Unreadable (t : Table) (s : Schema) : TableError → Prop where
  | column (name : String)
      (hfirst : s.required.find? (fun n => decide (n ∉ t.columns)) = some name) :
      Unreadable t s (.missingColumn name)
  | date (before : List (List String)) (row : List String) (after : List (List String))
      (id value : String) (hcolumns : ∀ n ∈ s.required, n ∈ t.columns)
      (hrows : t.rows = before ++ row :: after)
      (hbefore : ∀ r ∈ before, ∃ day, (t.cellAt? r dateColumn).bind cellDate? = some day)
      (hid : t.cellAt? row idColumn = some id)
      (hvalue : t.cellAt? row dateColumn = some value) (hdate : cellDate? value = none) :
      Unreadable t s (.invalidDate id value)

end Table

/-- The commit of a row that is given by what it says under each name. -/
def Schema.commitOf (s : Schema) (cell : String → Option String) : Except TableError Commit :=
  match (cell dateColumn).bind cellDate? with
  | none => .error (.invalidDate ((cell idColumn).getD "") ((cell dateColumn).getD ""))
  | some day => .ok {
      id := (cell idColumn).getD ""
      date := day
      metrics := s.features.map fun f => (cell f).bind cellNumber?
      label := (cell labelColumn).bind cellLabel? }

/-- Only the names that are read matter to the commit of a row. -/
theorem Schema.commitOf_congr (s : Schema) (cell cell' : String → Option String)
    (h : ∀ n ∈ s.namesRead, cell n = cell' n) : s.commitOf cell = s.commitOf cell' := by
  have hlabel := h labelColumn List.mem_cons_self
  have hrest : ∀ n ∈ s.required, cell n = cell' n := fun n hn => h n (List.mem_cons_of_mem _ hn)
  have hid := hrest idColumn List.mem_cons_self
  have hdate := hrest dateColumn (List.mem_cons_of_mem _ List.mem_cons_self)
  have hfeatures : s.features.map (fun f => (cell f).bind cellNumber?)
      = s.features.map fun f => (cell' f).bind cellNumber? :=
    List.map_congr_left fun f hf => by
      rw [hrest f (List.mem_cons_of_mem _ (List.mem_cons_of_mem _ hf))]
  unfold Schema.commitOf
  rw [hlabel, hid, hdate, hfeatures]

namespace Table

/-- Asking for a column under each of some names finds all of them, or ends at the first
    that has none. -/
theorem mapM_requireColumn (t : Table) (names : List String) :
    (names.find? (fun n => decide (n ∉ t.columns)) = none ∧
      ∃ columns, names.mapM t.requireColumn = .ok columns) ∨
    ∃ name, names.find? (fun n => decide (n ∉ t.columns)) = some name ∧
      names.mapM t.requireColumn = .error (.missingColumn name) := by
  cases hfind : names.find? (fun n => decide (n ∉ t.columns)) with
  | none =>
      refine .inl ⟨rfl, (mapM_isOk_iff _ _).mpr fun n hn => ?_⟩
      rw [t.requireColumn_isOk_iff]
      exact not_not.mp fun hmissing => List.find?_eq_none.mp hfind n hn (decide_eq_true hmissing)
  | some name =>
      rcases List.find?_eq_some_iff_append.mp hfind with ⟨hmissing, before, after, rfl, hbefore⟩
      refine .inr ⟨name, rfl, (mapM_eq_error_iff _ _ _).mpr ⟨before, name, after, rfl, ?_, ?_⟩⟩
      · intro n hn
        rw [t.requireColumn_isOk_iff]
        simpa only [decide_not, Bool.not_not, decide_eq_true_eq] using hbefore n hn
      · rw [requireColumn, columnIndex?, List.idxOf?_eq_none_iff.mpr (of_decide_eq_true hmissing)]

/-- The metrics of a row are the numbers under the names of the features. -/
theorem map_cellNumber?_eq (t : Table) (features : List String) (columns : List Nat)
    (hcolumns : List.Forall₂ (fun f column => t.requireColumn f = .ok column) features columns)
    (row : List String) (hrow : row ∈ t.rows) :
    columns.map (fun column => cellNumber? (row[column]?.getD ""))
      = features.map fun f => (t.cellAt? row f).bind cellNumber? := by
  induction hcolumns with
  | nil => rfl
  | cons hcolumn _ ih =>
      rw [List.map_cons, List.map_cons, ih, t.cellAt?_of_requireColumn row hrow _ _ hcolumn,
        Option.bind_some]

/-- The label of a row is what stands under its name, if there is such a column. -/
theorem bind_cellLabel?_eq (t : Table) (row : List String) (hrow : row ∈ t.rows) :
    ((t.columnIndex? labelColumn).bind fun column => cellLabel? (row[column]?.getD ""))
      = (t.cellAt? row labelColumn).bind cellLabel? := by
  cases hindex : t.columnIndex? labelColumn with
  | none => rw [cellAt?, hindex, Option.bind_none, Option.bind_none, Option.bind_none]
  | some column =>
      have hcell := t.cellAt?_of_requireColumn row hrow labelColumn column
        (by rw [requireColumn, hindex])
      rw [hcell, Option.bind_some, Option.bind_some]

/-- At the positions where the names were found, a row says what it says under the names. -/
theorem commitOfRow_eq_commitOf (t : Table) (s : Schema) (id date : Nat) (columns : List Nat)
    (hid : t.requireColumn idColumn = .ok id) (hdate : t.requireColumn dateColumn = .ok date)
    (hcolumns : List.Forall₂ (fun f column => t.requireColumn f = .ok column) s.features columns)
    (row : List String) (hrow : row ∈ t.rows) :
    commitOfRow id date (t.columnIndex? labelColumn) columns row = s.commitOf (t.cellAt? row) := by
  unfold commitOfRow Schema.commitOf
  rw [t.cellAt?_of_requireColumn row hrow idColumn id hid,
    t.cellAt?_of_requireColumn row hrow dateColumn date hdate,
    ← t.map_cellNumber?_eq s.features columns hcolumns row hrow, ← t.bind_cellLabel?_eq row hrow]
  rfl

/-- The columns of a schema are asked for together. -/
theorem commits_eq_required (t : Table) (s : Schema) :
    t.commits s = (s.required.mapM t.requireColumn >>= fun columns =>
      t.rows.mapM (commitOfRow (columns.headD 0) (columns.tail.headD 0)
        (t.columnIndex? labelColumn) columns.tail.tail)) := by
  unfold commits Schema.required
  rw [List.mapM_cons, List.mapM_cons]
  cases t.requireColumn idColumn with
  | error e => rfl
  | ok id =>
      cases t.requireColumn dateColumn with
      | error e => rfl
      | ok date =>
          cases s.features.mapM t.requireColumn with
          | error e => rfl
          | ok columns => rfl

/-- The commits of a table are read by asking for the names and then reading row by row
    what is said under them. -/
theorem commits_eq_commitOf (t : Table) (s : Schema) :
    t.commits s = match s.required.find? (fun n => decide (n ∉ t.columns)) with
      | some name => .error (.missingColumn name)
      | none => t.rows.mapM fun row => s.commitOf (t.cellAt? row) := by
  rcases t.mapM_requireColumn s.required with ⟨hfind, columns, hcolumns⟩ | ⟨name, hfind, hmissing⟩
  · rw [commits_eq_required, hfind, hcolumns]
    cases forall₂_of_mapM _ _ _ hcolumns with
    | cons hid hrest =>
        cases hrest with
        | cons hdate hfeatures =>
            refine mapM_of_forall₂ _ _ (List.forall₂_same.mpr fun row hrow => ?_)
            exact t.commitOfRow_eq_commitOf s _ _ _ hid hdate hfeatures row hrow
  · rw [commits_eq_required, hfind, hmissing]
    rfl

/-! ## What is read -/

theorem exists_cellAt? (t : Table) (row : List String) (hrow : row ∈ t.rows) (name : String)
    (hname : name ∈ t.columns) : ∃ cell, t.cellAt? row name = some cell := by
  rcases (t.requireColumn_isOk_iff name).mpr hname with ⟨column, hcolumn⟩
  exact ⟨_, t.cellAt?_of_requireColumn row hrow name column hcolumn⟩

/-- The commit of a row with all the columns is what the row says. -/
theorem reads_of_commitOf (t : Table) (s : Schema) (hcolumns : ∀ n ∈ s.required, n ∈ t.columns)
    (row : List String) (hrow : row ∈ t.rows) (c : Commit)
    (hc : s.commitOf (t.cellAt? row) = .ok c) : t.Reads s row c := by
  rcases t.exists_cellAt? row hrow idColumn (hcolumns _ List.mem_cons_self) with ⟨id, hid⟩
  cases hdate : (t.cellAt? row dateColumn).bind cellDate? with
  | none =>
      rw [Schema.commitOf, hdate] at hc
      cases hc
  | some day =>
      rw [Schema.commitOf, hdate] at hc
      cases hc
      refine ⟨by rw [hid, Option.getD_some], hdate, ?_, rfl⟩
      rw [List.forall₂_map_right_iff, List.forall₂_same]
      intro f _ x
      simp only [Option.bind_eq_some_iff, cellNumber?_eq_some_iff]

/-- A row with all the columns is at fault if it has no date, and is reported by its id and
    what stands in place of the date. -/
theorem commitOf_eq_error_iff (t : Table) (s : Schema)
    (hcolumns : ∀ n ∈ s.required, n ∈ t.columns) (row : List String) (hrow : row ∈ t.rows)
    (e : TableError) :
    s.commitOf (t.cellAt? row) = .error e ↔
      ∃ id value, e = .invalidDate id value ∧ t.cellAt? row idColumn = some id ∧
        t.cellAt? row dateColumn = some value ∧ cellDate? value = none := by
  rcases t.exists_cellAt? row hrow idColumn (hcolumns _ List.mem_cons_self) with ⟨id, hid⟩
  rcases t.exists_cellAt? row hrow dateColumn
    (hcolumns _ (List.mem_cons_of_mem _ List.mem_cons_self)) with ⟨value, hvalue⟩
  rw [Schema.commitOf, hid, hvalue, Option.bind_some, Option.getD_some, Option.getD_some]
  constructor
  · intro h
    cases hdate : cellDate? value with
    | some day =>
        rw [hdate] at h
        cases h
    | none =>
        rw [hdate] at h
        cases h
        exact ⟨id, value, rfl, rfl, rfl, hdate⟩
  · rintro ⟨_, _, rfl, hid', hvalue', hdate⟩
    cases hid'
    cases hvalue'
    rw [hdate]

theorem commitOf_isOk_iff (s : Schema) (cell : String → Option String) :
    (∃ c, s.commitOf cell = .ok c) ↔ ∃ day, (cell dateColumn).bind cellDate? = some day := by
  rw [Schema.commitOf]
  cases (cell dateColumn).bind cellDate? with
  | none => simp only [reduceCtorEq, exists_false]
  | some day => exact ⟨fun _ => ⟨day, rfl⟩, fun _ => ⟨_, rfl⟩⟩

theorem find?_missing_eq_none (t : Table) (s : Schema) :
    s.required.find? (fun n => decide (n ∉ t.columns)) = none ↔
      ∀ n ∈ s.required, n ∈ t.columns := by
  rw [List.find?_eq_none]
  exact forall₂_congr fun n _ => by rw [decide_eq_true_eq, not_not]

/-- Every commit of a table is what its row says. -/
theorem reads_of_commits (t : Table) (s : Schema) (cs : List Commit) (h : t.commits s = .ok cs) :
    List.Forall₂ (t.Reads s) t.rows cs := by
  rw [commits_eq_commitOf] at h
  cases hfind : s.required.find? (fun n => decide (n ∉ t.columns)) with
  | some name =>
      rw [hfind] at h
      cases h
  | none =>
      rw [hfind] at h
      have hcolumns := (t.find?_missing_eq_none s).mp hfind
      have hrows := (List.forall₂_and_left t.rows cs).mpr
        ⟨fun row (hrow : row ∈ t.rows) => hrow, forall₂_of_mapM _ _ _ h⟩
      exact hrows.imp fun row c hc => t.reads_of_commitOf s hcolumns row hc.1 c hc.2

/-- Without a column of labels there are no labels. -/
theorem Reads.label_eq_none {t : Table} {s : Schema} {row : List String} {c : Commit}
    (h : t.Reads s row c) (hlabel : labelColumn ∉ t.columns) : c.label = none := by
  rw [h.label, cellAt?, columnIndex?, List.idxOf?_eq_none_iff.mpr hlabel, Option.bind_none,
    Option.bind_none]

theorem commits_of_unreadable (t : Table) (s : Schema) (e : TableError) (h : t.Unreadable s e) :
    t.commits s = .error e := by
  rw [commits_eq_commitOf]
  cases h with
  | column name hfirst => rw [hfirst]
  | date before row after id value hcolumns hrows hbefore hid hvalue hdate =>
      rw [(t.find?_missing_eq_none s).mpr hcolumns]
      have hrow : row ∈ t.rows := by
        rw [hrows]
        exact List.mem_append_right _ List.mem_cons_self
      refine (mapM_eq_error_iff _ _ _).mpr ⟨before, row, after, hrows,
        fun r hr => (commitOf_isOk_iff s _).mpr (hbefore r hr), ?_⟩
      exact (t.commitOf_eq_error_iff s hcolumns row hrow _).mpr
        ⟨id, value, rfl, hid, hvalue, hdate⟩

theorem unreadable_of_commits (t : Table) (s : Schema) (e : TableError)
    (h : t.commits s = .error e) : t.Unreadable s e := by
  rw [commits_eq_commitOf] at h
  cases hfind : s.required.find? (fun n => decide (n ∉ t.columns)) with
  | some name =>
      rw [hfind] at h
      cases h
      exact .column name hfind
  | none =>
      rw [hfind] at h
      have hcolumns := (t.find?_missing_eq_none s).mp hfind
      rcases (mapM_eq_error_iff _ _ _).mp h with ⟨before, row, after, hrows, hbefore, hfault⟩
      have hrow : row ∈ t.rows := by
        rw [hrows]
        exact List.mem_append_right _ List.mem_cons_self
      rcases (t.commitOf_eq_error_iff s hcolumns row hrow e).mp hfault with
        ⟨id, value, rfl, hid, hvalue, hdate⟩
      exact .date before row after id value hcolumns hrows
        (fun r hr => (commitOf_isOk_iff s _).mp (hbefore r hr)) hid hvalue hdate

/-- Why a table has no commits. -/
theorem commits_eq_error_iff (t : Table) (s : Schema) (e : TableError) :
    t.commits s = .error e ↔ t.Unreadable s e :=
  ⟨t.unreadable_of_commits s e, t.commits_of_unreadable s e⟩

/-! ## Other columns, other positions -/

/-- Tables that have the same of the required columns and say the same under all names that
    are read have the same commits, or fail alike. -/
theorem commits_of_sameCells (t t' : Table) (s : Schema)
    (hcolumns : ∀ n ∈ s.required, n ∈ t.columns ↔ n ∈ t'.columns)
    (hrows : List.Forall₂ (fun row row' => ∀ n ∈ s.namesRead, t.cellAt? row n = t'.cellAt? row' n)
      t.rows t'.rows) : t'.commits s = t.commits s := by
  have hfind : s.required.find? (fun n => decide (n ∉ t'.columns))
      = s.required.find? fun n => decide (n ∉ t.columns) :=
    List.find?_congr fun n hn => decide_eq_decide.mpr (not_congr (hcolumns n hn).symm)
  have hread : t.rows.mapM (fun row => s.commitOf (t.cellAt? row))
      = t'.rows.mapM fun row => s.commitOf (t'.cellAt? row) :=
    mapM_of_forall₂ _ _ (hrows.imp fun row row' h => s.commitOf_congr _ _ h)
  rw [commits_eq_commitOf, commits_eq_commitOf, hfind, hread]

/-- A change of the columns of a table together with their cells. -/
inductive Rearranges (s : Schema) (t t' : Table) : Prop where
  /-- Columns with different names are put in another order. -/
  | reorder (order : List Nat) (hnames : t.columns.Nodup)
      (horder : order.Perm (List.range t.columns.length))
      (hcolumns : order.map (fun i => t.columns[i]?) = t'.columns.map some)
      (hrows : List.Forall₂ (fun row row' => order.map (fun i => row[i]?) = row'.map some)
        t.rows t'.rows)
  /-- A column that is not read is put in between, with any cells. -/
  | insert (before after : List String) (name : String)
      (hname : name ∉ s.namesRead) (hcolumns : t.columns = before ++ after)
      (hcolumns' : t'.columns = before ++ name :: after)
      (hrows : List.Forall₂ (fun row row' => ∃ left cell right, left.length = before.length ∧
        row = left ++ right ∧ row' = left ++ cell :: right) t.rows t'.rows)

/-- What a row in another order says under a name, if the names differ. -/
theorem lookup_of_order (names cells names' cells' : List String) (order : List Nat)
    (hnodup : names.Nodup) (hlength : cells.length = names.length)
    (horder : order.Perm (List.range names.length))
    (hnames : order.map (fun i => names[i]?) = names'.map some)
    (hcells : order.map (fun i => cells[i]?) = cells'.map some) (name : String) :
    (names.zip cells).lookup name = (names'.zip cells').lookup name := by
  have hzip : order.map (fun i => (names.zip cells)[i]?) = (names'.zip cells').map some := by
    clear horder
    induction order generalizing names' cells' with
    | nil =>
        rw [List.map_nil, eq_comm, List.map_eq_nil_iff] at hnames
        rw [hnames, List.zip_nil_left]
        rfl
    | cons i order ih =>
        rw [List.map_cons, eq_comm, List.map_eq_cons_iff] at hnames hcells
        rcases hnames with ⟨first, names', rfl, hfirst, hnames⟩
        rcases hcells with ⟨cell, cells', rfl, hcell, hcells⟩
        rw [List.map_cons, List.zip_cons_cons, List.map_cons,
          ih names' cells' hnames.symm hcells.symm,
          List.getElem?_zip_eq_some (z := (first, cell)) |>.mpr ⟨hfirst.symm, hcell.symm⟩]
  have hlengths : (names.zip cells).length = names.length := by
    rw [List.length_zip, hlength, min_self]
  have hperm := TrainingSet.perm_of_read (names.zip cells) (names'.zip cells') order
    (by rw [hlengths]; exact horder) hzip
  refine lookup_of_perm hperm.symm ?_ name
  rw [List.map_fst_zip (le_of_eq hlength.symm)]
  exact hnodup

/-- What a row with a further cell says under any other name. -/
theorem lookup_of_further (before after left right : List String) (further cell name : String)
    (hlength : left.length = before.length) (hname : name ≠ further) :
    ((before ++ after).zip (left ++ right)).lookup name
      = ((before ++ further :: after).zip (left ++ cell :: right)).lookup name := by
  rw [List.zip_append hlength.symm, List.zip_append hlength.symm, List.zip_cons_cons,
    List.lookup_append, List.lookup_append, List.lookup_cons, beq_eq_false_iff_ne.mpr hname]

/-- Reading the commits does not notice a change of the columns. -/
theorem commits_of_rearranges (t t' : Table) (s : Schema) (h : Rearranges s t t') :
    t'.commits s = t.commits s := by
  cases h with
  | reorder order hnames horder hcolumns hrows =>
      have hperm := TrainingSet.perm_of_read t.columns t'.columns order horder hcolumns
      refine commits_of_sameCells t t' s (fun n _ => hperm.symm.mem_iff) ?_
      refine ((List.forall₂_and_left _ _).mpr ⟨t.rows_width, hrows⟩).imp ?_
      rintro row row' ⟨hrow, hcells⟩ n _
      rw [cellAt?_eq_lookup, cellAt?_eq_lookup]
      exact lookup_of_order _ _ _ _ order hnames hrow horder hcolumns hcells n
  | insert before after name hname hcolumns hcolumns' hrows =>
      have hother : ∀ n ∈ s.namesRead, n ≠ name := fun n hn h => hname (h ▸ hn)
      refine commits_of_sameCells t t' s (fun n hn => ?_) (hrows.imp ?_)
      · have hne := hother n (List.mem_cons_of_mem _ hn)
        rw [hcolumns, hcolumns', List.mem_append, List.mem_append, List.mem_cons,
          or_iff_right hne]
      · rintro row row' ⟨left, cell, right, hlength, rfl, rfl⟩ n hn
        rw [cellAt?_eq_lookup, cellAt?_eq_lookup, hcolumns, hcolumns']
        exact lookup_of_further before after left right name cell n hlength (hother n hn)

/-- The commits of a table depend on its columns by name only. There are commits exactly if
    the id, the date and every feature have a column and every row has a date, and then the
    commit of a row is what it says under the names, without a label where there is no column
    of labels. Otherwise the first missing name is reported, or the first row without a
    date. Nothing of this changes when the columns of a table, with different names, are put in
    another order, or when columns are added whose names are not read, any number of times. -/
theorem commits_by_name (t : Table) (s : Schema) :
    ((∃ cs, t.commits s = .ok cs) ↔ t.Readable s) ∧
    (∀ cs, t.commits s = .ok cs → List.Forall₂ (fun row c => t.Reads s row c ∧
      (labelColumn ∉ t.columns → c.label = none)) t.rows cs) ∧
    (∀ e, t.commits s = .error e ↔ t.Unreadable s e) ∧
    (∀ t', Relation.ReflTransGen (Rearranges s) t t' → t'.commits s = t.commits s) := by
  refine ⟨t.commits_isOk_iff s, fun cs hcs => ?_, t.commits_eq_error_iff s, fun t' h => ?_⟩
  · exact (t.reads_of_commits s cs hcs).imp fun row c hc => ⟨hc, hc.label_eq_none⟩
  · induction h with
    | refl => rfl
    | tail _ hstep ih => rw [commits_of_rearranges _ _ s hstep, ih]

end Table

end CommitRisk
