import CommitRisk.Output.Sheet
import CommitRisk.Proofs.WrittenTables

/-!
# Sheets Are Read Back

The writer and the reader of comma separated values were made for each other,
except in one place. A carriage return in front of a line feed belongs to the end
of the line, so a field that ends in one has to stand between quotes if it is the
last of its record, and the writer does not put quotes around a field for a
carriage return alone. Such a field loses its last character when it is read again,
and `dropReturn` says so. Everywhere else, and for any other field, the text is read
back as it was meant.

In a sheet of attributions only the last column name can be such a field. The last
cell of a row is a number or empty.

## Main definitions

* `LosesReturn`, `dropReturn`: The fields that are not read back at the end of a
  line, and what they are read back as.
* `readBack`: What a written record is read as.
* `sheetCells`, `sheetRecords`: The fields of an attribution and of a whole sheet.

## Theorems

* `readsAs_writeField`: A written field in front of a rest.
* `records_writeRecords`: All records that are written are read.
* `readBack_eq_self_iff`: The records that are read as they are.
* `not_losesReturn_plainText`: A number is read as it is.
* `parse_writeSheet`: The sheets that are read as they are.
-/

namespace CommitRisk

namespace Csv

/-! ## Fields at the end of a line -/

/-- A carriage return ends the field, and nothing in the field makes the writer put
    quotes around it. -/
def LosesReturn (field : String) : Prop :=
  field.toList.getLast? = some '\r' ∧ ∀ c ∈ field.toList, c ≠ ',' ∧ c ≠ '"' ∧ c ≠ '\n'

-- The characters are gone through one by one, not all that there are.
instance (field : String) : Decidable (LosesReturn field) :=
  have := List.decidableBAll (fun c => c ≠ ',' ∧ c ≠ '"' ∧ c ≠ '\n') field.toList
  instDecidableAnd

/-- The field that is read at the end of a line. -/
def dropReturn (field : String) : String :=
  if LosesReturn field then String.ofList field.toList.dropLast else field

/-- The record that is read from the line of a record. -/
def readBack : List String → List String
  | [] => []
  | [field] => [dropReturn field]
  | field :: next :: fields => field :: readBack (next :: fields)

theorem isSpecial_eq_false {c : Char} (h : c ≠ ',' ∧ c ≠ '"' ∧ c ≠ '\n') : isSpecial c = false := by
  rw [isSpecial, beq_eq_false_iff_ne.mpr h.1, beq_eq_false_iff_ne.mpr h.2.1,
    beq_eq_false_iff_ne.mpr h.2.2]
  rfl

theorem LosesReturn.writeField {field : String} (h : LosesReturn field) :
    writeField field.toList = field.toList := by
  rw [Csv.writeField, if_neg]
  rw [List.any_eq_true]
  rintro ⟨c, hc, hspecial⟩
  rw [isSpecial_eq_false (h.2 c hc)] at hspecial
  exact absurd hspecial Bool.false_ne_true

/-- A written field is read as it is, unless it loses its carriage return to a line
    feed that follows. -/
theorem readsAs_writeField (field : String) (rest : List Char) (hrest : rest.head? ≠ some '"')
    (hreturn : LosesReturn field → rest.head? ≠ some '\n') :
    ReadsAs (writeField field.toList) field rest := by
  by_cases hspecial : field.toList.any isSpecial = true
  · rw [writeField, if_pos hspecial]
    exact readsAs_quoted field rest hrest
  · rw [writeField, if_neg hspecial]
    rw [Bool.not_eq_true, List.any_eq_false] at hspecial
    have hplain : ∀ c ∈ field.toList, isSpecial c = false := fun c hc =>
      Bool.eq_false_iff.mpr (hspecial c hc)
    refine readsAs_raw field rest hplain fun hlast => hreturn ⟨hlast, fun c hc => ?_⟩
    have hc' := hplain c hc
    simp only [isSpecial, Bool.or_eq_false_iff, beq_eq_false_iff_ne] at hc'
    exact ⟨hc'.1.1, hc'.1.2, hc'.2⟩

/-- A field that loses its carriage return, up to the line feed. -/
theorem LosesReturn.readsAs {field : String} (h : LosesReturn field) (rest : List Char) :
    ReadsAs (Csv.writeField field.toList) (dropReturn field) ('\n' :: rest) := by
  rcases List.getLast?_eq_some_iff.mp h.1 with ⟨content, hcontent⟩
  have hplain : ∀ c ∈ content, isSpecial c = false := fun c hc =>
    isSpecial_eq_false (h.2 c (by rw [hcontent]; exact List.mem_append_left _ hc))
  have hlines : field.toList.count '\n' = 0 :=
    List.count_eq_zero.mpr fun hc => (h.2 '\n' hc).2.2 rfl
  intro records record before line
  rw [h.writeField, hlines, dropReturn, if_pos h, String.toList_ofList, hcontent,
    List.dropLast_concat, List.append_assoc, List.singleton_append,
    -- What stands in front of the last carriage return is followed by it, not by the line feed.
    Cursor.scan_plain _ _ _ _ _ _ hplain (fun _ => by simp only [List.head?_cons, ne_eq,
      Option.some.injEq, Char.reduceEq, not_false_eq_true]),
    Cursor.scan_returnAndFeed]
  rfl

/-- The last field of a record, up to the line feed. -/
theorem readsAs_lastField (field : String) (rest : List Char) :
    ReadsAs (writeField field.toList) (dropReturn field) ('\n' :: rest) := by
  by_cases h : LosesReturn field
  · exact h.readsAs rest
  · rw [dropReturn, if_neg h]
    exact readsAs_writeField field _ (by simp only [List.head?_cons, ne_eq, Option.some.injEq,
      Char.reduceEq, not_false_eq_true]) fun hloses => absurd hloses h

/-! ## Records -/

/-- The line of a record without its end. -/
theorem readsRecord_written (record : List String) (hrecord : record ≠ []) (rest : List Char) :
    ReadsRecord ([','].intercalate (record.map fun field => writeField field.toList))
      (readBack record) ('\n' :: rest) := by
  induction record using readBack.induct with
  | case1 => exact absurd rfl hrecord
  | case2 field =>
      rw [List.map_singleton, List.intercalate_singleton]
      exact (readsAs_lastField field rest).record
  | case3 field next fields ih =>
      rw [List.map_cons, List.map_cons, List.intercalate_cons_cons, List.append_assoc,
        List.singleton_append]
      refine .cons (readsAs_writeField field _ ?_ fun _ => ?_)
        (ih (List.cons_ne_nil next fields)) <;>
        simp only [List.head?_cons, ne_eq, Option.some.injEq, Char.reduceEq, not_false_eq_true]

/-- The lines of some records. -/
def writeRecords (records : List (List String)) : List Char :=
  records.flatMap fun record => writeRecord (record.map fun field => writeField field.toList)

theorem scan_writeRecords (records earlier : List (List String)) (line : Nat)
    (h : ∀ record ∈ records, record ≠ []) :
    ∃ n, Cursor.scan ⟨earlier, [], [], line, none⟩ (writeRecords records)
      = ⟨(records.map readBack).reverse ++ earlier, [], [], n, none⟩ := by
  induction records generalizing earlier line with
  | nil => exact ⟨line, rfl⟩
  | cons record records ih =>
      have hrecord := readsRecord_written record (h record List.mem_cons_self)
        (writeRecords records)
      rw [writeRecords, List.flatMap_cons, writeRecord, List.append_assoc,
        hrecord.line .lineFeed earlier line, List.map_cons, List.reverse_cons, List.append_assoc,
        List.singleton_append]
      exact ih (readBack record :: earlier) _ fun r hr => h r (List.mem_cons_of_mem record hr)

/-- All records that are written are read, with the carriage returns missing that end
    a line. -/
theorem records_writeRecords (records : List (List String)) (h : ∀ record ∈ records, record ≠ []) :
    Csv.records (String.ofList (writeRecords records))
      = .ok (keptRecords (records.map readBack)) := by
  rcases scan_writeRecords records [] 1 h with ⟨n, hn⟩
  unfold Csv.records
  rw [String.toList_ofList, Cursor.start, hn, List.append_nil]
  simp only [Cursor.finish, List.isEmpty_nil, Bool.and_self, if_true, List.reverse_reverse]
  rfl

theorem dropReturn_eq_self_iff (field : String) :
    dropReturn field = field ↔ ¬ LosesReturn field := by
  rw [dropReturn]
  split
  · rename_i h
    refine iff_of_false (fun hsame => ?_) (not_not_intro h)
    -- The field is not empty, so it is longer than what is left of it.
    have hlength := congrArg (fun s : String => s.toList.length) hsame
    have hsome : field.toList ≠ [] := fun hnone => by
      rw [LosesReturn, hnone] at h
      exact absurd h.1 (by decide)
    have hpos := List.length_pos_iff.mpr hsome
    simp only [String.toList_ofList, List.length_dropLast] at hlength
    omega
  · rename_i h
    exact iff_of_true rfl h

theorem readBack_eq_self_iff (record : List String) :
    readBack record = record ↔ ∀ field ∈ record.getLast?, ¬ LosesReturn field := by
  induction record using readBack.induct with
  | case1 => simp only [readBack, List.getLast?_nil, Option.mem_def, reduceCtorEq, false_imp_iff,
      implies_true]
  | case2 field =>
      rw [readBack, List.cons.injEq, dropReturn_eq_self_iff, List.getLast?_singleton]
      simp only [and_true, Option.mem_def, Option.some.injEq, forall_eq']
  | case3 field next fields ih =>
      rw [readBack, List.cons.injEq, ih, List.getLast?_cons_cons]
      simp only [true_and]

/-- The line of a record with two fields or more is no blank line. -/
theorem isBlankLine_readBack (first second : String) (rest : List String) :
    isBlankLine (readBack (first :: second :: rest)) = false := by
  rw [isBlankLine, readBack, beq_eq_false_iff_ne]
  cases rest <;> simp only [readBack, ne_eq, List.cons.injEq, reduceCtorEq, and_false,
    not_false_eq_true]

end Csv

/-! ## Numbers -/

namespace NumberFormat

theorem return_not_mem_positional (f : NumberFormat) (digits : List Char) (exponent : Int)
    (h : '\r' ∉ digits) : '\r' ∉ f.positional digits exponent := by
  have hzeros : ∀ n, '\r' ∉ List.replicate n '0' := fun n hc =>
    absurd (List.eq_of_mem_replicate hc) (by decide)
  rw [positional]
  split
  · rw [List.mem_append, List.mem_append]
    rintro ((hc | hc) | hc)
    · exact h hc
    · exact hzeros _ hc
    · split at hc <;> exact absurd hc (by decide)
  · dsimp only
    split
    · rw [List.mem_append, List.mem_cons]
      rintro (hc | hc | hc)
      · exact h (List.mem_of_mem_take hc)
      · exact absurd hc (by decide)
      · exact h (List.mem_of_mem_drop hc)
    · rw [List.mem_cons, List.mem_cons, List.mem_append]
      rintro (hc | hc | hc | hc)
      · exact absurd hc (by decide)
      · exact absurd hc (by decide)
      · exact hzeros _ hc
      · exact h hc

theorem return_not_mem_digitsOf (n : Nat) : '\r' ∉ digitsOf n := fun h =>
  absurd (Nat.isDigit_of_mem_toDigits (by decide) (by decide) h) (by decide)

theorem return_not_mem_plain (negative : Bool) (mantissa : Nat) (exponent : Int) :
    '\r' ∉ plain.finite negative mantissa exponent := by
  have hmagnitude : '\r' ∉ if mantissa == 0 then plain.positional ['0'] 0 else
      plain.positional (digitsOf (shortest plain.tie mantissa exponent).digits)
        (shortest plain.tie mantissa exponent).exponent := by
    split
    · exact return_not_mem_positional _ _ _ (by decide)
    · exact return_not_mem_positional _ _ _ (return_not_mem_digitsOf _)
  rw [finite]
  cases negative with
  | false => exact hmagnitude
  | true =>
      refine fun hc => ?_
      rcases List.mem_cons.mp hc with hsign | hc
      · exact absurd hsign (by decide)
      · exact hmagnitude hc

end NumberFormat

theorem return_not_mem_plainText (x : Float) : '\r' ∉ (plainText x).toList := by
  rw [plainText]
  split
  · decide
  · decide
  · decide
  · rw [String.toList_ofList]
    exact NumberFormat.return_not_mem_plain _ _ _

theorem not_losesReturn_plainText (x : Float) : ¬ Csv.LosesReturn (plainText x) := fun h =>
  return_not_mem_plainText x (List.mem_of_getLast? h.1)

/-! ## Sheets -/

/-- The fields of an attribution: the commit, the score, and for every dimension the
    first contribution with its name, if there is one. -/
def sheetCells (dimensions : List String) (a : Attribution Float) : List String :=
  a.commit :: plainText a.score :: dimensions.map fun d =>
    ((a.contribution? d).map plainText).getD ""

/-- The records of a sheet. -/
def sheetRecords (dimensions : List String) (rows : List (Attribution Float)) :
    List (List String) :=
  ("commit_id" :: "score" :: dimensions) :: rows.map (sheetCells dimensions)

/-- Every record of a sheet begins with two fields. -/
theorem cons_cons_of_mem_sheetRecords {dimensions : List String} {rows : List (Attribution Float)}
    {record : List String} (h : record ∈ sheetRecords dimensions rows) :
    ∃ first second rest, record = first :: second :: rest := by
  rcases List.mem_cons.mp h with rfl | hrow
  · exact ⟨_, _, _, rfl⟩
  · rcases List.mem_map.mp hrow with ⟨a, _, rfl⟩
    exact ⟨_, _, _, rfl⟩

theorem map_toList_sheetCells (dimensions : List String) (a : Attribution Float) :
    (sheetCells dimensions a).map String.toList = sheetRow dimensions a := by
  rw [sheetCells, sheetRow, List.map_cons, List.map_cons, List.map_map]
  congr 2
  refine List.map_congr_left fun d _ => ?_
  rw [Function.comp_apply]
  cases a.contribution? d <;> rfl

theorem writeSheet_eq (dimensions : List String) (rows : List (Attribution Float)) :
    writeSheet dimensions rows
      = String.ofList (Csv.writeRecords (sheetRecords dimensions rows)) := by
  rw [writeSheet, Csv.writeRecords, sheetRecords, List.flatMap_cons, List.flatMap_cons,
    List.flatMap_map, List.flatMap_map, sheetHeader]
  congr 2
  · rw [← List.map_cons, ← List.map_cons, List.map_map]
    rfl
  · congr 1
    funext a
    rw [← map_toList_sheetCells, List.map_map]
    rfl

/-- The last cell of a row is a number or empty. -/
theorem readBack_sheetCells (dimensions : List String) (a : Attribution Float) :
    Csv.readBack (sheetCells dimensions a) = sheetCells dimensions a := by
  have hcell : ∀ d, ¬ Csv.LosesReturn (((a.contribution? d).map plainText).getD "") := by
    intro d
    cases a.contribution? d with
    | none => decide
    | some x => exact not_losesReturn_plainText x
  rw [Csv.readBack_eq_self_iff, sheetCells, List.getLast?_cons_cons]
  intro field hfield
  rcases List.mem_cons.mp (List.mem_of_getLast? hfield) with rfl | hmem
  · exact not_losesReturn_plainText a.score
  · rcases List.mem_map.mp hmem with ⟨d, _, rfl⟩
    exact hcell d

/-- What is read from a sheet. Only the names of the columns can change. -/
theorem parse_writeSheet_eq (dimensions : List String) (rows : List (Attribution Float)) :
    Table.parse (writeSheet dimensions rows) = Table.ofRecords
      (Csv.readBack ("commit_id" :: "score" :: dimensions) ::
        rows.map (sheetCells dimensions)) := by
  have hsome : ∀ record ∈ sheetRecords dimensions rows, record ≠ [] := by
    intro record hrecord
    rcases cons_cons_of_mem_sheetRecords hrecord with ⟨first, second, rest, rfl⟩
    exact List.cons_ne_nil _ _
  have hkept : Csv.keptRecords ((sheetRecords dimensions rows).map Csv.readBack)
      = (sheetRecords dimensions rows).map Csv.readBack := by
    rw [Csv.keptRecords, List.filter_eq_self]
    intro line hline
    rcases List.mem_map.mp hline with ⟨record, hrecord, rfl⟩
    rcases cons_cons_of_mem_sheetRecords hrecord with ⟨first, second, rest, rfl⟩
    rw [Csv.isBlankLine_readBack]
    rfl
  have hrows : (rows.map (sheetCells dimensions)).map Csv.readBack
      = rows.map (sheetCells dimensions) := by
    rw [List.map_map]
    exact List.map_congr_left fun a _ => readBack_sheetCells dimensions a
  unfold Table.parse
  rw [writeSheet_eq, Csv.records_writeRecords _ hsome, hkept, sheetRecords, List.map_cons, hrows]

-- The one shape that is lost, read without its last character.
example : (Table.parse (writeSheet ["files\r"] [])).toOption.map Table.columns
    = some ["commit_id", "score", "files"] := by
  decide +kernel

end CommitRisk
