import CommitRisk.Table

/-!
# Written Tables Are Read Back

There are many ways to write one list of records. A field may stand between
quotes or, if nothing in it has a meaning, as it is; a line may end in a line
feed or in a carriage return and a line feed; and the last line need not end at
all. `DocumentText` relates records to all their texts. Whichever text is chosen,
the reader finds the records again, except for those that are one empty field,
which a reader cannot tell from blank lines.

The reader looks one character ahead, at a quote and at a carriage return. So
what a piece of text is read as depends on how the text goes on, and `ReadsAs`
and `ReadsRecord` take the rest of the text into the statement. A field between
quotes is safe in front of anything but a quote. A field that is written as it is
is safe unless a carriage return at its end meets a line feed.

## Main definitions

* `FieldText`, `RecordText`, `DocumentText`: The ways to write fields and records.
* `LineEnd`: The ways to end a line.
* `ReadsAs`, `ReadsRecord`: What a piece of text is read as in front of a rest.
* `keptRecords`: The records that are no blank lines.
* `IsFirstRagged`: The first record that is not as wide as the header.

## Theorems

* `readsAs_raw`, `readsAs_quoted`: Fields as they are and between quotes.
* `ReadsRecord.line`: A record up to the end of its line.
* `scan_document`: What is left of the cursor after a whole text.
* `ofRecords_eq_missingHeader`, `ofRecords_eq_raggedRow`, `ofRecords_eq_ok`: What
  becomes of records.
* `parse_written_document`: Reading any text of some records.
-/

namespace CommitRisk

namespace Csv

/-- The ways to write a field: as it is, if it has no comma, no quote and no end of a
    line in it, or between quotes with every quote in it written twice. -/
inductive FieldText : String → List Char → Prop where
  | raw (field : String)
      (h : ∀ c ∈ field.toList, c ≠ ',' ∧ c ≠ '"' ∧ c ≠ '\r' ∧ c ≠ '\n') :
      FieldText field field.toList
  | quoted (field : String) : FieldText field ('"' :: doubleQuotes field.toList ++ ['"'])

/-- The ways to write a record, which has at least one field: its fields with commas
    between them. -/
inductive RecordText : List String → List Char → Prop where
  | last {field : String} {text : List Char} (h : FieldText field text) :
      RecordText [field] text
  | field {field : String} {fields : List String} {text texts : List Char}
      (h : FieldText field text) (hrest : RecordText fields texts) :
      RecordText (field :: fields) (text ++ ',' :: texts)

/-- The ways to end a line. -/
inductive LineEnd : List Char → Prop where
  | lineFeed : LineEnd ['\n']
  | returnAndFeed : LineEnd ['\r', '\n']

/-- The ways to write records: each on a line that is ended, except that the end of
    the last line may be left out. -/
inductive DocumentText : List (List String) → List Char → Prop where
  | empty : DocumentText [] []
  | unended {record : List String} {text : List Char} (h : RecordText record text) :
      DocumentText [record] text
  | line {record : List String} {records : List (List String)} {text ending rest : List Char}
      (h : RecordText record text) (hend : LineEnd ending) (hrest : DocumentText records rest) :
      DocumentText (record :: records) (text ++ (ending ++ rest))

/-! ## One character at a time -/

namespace Cursor

variable (records : List (List String)) (record : List String) (field : List Char)
  (line opening : Nat) (rest : List Char)

theorem scan_doubledQuote : scan ⟨records, record, field, line, some opening⟩ ('"' :: '"' :: rest)
    = scan ⟨records, record, '"' :: field, line, some opening⟩ rest := by
  rw [scan.eq_def]
  rfl

theorem scan_closingQuote (h : rest.head? ≠ some '"') :
    scan ⟨records, record, field, line, some opening⟩ ('"' :: rest)
      = scan ⟨records, record, field, line, none⟩ rest := by
  rw [scan.eq_def]
  simp only [Option.isSome_some, if_true, beq_self_eq_true]
  split
  · exact absurd rfl h
  · rfl

/-- Between quotes every other character belongs to the field. -/
theorem scan_inside (c : Char) (hc : c ≠ '"') :
    scan ⟨records, record, field, line, some opening⟩ (c :: rest)
      = scan ⟨records, record, c :: field, line + [c].count '\n', some opening⟩ rest := by
  rw [scan.eq_def]
  simp only [Option.isSome_some, if_true, beq_eq_false_iff_ne.mpr hc, Bool.false_eq_true,
    if_false, List.count_singleton]
  by_cases hline : (c == '\n') = true
  · rw [if_pos hline, if_pos hline]
    rfl
  · rw [if_neg hline, if_neg hline]
    rfl

theorem scan_openingQuote : scan ⟨records, record, field, line, none⟩ ('"' :: rest)
    = scan ⟨records, record, field, line, some line⟩ rest := by
  rw [scan.eq_def]
  rfl

theorem scan_comma : scan ⟨records, record, field, line, none⟩ (',' :: rest)
    = scan ⟨records, String.ofList field.reverse :: record, [], line, none⟩ rest := by
  rw [scan.eq_def]
  rfl

theorem scan_lineFeed : scan ⟨records, record, field, line, none⟩ ('\n' :: rest)
    = scan ⟨(String.ofList field.reverse :: record).reverse :: records, [], [], line + 1, none⟩
        rest := by
  rw [scan.eq_def]
  rfl

theorem scan_returnAndFeed : scan ⟨records, record, field, line, none⟩ ('\r' :: '\n' :: rest)
    = scan ⟨records, record, field, line, none⟩ ('\n' :: rest) := by
  rw [scan.eq_def]
  rfl

/-- Outside quotes a character belongs to the field if it is not special and no
    carriage return that a line feed follows. -/
theorem scan_outside (c : Char) (hc : isSpecial c = false)
    (hreturn : c = '\r' → rest.head? ≠ some '\n') :
    scan ⟨records, record, field, line, none⟩ (c :: rest)
      = scan ⟨records, record, c :: field, line, none⟩ rest := by
  rw [isSpecial, Bool.or_eq_false_iff, Bool.or_eq_false_iff] at hc
  have hend : (c == '\r' && rest.head? == some '\n') = false := by
    rw [Bool.and_eq_false_imp, beq_iff_eq, beq_eq_false_iff_ne]
    exact hreturn
  rw [scan.eq_def]
  simp only [Option.isSome_none, Bool.false_eq_true, if_false, hc.1.1, hc.1.2, hc.2, hend]
  rfl

/-- A quoted section up to its end. -/
theorem scan_section (content : List Char) (h : rest.head? ≠ some '"') :
    scan ⟨records, record, field, line, some opening⟩ (doubleQuotes content ++ '"' :: rest)
      = scan ⟨records, record, content.reverse ++ field,
          line + (doubleQuotes content).count '\n', none⟩ rest := by
  induction content generalizing field line with
  | nil => exact scan_closingQuote records record field line opening rest h
  | cons c content ih =>
      rw [List.reverse_cons, List.append_assoc, List.singleton_append]
      by_cases hquote : c = '"'
      · subst hquote
        have hdoubled : doubleQuotes ('"' :: content) = '"' :: '"' :: doubleQuotes content := rfl
        rw [hdoubled, List.cons_append, List.cons_append, scan_doubledQuote, ih,
          List.count_cons_of_ne (by decide), List.count_cons_of_ne (by decide)]
      · have hsingle : doubleQuotes (c :: content) = [c] ++ doubleQuotes content := by
          rw [doubleQuotes, List.flatMap_cons, beq_eq_false_iff_ne.mpr hquote,
            if_neg Bool.false_ne_true]
          rfl
        rw [hsingle, List.append_assoc, List.singleton_append,
          scan_inside records record field line opening _ c hquote, ih,
          List.count_append, Nat.add_assoc]

/-- A field as it is up to its end. -/
theorem scan_plain (content : List Char) (hcontent : ∀ c ∈ content, isSpecial c = false)
    (hreturn : content.getLast? = some '\r' → rest.head? ≠ some '\n') :
    scan ⟨records, record, field, line, none⟩ (content ++ rest)
      = scan ⟨records, record, content.reverse ++ field, line, none⟩ rest := by
  induction content generalizing field with
  | nil => rfl
  | cons c content ih =>
      have hc := hcontent c List.mem_cons_self
      have hothers : ∀ d ∈ content, isSpecial d = false := fun d hd =>
        hcontent d (List.mem_cons_of_mem c hd)
      rw [List.reverse_cons, List.append_assoc, List.singleton_append]
      cases content with
      | nil =>
          exact scan_outside records record field line rest c hc fun h => hreturn (by rw [h]; rfl)
      | cons d content =>
          -- What follows the character is no line feed, because it is not special.
          have hnext : (d :: content ++ rest).head? ≠ some '\n' := by
            rw [List.cons_append, List.head?_cons, ne_eq, Option.some.injEq]
            rintro rfl
            exact absurd (hothers '\n' List.mem_cons_self) (by decide)
          have hlast : (d :: content).getLast? = some '\r' → rest.head? ≠ some '\n' := fun h =>
            hreturn (by rw [List.getLast?_cons_cons, h])
          rw [List.cons_append, scan_outside records record field line _ c hc fun _ => hnext,
            ih _ hothers hlast]

end Cursor

/-! ## Fields and records -/

/-- In front of a rest, a text is read as a field. The lines are counted on. -/
def ReadsAs (text : List Char) (field : String) (rest : List Char) : Prop :=
  ∀ records record before line,
    Cursor.scan ⟨records, record, before, line, none⟩ (text ++ rest)
      = Cursor.scan ⟨records, record, field.toList.reverse ++ before, line + text.count '\n', none⟩
          rest

theorem readsAs_raw (field : String) (rest : List Char)
    (hfield : ∀ c ∈ field.toList, isSpecial c = false)
    (hreturn : field.toList.getLast? = some '\r' → rest.head? ≠ some '\n') :
    ReadsAs field.toList field rest := by
  intro records record before line
  have hlines : field.toList.count '\n' = 0 :=
    List.count_eq_zero.mpr fun h => absurd (hfield '\n' h) (by decide)
  rw [hlines]
  exact Cursor.scan_plain records record before line rest field.toList hfield hreturn

theorem readsAs_quoted (field : String) (rest : List Char) (h : rest.head? ≠ some '"') :
    ReadsAs ('"' :: doubleQuotes field.toList ++ ['"']) field rest := by
  intro records record before line
  have hlines : ('"' :: doubleQuotes field.toList ++ ['"']).count '\n'
      = (doubleQuotes field.toList).count '\n' := by
    rw [List.cons_append, List.count_cons_of_ne (by decide), List.count_append]
    rfl
  rw [hlines, List.cons_append, List.cons_append, List.append_assoc, List.singleton_append,
    Cursor.scan_openingQuote, Cursor.scan_section _ _ _ _ _ _ _ h]

theorem FieldText.readsAs {field : String} {text rest : List Char} (h : FieldText field text)
    (hrest : rest.head? ≠ some '"') : ReadsAs text field rest := by
  cases h with
  | quoted => exact readsAs_quoted field rest hrest
  | raw hfield =>
      refine readsAs_raw field rest (fun c hc => ?_) fun hlast => ?_
      · rcases hfield c hc with ⟨hcomma, hquote, _, hfeed⟩
        rw [isSpecial, beq_eq_false_iff_ne.mpr hcomma, beq_eq_false_iff_ne.mpr hquote,
          beq_eq_false_iff_ne.mpr hfeed]
        rfl
      · -- There is no carriage return at the end, because there is none at all.
        exact absurd rfl (hfield '\r' (List.mem_of_getLast? hlast)).2.2.1

/-- In front of a rest, a text is read as a record whose last field may still go on. -/
def ReadsRecord (text : List Char) (record : List String) (rest : List Char) : Prop :=
  ∃ before last, record = before ++ [last] ∧ ∀ records done line,
    Cursor.scan ⟨records, done, [], line, none⟩ (text ++ rest)
      = Cursor.scan ⟨records, before.reverse ++ done, last.toList.reverse,
          line + text.count '\n', none⟩ rest

theorem ReadsAs.record {text rest : List Char} {field : String} (h : ReadsAs text field rest) :
    ReadsRecord text [field] rest := by
  refine ⟨[], field, rfl, fun records done line => ?_⟩
  rw [h, List.append_nil]
  rfl

theorem ReadsRecord.cons {text texts rest : List Char} {field : String} {fields : List String}
    (h : ReadsAs text field (',' :: (texts ++ rest))) (hfields : ReadsRecord texts fields rest) :
    ReadsRecord (text ++ ',' :: texts) (field :: fields) rest := by
  rcases hfields with ⟨before, last, hparts, hscan⟩
  refine ⟨field :: before, last, by rw [hparts]; rfl, fun records done line => ?_⟩
  rw [List.append_assoc, List.cons_append, h, Cursor.scan_comma, hscan, List.append_nil,
    List.reverse_reverse, String.ofList_toList, List.count_append,
    List.count_cons_of_ne (by decide), List.reverse_cons, List.append_assoc, Nat.add_assoc]
  rfl

theorem RecordText.reads {record : List String} {text rest : List Char}
    (h : RecordText record text) (hrest : rest.head? ≠ some '"') :
    ReadsRecord text record rest := by
  induction h with
  | last hfield => exact (hfield.readsAs hrest).record
  | field hfield _ ih => exact .cons (hfield.readsAs (by simp only [List.head?_cons, ne_eq,
      Option.some.injEq, Char.reduceEq, not_false_eq_true])) ih

/-- A record up to the end of its line. -/
theorem ReadsRecord.line {text ending rest : List Char} {record : List String}
    (h : ReadsRecord text record (ending ++ rest)) (hend : LineEnd ending)
    (records : List (List String)) (n : Nat) :
    Cursor.scan ⟨records, [], [], n, none⟩ (text ++ (ending ++ rest))
      = Cursor.scan ⟨record :: records, [], [], n + text.count '\n' + 1, none⟩ rest := by
  rcases h with ⟨before, last, rfl, hscan⟩
  -- The last field and those before it are put together at the line feed.
  have hrecord : (String.ofList last.toList.reverse.reverse :: (before.reverse ++ [])).reverse
      = before ++ [last] := by
    rw [List.reverse_reverse, String.ofList_toList, List.append_nil, List.reverse_cons,
      List.reverse_reverse]
  rw [hscan]
  cases hend with
  | lineFeed => rw [List.singleton_append, Cursor.scan_lineFeed, hrecord]
  | returnAndFeed =>
      rw [List.cons_append, List.singleton_append, Cursor.scan_returnAndFeed,
        Cursor.scan_lineFeed, hrecord]

/-- The records that are no blank lines. -/
def keptRecords (records : List (List String)) : List (List String) :=
  records.filter fun record => !isBlankLine record

theorem LineEnd.head?_ne {ending rest : List Char} (h : LineEnd ending) :
    (ending ++ rest).head? ≠ some '"' := by
  cases h <;> simp only [List.cons_append, List.head?_cons, ne_eq, Option.some.injEq,
    Char.reduceEq, not_false_eq_true]

/-- After a whole text no quoted section is open, and the records that were written
    are added to those there were. -/
theorem scan_document {records : List (List String)} {text : List Char}
    (h : DocumentText records text) (earlier : List (List String)) (line : Nat) :
    (Cursor.scan ⟨earlier, [], [], line, none⟩ text).opened = none ∧
      keptRecords (Cursor.scan ⟨earlier, [], [], line, none⟩ text).finish
        = keptRecords (earlier.reverse ++ records) := by
  induction h generalizing earlier line with
  | empty => exact ⟨rfl, by rw [List.append_nil]; rfl⟩
  | @unended record text hrecord =>
      have hreads : ReadsRecord text record [] :=
        hrecord.reads (by simp only [List.head?_nil, ne_eq, reduceCtorEq, not_false_eq_true])
      rcases hreads with ⟨before, last, rfl, hscan⟩
      have hend := hscan earlier [] line
      rw [List.append_nil, List.append_nil, Cursor.scan] at hend
      rw [hend]
      refine ⟨rfl, ?_⟩
      by_cases hblank : before = [] ∧ last = ""
      · -- Nothing stands on the last line, so it makes no record.
        rcases hblank with ⟨rfl, rfl⟩
        rw [keptRecords, keptRecords, List.filter_append]
        exact (List.append_nil _).symm
      · have hsome : (last.toList.reverse.isEmpty && before.reverse.isEmpty) = false := by
          rw [Bool.eq_false_iff, ne_eq, Bool.and_eq_true, List.isEmpty_reverse,
            List.isEmpty_reverse, List.isEmpty_iff, List.isEmpty_iff, String.toList_eq_nil_iff]
          exact fun hnone => hblank ⟨hnone.2, hnone.1⟩
        simp only [Cursor.finish, hsome, Bool.false_eq_true, if_false, Cursor.endRecord,
          Cursor.endField, List.reverse_reverse, String.ofList_toList, List.reverse_cons]
  | @line record records text ending rest hrecord hend _ ih =>
      rw [(hrecord.reads hend.head?_ne).line hend]
      rcases ih (record :: earlier) (line + text.count '\n' + 1) with ⟨hopened, hkept⟩
      rw [hkept, List.reverse_cons, List.append_assoc, List.singleton_append]
      exact ⟨hopened, rfl⟩

theorem records_of_document {records : List (List String)} {text : String}
    (h : DocumentText records text.toList) : Csv.records text = .ok (keptRecords records) := by
  rcases scan_document h [] 1 with ⟨hopened, hkept⟩
  unfold Csv.records
  simp only [Cursor.start, hopened]
  exact congrArg Except.ok hkept

end Csv

/-! ## From records to a table -/

namespace Table

/-- The first record behind the header that is not as wide as the header, counted from
    one, with the width of the header and its own. -/
def IsFirstRagged (records : List (List String)) (row expected actual : Nat) : Prop :=
  ∃ header before cells after, records = header :: (before ++ cells :: after) ∧
    (∀ b ∈ before, b.length = header.length) ∧ cells.length ≠ header.length ∧
    row = before.length + 1 ∧ expected = header.length ∧ actual = cells.length

theorem firstRagged?_eq_some {width row : Nat} {rows : List (List String)} {fault : TableError} :
    firstRagged? width row rows = some fault ↔
      ∃ before cells after, rows = before ++ cells :: after ∧
        (∀ b ∈ before, b.length = width) ∧ cells.length ≠ width ∧
        fault = .raggedRow (row + before.length) width cells.length := by
  constructor
  · intro h
    induction rows generalizing row with
    | nil => simp only [firstRagged?, reduceCtorEq] at h
    | cons cells rest ih =>
        rw [firstRagged?] at h
        by_cases hwidth : cells.length = width
        · rw [if_pos hwidth] at h
          rcases ih h with ⟨before, other, after, rfl, hbefore, hother, rfl⟩
          refine ⟨cells :: before, other, after, rfl, ?_, hother, ?_⟩
          · simp only [List.mem_cons, forall_eq_or_imp]
            exact ⟨hwidth, hbefore⟩
          · rw [List.length_cons, Nat.add_right_comm, Nat.add_assoc]
        · rw [if_neg hwidth, Option.some.injEq] at h
          exact ⟨[], cells, rest, rfl, fun _ hb => absurd hb List.not_mem_nil, hwidth, h.symm⟩
  · rintro ⟨before, cells, after, rfl, hbefore, hcells, rfl⟩
    induction before generalizing row with
    | nil =>
        rw [List.nil_append, firstRagged?, if_neg hcells]
        rfl
    | cons first before ih =>
        rw [List.cons_append, firstRagged?, if_pos (hbefore first List.mem_cons_self),
          ih fun b hb => hbefore b (List.mem_cons_of_mem first hb)]
        rw [List.length_cons, Nat.add_right_comm, Nat.add_assoc]

theorem ofRecords_of_ragged {header : List String} {rows : List (List String)} {fault : TableError}
    (h : firstRagged? header.length 1 rows = some fault) :
    ofRecords (header :: rows) = .error fault := by
  rw [ofRecords]
  split
  · rename_i found hfound
    rw [h, Option.some.injEq] at hfound
    rw [hfound]
  · rename_i hnone
    rw [h] at hnone
    cases hnone

theorem ofRecords_of_width {header : List String} {rows : List (List String)}
    (h : ∀ cells ∈ rows, cells.length = header.length) :
    ofRecords (header :: rows) = .ok ⟨header, rows, h⟩ := by
  rw [ofRecords]
  split
  · rename_i fault hfault
    rw [firstRagged?_eq_none.mpr h] at hfault
    cases hfault
  · rfl

theorem ofRecords_eq_missingHeader (records : List (List String)) :
    ofRecords records = .error .missingHeader ↔ records = [] := by
  cases records with
  | nil => exact ⟨fun _ => rfl, fun _ => rfl⟩
  | cons header rows =>
      simp only [reduceCtorEq, iff_false]
      cases hfault : firstRagged? header.length 1 rows with
      | none =>
          rw [ofRecords_of_width (firstRagged?_eq_none.mp hfault)]
          simp only [reduceCtorEq, not_false_eq_true]
      | some fault =>
          -- The only fault that rows have is that one of them is ragged.
          rcases firstRagged?_eq_some.mp hfault with ⟨_, _, _, _, _, _, rfl⟩
          rw [ofRecords_of_ragged hfault]
          simp only [Except.error.injEq, reduceCtorEq, not_false_eq_true]

theorem ofRecords_eq_raggedRow (records : List (List String)) (row expected actual : Nat) :
    ofRecords records = .error (.raggedRow row expected actual) ↔
      IsFirstRagged records row expected actual := by
  constructor
  · intro h
    cases records with
    | nil => simp only [ofRecords, Except.error.injEq, reduceCtorEq] at h
    | cons header rows =>
        cases hfault : firstRagged? header.length 1 rows with
        | none =>
            rw [ofRecords_of_width (firstRagged?_eq_none.mp hfault)] at h
            cases h
        | some fault =>
            rw [ofRecords_of_ragged hfault, Except.error.injEq] at h
            rcases firstRagged?_eq_some.mp hfault with
              ⟨before, cells, after, rfl, hbefore, hcells, rfl⟩
            cases h
            exact ⟨header, before, cells, after, rfl, hbefore, hcells, Nat.add_comm _ _, rfl, rfl⟩
  · rintro ⟨header, before, cells, after, rfl, hbefore, hcells, rfl, rfl, rfl⟩
    rw [Nat.add_comm]
    exact ofRecords_of_ragged (firstRagged?_eq_some.mpr
      ⟨before, cells, after, rfl, hbefore, hcells, rfl⟩)

theorem ofRecords_eq_ok (records : List (List String)) (header : List String)
    (rows : List (List String)) :
    (∃ t, ofRecords records = .ok t ∧ t.columns = header ∧ t.rows = rows) ↔
      records = header :: rows ∧ ∀ cells ∈ rows, cells.length = header.length := by
  constructor
  · rintro ⟨t, ht, rfl, rfl⟩
    cases records with
    | nil => simp only [ofRecords, reduceCtorEq] at ht
    | cons header rows =>
        cases hfault : firstRagged? header.length 1 rows with
        | none =>
            rw [ofRecords_of_width (firstRagged?_eq_none.mp hfault)] at ht
            cases ht
            exact ⟨rfl, firstRagged?_eq_none.mp hfault⟩
        | some fault =>
            rw [ofRecords_of_ragged hfault] at ht
            cases ht
  · rintro ⟨rfl, hwidth⟩
    exact ⟨⟨header, rows, hwidth⟩, ofRecords_of_width hwidth, rfl, rfl⟩

end Table

/-- Reading what was written. Whichever way records are written, reading the text gives
    those records without the blank lines among them. There is no table if nothing is
    left, or if a record is not as wide as the first one, of which the first such record
    is reported; otherwise the first record is the header and the others are the rows. -/
theorem parse_written_document (records : List (List String)) (text : String)
    (h : Csv.DocumentText records text.toList) :
    let kept := records.filter fun record => record ≠ [""]
    Csv.records text = .ok kept ∧
      (Table.parse text = .error .missingHeader ↔ kept = []) ∧
      (∀ row expected actual, Table.parse text = .error (.raggedRow row expected actual) ↔
        Table.IsFirstRagged kept row expected actual) ∧
      ∀ header rows,
        (∃ t, Table.parse text = .ok t ∧ t.columns = header ∧ t.rows = rows) ↔
          kept = header :: rows ∧ ∀ cells ∈ rows, cells.length = header.length := by
  intro kept
  have hkept : Csv.records text = .ok kept := by
    rw [Csv.records_of_document h, Csv.keptRecords]
    congr 1
    refine List.filter_congr fun record _ => ?_
    rw [Csv.isBlankLine, decide_not, ← Bool.beq_eq_decide_eq]
  have hparse : Table.parse text = Table.ofRecords kept := by
    unfold Table.parse
    rw [hkept]
  rw [hparse]
  exact ⟨hkept, Table.ofRecords_eq_missingHeader kept, Table.ofRecords_eq_raggedRow kept,
    Table.ofRecords_eq_ok kept⟩

/-- A header, a blank line and two rows. -/
def mixedRecords : List (List String) :=
  [["a", "b"], [""], ["x, y", "say \"hi\""], ["multi\nline", "2"]]

/-- The records with both ends of a line, with quotes where they are needed, and without
    an end of the last line. -/
def mixedText : String :=
  "a,b\r\n\n\"x, y\",\"say \"\"hi\"\"\"\r\n\"multi\nline\",2"

theorem parse_mixed_document :
    Csv.DocumentText mixedRecords mixedText.toList ∧
      ∃ t, Table.parse mixedText = .ok t ∧ t.columns = ["a", "b"] ∧
        t.rows = [["x, y", "say \"hi\""], ["multi\nline", "2"]] := by
  have header := Csv.RecordText.field (.raw "a" (by simp)) (.last (.raw "b" (by simp)))
  have blank := Csv.RecordText.last (.raw "" (by simp))
  have quoted := Csv.RecordText.field (.quoted "x, y") (.last (.quoted "say \"hi\""))
  have last := Csv.RecordText.field (.quoted "multi\nline") (.last (.raw "2" (by simp)))
  have hwritten : Csv.DocumentText mixedRecords mixedText.toList :=
    .line header .returnAndFeed (.line blank .lineFeed (.line quoted .returnAndFeed
      (.unended last)))
  refine ⟨hwritten, ?_⟩
  rcases parse_written_document mixedRecords mixedText hwritten with ⟨_, _, _, htable⟩
  exact (htable _ _).mpr (by decide)

end CommitRisk
