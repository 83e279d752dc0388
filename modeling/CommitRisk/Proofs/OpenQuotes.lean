import Mathlib.Algebra.Ring.Parity
import Mathlib.Data.List.Basic
import CommitRisk.Proofs.Sheets

/-!
# Quotes Left Open

The only text that the scanner cannot read is one that ends inside a quoted section. Which
texts these are is said here without the scanner. `Closed` cuts a text into sections and
what stands between them; a section is an opening quote, a content with every quote in it
written twice, and a closing quote that no quote follows, since that would be one more quote
of the content. `OpensAfter` is a text that has an opening quote after closed sections and
nothing but content after it.

Every text is of one kind or the other, whatever commas, carriage returns and stray quotes
stand in it. Sections have an even number of quotes and an opening quote is one more, so
counting quotes tells which kind it is. The scanner leaves closed sections as it entered
them, apart from the line it is on, so at the end it knows the line of the opening quote.

## Main definitions

* `Closed`: All quoted sections of a text are closed.
* `OpensAfter`: The last section of a text is opened after a part and not closed.

## Theorems

* `section_cases`: What comes after an opening quote.
* `closed_or_opensAfter`: Every text is of one of the two kinds.
* `Closed.even_count`, `OpensAfter.odd_count`: Their quotes.
* `scan_otherThanQuote`: Between sections a character changes nothing but the line.
* `Closed.scan`, `OpensAfter.opened_scan`: What is open at the end.
* `opened_eq_some_iff`: The line that is kept is that of the opening quote.
* `open_quote_reported`: When a table is refused for an open quote, and on which line.
-/

namespace CommitRisk

namespace Csv

/-- All quoted sections of a text are closed. -/
inductive Closed : List Char → Prop where
  | empty : Closed []
  | between (c : Char) (rest : List Char) (hc : c ≠ '"') (h : Closed rest) : Closed (c :: rest)
  | quoted (content rest : List Char) (hend : rest.head? ≠ some '"') (h : Closed rest) :
      Closed ('"' :: (doubleQuotes content ++ '"' :: rest))

/-- The last quoted section of a text is opened after the given part and never closed. The
    part does not end in a quote, because a quote right after a closing one would have made
    it one of the content. -/
structure OpensAfter (before text : List Char) : Prop where
  closed : Closed before
  last : before.getLast? ≠ some '"'
  content : ∃ content, text = before ++ '"' :: doubleQuotes content

/-! ## The two kinds of texts -/

theorem doubleQuotes_cons_quote (content : List Char) :
    doubleQuotes ('"' :: content) = '"' :: '"' :: doubleQuotes content := rfl

theorem doubleQuotes_cons (c : Char) (content : List Char) (hc : c ≠ '"') :
    doubleQuotes (c :: content) = c :: doubleQuotes content := by
  rw [doubleQuotes, List.flatMap_cons, beq_eq_false_iff_ne.mpr hc, if_neg Bool.false_ne_true]
  rfl

/-- After an opening quote a section goes on to the end, or up to a quote that no other quote
    follows. -/
theorem section_cases (text : List Char) :
    (∃ content, text = doubleQuotes content) ∨
      ∃ content rest, text = doubleQuotes content ++ '"' :: rest ∧ rest.head? ≠ some '"' := by
  -- Two quotes in a row are taken together, so the induction is on the length.
  induction hlength : text.length using Nat.strong_induction_on generalizing text with
  | _ n ih =>
      cases text with
      | nil => exact .inl ⟨[], rfl⟩
      | cons c rest =>
          rw [List.length_cons] at hlength
          by_cases hc : c = '"'
          · subst hc
            by_cases hnext : rest.head? = some '"'
            · rcases List.head?_eq_some_iff.mp hnext with ⟨rest, rfl⟩
              rw [List.length_cons] at hlength
              rcases ih rest.length (by omega) rest rfl with
                ⟨content, rfl⟩ | ⟨content, after, rfl, h⟩
              · exact .inl ⟨'"' :: content, rfl⟩
              · exact .inr ⟨'"' :: content, after, rfl, h⟩
            · exact .inr ⟨[], rest, rfl, hnext⟩
          · rcases ih rest.length (by omega) rest rfl with ⟨content, rfl⟩ | ⟨content, after, rfl, h⟩
            · exact .inl ⟨c :: content, (doubleQuotes_cons c content hc).symm⟩
            · refine .inr ⟨c :: content, after, ?_, h⟩
              rw [doubleQuotes_cons c content hc, List.cons_append]

namespace OpensAfter

variable {before text : List Char}

theorem cons (h : OpensAfter before text) (c : Char) (hc : c ≠ '"') :
    OpensAfter (c :: before) (c :: text) := by
  rcases h with ⟨hclosed, hlast, content, rfl⟩
  refine ⟨.between c before hc hclosed, ?_, content, rfl⟩
  cases before with
  | nil => simpa only [List.getLast?_singleton, ne_eq, Option.some.injEq] using hc
  | cons d rest => rwa [List.getLast?_cons_cons]

theorem quoted (h : OpensAfter before text) (content : List Char)
    (hend : text.head? ≠ some '"') :
    OpensAfter ('"' :: (doubleQuotes content ++ '"' :: before))
      ('"' :: (doubleQuotes content ++ '"' :: text)) := by
  rcases h with ⟨hclosed, hlast, inside, rfl⟩
  -- Something stands between the closing quote and the opening one.
  cases before with
  | nil => exact absurd rfl hend
  | cons d rest =>
      refine ⟨.quoted content (d :: rest) hend hclosed, ?_, inside, ?_⟩
      · rwa [← List.cons_append, List.getLast?_append_cons, List.getLast?_cons_cons]
      · rw [List.cons_append, List.cons_append, List.append_assoc, List.cons_append,
          List.cons_append]

end OpensAfter

/-- Every text is of one of the two kinds. -/
theorem closed_or_opensAfter (text : List Char) :
    Closed text ∨ ∃ before, OpensAfter before text := by
  induction hlength : text.length using Nat.strong_induction_on generalizing text with
  | _ n ih =>
      cases text with
      | nil => exact .inl .empty
      | cons c rest =>
          rw [List.length_cons] at hlength
          by_cases hc : c = '"'
          · subst hc
            rcases section_cases rest with ⟨content, rfl⟩ | ⟨content, rest, rfl, hend⟩
            · exact .inr ⟨[], .empty, nofun, content, rfl⟩
            · rw [List.length_append, List.length_cons] at hlength
              rcases ih rest.length (by omega) rest rfl with hclosed | ⟨before, hopens⟩
              · exact .inl (.quoted content rest hend hclosed)
              · exact .inr ⟨_, hopens.quoted content hend⟩
          · rcases ih rest.length (by omega) rest rfl with hclosed | ⟨before, hopens⟩
            · exact .inl (.between c rest hc hclosed)
            · exact .inr ⟨_, hopens.cons c hc⟩

theorem even_count_doubleQuotes (content : List Char) :
    Even ((doubleQuotes content).count '"') := by
  induction content with
  | nil => exact ⟨0, rfl⟩
  | cons c content ih =>
      by_cases hc : c = '"'
      · subst hc
        rw [doubleQuotes_cons_quote, List.count_cons_self, List.count_cons_self]
        exact ih.add_one.add_one
      · rwa [doubleQuotes_cons c content hc, List.count_cons_of_ne hc]

theorem Closed.even_count {text : List Char} (h : Closed text) : Even (text.count '"') := by
  induction h with
  | empty => exact ⟨0, rfl⟩
  | between c rest hc _ ih => rwa [List.count_cons_of_ne hc]
  | quoted content rest _ _ ih =>
      rw [List.count_cons_self, List.count_append, List.count_cons_self]
      exact ((even_count_doubleQuotes content).add_odd ih.add_one).add_one

theorem OpensAfter.odd_count {before text : List Char} (h : OpensAfter before text) :
    Odd (text.count '"') := by
  rcases h with ⟨hclosed, _, content, rfl⟩
  rw [List.count_append, List.count_cons_self]
  exact hclosed.even_count.add_odd (even_count_doubleQuotes content).add_one

/-! ## Scanning them -/

namespace Cursor

variable (records : List (List String)) (record : List String) (field : List Char)
  (line opening : Nat) (rest : List Char)

/-- Between sections a character other than a quote may end a field or a record or become a
    part of one; of what is open or which line it is, it changes nothing but the line. -/
theorem scan_otherThanQuote (c : Char) (hc : c ≠ '"') :
    ∃ records' record' field', scan ⟨records, record, field, line, none⟩ (c :: rest)
      = scan ⟨records', record', field', line + [c].count '\n', none⟩ rest := by
  by_cases hcomma : c = ','
  · subst hcomma
    exact ⟨_, _, _, scan_comma records record field line rest⟩
  by_cases hfeed : c = '\n'
  · subst hfeed
    exact ⟨_, _, _, scan_lineFeed records record field line rest⟩
  have hline : line + [c].count '\n' = line := by
    rw [List.count_singleton, beq_eq_false_iff_ne.mpr hfeed, if_neg Bool.false_ne_true,
      Nat.add_zero]
  rw [hline]
  by_cases hreturn : c = '\r' ∧ rest.head? = some '\n'
  · rcases hreturn with ⟨rfl, hnext⟩
    rcases List.head?_eq_some_iff.mp hnext with ⟨rest, rfl⟩
    exact ⟨_, _, _, scan_returnAndFeed records record field line rest⟩
  · have hplain : isSpecial c = false := isSpecial_eq_false ⟨hcomma, hc, hfeed⟩
    exact ⟨_, _, _, scan_outside records record field line rest c hplain
      fun hr hn => hreturn ⟨hr, hn⟩⟩

/-- A section that goes on to the end stays open. -/
theorem opened_scan_content (content : List Char) :
    (scan ⟨records, record, field, line, some opening⟩ (doubleQuotes content)).opened
      = some opening := by
  induction content generalizing field line with
  | nil => rfl
  | cons c content ih =>
      by_cases hc : c = '"'
      · subst hc
        rw [doubleQuotes_cons_quote, scan_doubledQuote]
        exact ih _ _
      · rw [doubleQuotes_cons c content hc, scan_inside _ _ _ _ _ _ c hc]
        exact ih _ _

end Cursor

/-- Closed sections in front of a rest leave nothing open, and their lines are counted. -/
theorem Closed.scan {text : List Char} (h : Closed text) (rest : List Char)
    (hrest : text.getLast? = some '"' → rest.head? ≠ some '"')
    (records : List (List String)) (record : List String) (field : List Char) (line : Nat) :
    ∃ records' record' field', Cursor.scan ⟨records, record, field, line, none⟩ (text ++ rest)
      = Cursor.scan ⟨records', record', field', line + text.count '\n', none⟩ rest := by
  induction h generalizing records record field line with
  | empty => exact ⟨records, record, field, rfl⟩
  | between c text hc h ih =>
      rcases Cursor.scan_otherThanQuote records record field line (text ++ rest) c hc with
        ⟨records₁, record₁, field₁, hfirst⟩
      have hlast : text.getLast? = some '"' → rest.head? ≠ some '"' := by
        intro hlast
        cases text with
        | nil => cases hlast
        | cons d text => exact hrest (by rwa [List.getLast?_cons_cons])
      rcases ih hlast records₁ record₁ field₁ (line + [c].count '\n') with
        ⟨records₂, record₂, field₂, hothers⟩
      refine ⟨records₂, record₂, field₂, ?_⟩
      rw [List.cons_append, hfirst, hothers, Nat.add_assoc, ← List.count_append,
        List.singleton_append]
  | quoted content text hend h ih =>
      -- The section is a field of its own kind, and no quote follows it.
      have hnext : (text ++ rest).head? ≠ some '"' := by
        cases text with
        | nil => exact hrest (by rw [← List.cons_append, List.getLast?_append_cons]; rfl)
        | cons d text => exact hend
      have hlast : text.getLast? = some '"' → rest.head? ≠ some '"' := by
        intro hlast
        refine hrest ?_
        cases text with
        | nil => cases hlast
        | cons d text => rwa [← List.cons_append, List.getLast?_append_cons,
            List.getLast?_cons_cons]
      rcases ih hlast records record (content.reverse ++ field)
        (line + (doubleQuotes content).count '\n') with ⟨records₁, record₁, field₁, hothers⟩
      refine ⟨records₁, record₁, field₁, ?_⟩
      rw [List.cons_append, List.append_assoc, List.cons_append, Cursor.scan_openingQuote,
        Cursor.scan_section _ _ _ _ _ _ content hnext, hothers, List.count_cons_of_ne (by decide),
        List.count_append, List.count_cons_of_ne (by decide), Nat.add_assoc]

theorem Closed.opened_scan {text : List Char} (h : Closed text) :
    (Cursor.start.scan text).opened = none := by
  rcases h.scan [] (fun _ => nofun) [] [] [] 1 with ⟨records, record, field, hscan⟩
  rw [List.append_nil] at hscan
  rw [Cursor.start, hscan]
  rfl

/-- At the end the scanner knows on which line the quote stands that was never closed. -/
theorem OpensAfter.opened_scan {before text : List Char} (h : OpensAfter before text) :
    (Cursor.start.scan text).opened = some (1 + before.count '\n') := by
  rcases h with ⟨hclosed, hlast, content, rfl⟩
  rcases hclosed.scan ('"' :: doubleQuotes content) (fun hquote => absurd hquote hlast)
    [] [] [] 1 with ⟨records, record, field, hscan⟩
  rw [Cursor.start, hscan, Cursor.scan_openingQuote]
  exact Cursor.opened_scan_content records record field _ _ content

/-- The line that is kept to the end is that of the quote that was never closed. -/
theorem opened_eq_some_iff (text : List Char) (line : Nat) :
    (Cursor.start.scan text).opened = some line ↔
      ∃ before, OpensAfter before text ∧ line = 1 + before.count '\n' := by
  constructor
  · intro h
    rcases closed_or_opensAfter text with hclosed | ⟨before, hopens⟩
    · rw [hclosed.opened_scan] at h
      cases h
    · rw [hopens.opened_scan, Option.some.injEq] at h
      exact ⟨before, hopens, h.symm⟩
  · rintro ⟨before, hopens, rfl⟩
    exact hopens.opened_scan

/-- A section is left open exactly if there is an odd number of quotes. -/
theorem opened_isSome_iff (text : List Char) :
    (∃ line, (Cursor.start.scan text).opened = some line) ↔ Odd (text.count '"') := by
  rcases closed_or_opensAfter text with hclosed | ⟨before, hopens⟩
  · rw [hclosed.opened_scan]
    refine iff_of_false (fun ⟨line, hline⟩ => by cases hline) ?_
    exact Nat.not_odd_iff_even.mpr hclosed.even_count
  · exact iff_of_true ⟨_, hopens.opened_scan⟩ hopens.odd_count

end Csv

namespace Table

theorem ofRecords_ne_unterminatedQuote (records : List (List String)) (line : Nat) :
    ofRecords records ≠ .error (.unterminatedQuote line) := by
  intro h
  cases records with
  | nil => cases h
  | cons header rows =>
      cases hfault : firstRagged? header.length 1 rows with
      | none =>
          rw [ofRecords_of_width (firstRagged?_eq_none.mp hfault)] at h
          cases h
      | some fault =>
          rcases firstRagged?_eq_some.mp hfault with ⟨_, _, _, _, _, _, rfl⟩
          rw [ofRecords_of_ragged hfault] at h
          cases h

/-- A text is refused for an open quote exactly if the scanner ends with one, since records are
    only looked at when there are any. -/
theorem parse_eq_unterminatedQuote (text : String) (line : Nat) :
    parse text = .error (.unterminatedQuote line) ↔
      (Csv.Cursor.start.scan text.toList).opened = some line := by
  cases hopened : (Csv.Cursor.start.scan text.toList).opened with
  | some opening =>
      simp only [parse, Csv.records, hopened, Except.error.injEq,
        TableError.unterminatedQuote.injEq, Option.some.injEq]
  | none =>
      simp only [parse, Csv.records, hopened, reduceCtorEq, iff_false]
      exact ofRecords_ne_unterminatedQuote _ line

end Table

/-- A table is refused for an open quote exactly if its text has an odd number of quotes,
    whatever its records would have been, and the line is that of the quote that opens the
    last section. With an even number of quotes there are records, and only they decide. -/
theorem open_quote_reported (text : String) :
    (∀ line, Table.parse text = .error (.unterminatedQuote line) ↔
      ∃ before, Csv.OpensAfter before text.toList ∧ line = 1 + before.count '\n') ∧
    ((∃ line, Table.parse text = .error (.unterminatedQuote line)) ↔
      Odd (text.toList.count '"')) ∧
    (Even (text.toList.count '"') → ∃ records, Csv.records text = .ok records ∧
      Table.parse text = Table.ofRecords records) := by
  refine ⟨fun line => ?_, ?_, fun heven => ?_⟩
  · rw [Table.parse_eq_unterminatedQuote, Csv.opened_eq_some_iff]
  · simp only [Table.parse_eq_unterminatedQuote, Csv.opened_isSome_iff]
  · have hnone : (Csv.Cursor.start.scan text.toList).opened = none := by
      rw [Option.eq_none_iff_forall_ne_some]
      intro line hline
      exact Nat.not_odd_iff_even.mpr heven ((Csv.opened_isSome_iff _).mp ⟨line, hline⟩)
    have hrecords : Csv.records text = .ok ((Csv.Cursor.start.scan text.toList).finish.filter
        fun record => !Csv.isBlankLine record) := by
      unfold Csv.records
      simp only [hnone]
    refine ⟨_, hrecords, ?_⟩
    unfold Table.parse
    simp only [hrecords]

/-- Two quotes in the middle of a field are a section without content; the section that is left
    open begins on the second line, and its doubled quote opens no other. -/
example : (Csv.Cursor.start.scan ['a', '"', '"', '\n', '"', 'x', '\n', '"', '"']).opened = some 2 :=
  rfl

end CommitRisk
