import CommitRisk.Proofs.JsonTexts
import CommitRisk.Proofs.PrintedNumerals

/-!
# The Grammar of JSON

Which texts are JSON, said character by character and without regard to any reader. White space
may stand around every value, key and colon. A value is one of three words, a number, a string
literal, an array or an object, nested as deep as one likes. The escapes of a literal may be any:
`Quoted` says what can stand between the quotes, and `Spelling` which string it stands for. A
literal with half of a surrogate pair in it stands for none, and is a value nevertheless.

The reader takes every such value for one tree. A text that is read this way may stand in front
of anything that does not go on with its last token, and in any container, so `Reads` is all that
an array or an object has to know of its parts, and the induction over a value is one step for
each of its forms.

## Main definitions

* `Json.Blank`, `Json.NumberText`: White space and numbers.
* `Json.Quoted`, `Json.Spelling`: What stands between quotes, and the string it stands for.
* `Json.Bracketed`, `Json.WrittenMember`: Pieces between brackets, and the members of an object.
* `Json.ValueText`: The texts of values.
* `Json.ObjectText`: The texts of an object with certain members.
* `Json.Spells`, `Json.Reads`: What a text is read as in front of a rest.

## Theorems

* `isNumeral_of_numberText`: A number of the grammar is a numeral.
* `Quoted.body`, `Spelling.units`: The code units of a literal.
* `Bracketed.spells`: Pieces between brackets are the tokens of the pieces.
* `reads_array`, `reads_object`: Containers of parts that are read.
* `ValueText.reads`: Every value is read.
* `parse?_of_objectText`: An object is read as its keys and the values of its members.
-/

namespace CommitRisk.Json

/-! ## White space and numbers -/

/-- White space, or nothing. -/
def Blank (text : List Char) : Prop :=
  ∀ c ∈ text, c ∈ [' ', '\t', '\n', '\r']

instance (text : List Char) : Decidable (Blank text) :=
  List.decidableBAll _ text

/-- A run of digits. -/
structure IsDigits (text : List Char) : Prop where
  digits : ∀ c ∈ text, c.isDigit = true
  ne_nil : text ≠ []

/-- A point and digits, or nothing. -/
inductive FractionText : List Char → Prop where
  | absent : FractionText []
  | point (digits : List Char) (h : IsDigits digits) : FractionText ('.' :: digits)

/-- A mark, a sign or none, and digits, or nothing. -/
inductive ExponentText : List Char → Prop where
  | absent : ExponentText []
  | marked (mark : Char) (sign digits : List Char) (hmark : mark ∈ ['e', 'E'])
      (hsign : sign ∈ [[], ['+'], ['-']]) (h : IsDigits digits) :
      ExponentText (mark :: (sign ++ digits))

/-- A minus or none, a whole part, a fraction and an exponent. -/
inductive NumberText : List Char → Prop where
  | parts (negative : Bool) (whole fraction exponent : List Char) (hwhole : IsWhole whole)
      (hfraction : FractionText fraction) (hexponent : ExponentText exponent) :
      NumberText ((if negative then ['-'] else []) ++ (whole ++ (fraction ++ exponent)))

theorem isExponent_marked (mark : Char) (sign digits : List Char) (hmark : mark ∈ ['e', 'E'])
    (hsign : sign ∈ [[], ['+'], ['-']]) (h : IsDigits digits) :
    isExponent (mark :: (sign ++ digits)) = true := by
  have hlead : (mark == 'e' || mark == 'E') = true := by
    rw [Bool.or_eq_true, beq_iff_eq, beq_iff_eq]
    exact List.mem_pair.mp hmark
  have hall : digits.all Char.isDigit = true := List.all_eq_true.mpr h.digits
  have hsome : (!digits.isEmpty) = true := by
    rw [Bool.not_eq_true', List.isEmpty_eq_false_iff]
    exact h.ne_nil
  simp only [List.mem_cons, List.not_mem_nil, or_false] at hsign
  rcases hsign with rfl | rfl | rfl
  · -- The first digit is no sign.
    rw [List.nil_append]
    unfold isExponent
    simp only []
    split
    · exact absurd (h.digits '+' List.mem_cons_self) (by decide)
    · exact absurd (h.digits '-' List.mem_cons_self) (by decide)
    · rw [hlead, hsome, hall]
      rfl
  · simp only [isExponent, List.singleton_append, hlead, hsome, hall, Bool.and_self]
  · simp only [isExponent, List.singleton_append, hlead, hsome, hall, Bool.and_self]

/-- An exponent does not begin like a digit or a fraction. -/
theorem ExponentText.isExponent {text : List Char} (h : ExponentText text) :
    Stops text ∧ Json.isExponent text = true ∧ isFraction text = true := by
  cases h with
  | absent => exact ⟨stops_nil, rfl, rfl⟩
  | marked mark sign digits hmark hsign hdigits =>
      have hexponent := isExponent_marked mark sign digits hmark hsign hdigits
      rcases List.mem_pair.mp hmark with rfl | rfl
      · exact ⟨stops_cons 'e' _ (by decide), hexponent, hexponent⟩
      · exact ⟨stops_cons 'E' _ (by decide), hexponent, hexponent⟩

/-- A number of the grammar is a numeral. -/
theorem isNumeral_of_numberText {text : List Char} (h : NumberText text) :
    isNumeral text = true := by
  cases h with
  | parts negative whole fraction exponent hwhole hfraction hexponent =>
      rcases hexponent.isExponent with ⟨hstop, hexp, hfrac⟩
      have hrest : Stops (fraction ++ exponent) ∧ isFraction (fraction ++ exponent) = true := by
        cases hfraction with
        | absent => exact ⟨hstop, hfrac⟩
        | point digits hdigits =>
            exact ⟨stops_cons '.' _ (by decide),
              isFraction_point digits exponent hdigits.digits hdigits.ne_nil hstop hexp⟩
      have hparts : HasParts (whole ++ (fraction ++ exponent)) :=
        ⟨whole, _, rfl, hwhole, hrest.1, hrest.2⟩
      have hnumeral := isNumeral_of_hasParts negative _ hparts
      cases negative with
      | true => exact hnumeral
      | false => exact hnumeral

/-! ## String literals -/

/-- The short escapes and the characters they stand for. -/
def shortEscapes : List (Char × Char) :=
  [('"', '"'), ('\\', '\\'), ('/', '/'), ('b', '\x08'), ('f', '\x0c'), ('n', '\n'), ('r', '\r'),
    ('t', '\t')]

/-- The hexadecimal digits, of either case, and their values. -/
def hexDigits : List (Char × Nat) :=
  ['0', '1', '2', '3', '4', '5', '6', '7', '8', '9', 'a', 'b', 'c', 'd', 'e', 'f'].zipIdx
    ++ ['A', 'B', 'C', 'D', 'E', 'F'].zipIdx 10

/-- The escape of a code unit by four hexadecimal digits. -/
inductive CodeText : List Char → Nat → Prop where
  | digits (a b c d : Char) (w x y z : Nat) (ha : (a, w) ∈ hexDigits) (hb : (b, x) ∈ hexDigits)
      (hc : (c, y) ∈ hexDigits) (hd : (d, z) ∈ hexDigits) :
      CodeText ['\\', 'u', a, b, c, d] (4096 * w + 256 * x + 16 * y + z)

/-- A character that may stand for itself between quotes. -/
structure IsPlain (c : Char) : Prop where
  ne_quote : c ≠ '"'
  ne_slash : c ≠ '\\'
  printed : 32 ≤ c.toNat

instance (c : Char) : Decidable (IsPlain c) :=
  decidable_of_iff (c ≠ '"' ∧ c ≠ '\\' ∧ 32 ≤ c.toNat)
    ⟨fun h => ⟨h.1, h.2.1, h.2.2⟩, fun h => ⟨h.ne_quote, h.ne_slash, h.printed⟩⟩

/-- What can stand between the quotes of a string literal. -/
inductive Quoted : List Char → Prop where
  | nil : Quoted []
  | plain (c : Char) (rest : List Char) (hc : IsPlain c) (h : Quoted rest) : Quoted (c :: rest)
  | short (e c : Char) (rest : List Char) (he : (e, c) ∈ shortEscapes) (h : Quoted rest) :
      Quoted ('\\' :: e :: rest)
  | code (code : List Char) (u : Nat) (rest : List Char) (hcode : CodeText code u)
      (h : Quoted rest) : Quoted (code ++ rest)

/-- What stands between the quotes of a string literal, and the characters it stands for. A
    character outside of the basic plane may be escaped as a surrogate pair. -/
inductive Spelling : List Char → List Char → Prop where
  | nil : Spelling [] []
  | plain (c : Char) (rest cs : List Char) (hc : IsPlain c) (h : Spelling rest cs) :
      Spelling (c :: rest) (c :: cs)
  | short (e c : Char) (rest cs : List Char) (he : (e, c) ∈ shortEscapes)
      (h : Spelling rest cs) : Spelling ('\\' :: e :: rest) (c :: cs)
  | code (code : List Char) (c : Char) (rest cs : List Char) (hcode : CodeText code c.toNat)
      (h : Spelling rest cs) : Spelling (code ++ rest) (c :: cs)
  | pair (high low : List Char) (c : Char) (rest cs : List Char) (hc : 0x10000 ≤ c.toNat)
      (hhigh : CodeText high (0xd800 + (c.toNat - 0x10000) / 0x400))
      (hlow : CodeText low (0xdc00 + (c.toNat - 0x10000) % 0x400)) (h : Spelling rest cs) :
      Spelling (high ++ (low ++ rest)) (c :: cs)

/-- Characters that may all stand for themselves spell the string they are. -/
theorem spelling_self (cs : List Char) (h : cs.all (IsPlain ·) = true) : Spelling cs cs := by
  induction cs with
  | nil => exact .nil
  | cons c rest ih =>
      rw [List.all_cons, Bool.and_eq_true, decide_eq_true_iff] at h
      exact .plain c rest rest h.1 (ih h.2)

/-- What stands for a string can stand between quotes. -/
theorem Spelling.quoted {body cs : List Char} (h : Spelling body cs) : Quoted body := by
  induction h with
  | nil => exact .nil
  | plain c rest cs hc _ ih => exact .plain c rest hc ih
  | short e c rest cs he _ ih => exact .short e c rest he ih
  | code code c rest cs hcode _ ih => exact .code code _ rest hcode ih
  | pair high low c rest cs _ hhigh hlow _ ih =>
      exact .code high _ _ hhigh (.code low _ rest hlow ih)

theorem unescape?_of_mem {e c : Char} (h : (e, c) ∈ shortEscapes) :
    unescape? e = some c.toNat := by
  have hall : ∀ entry ∈ shortEscapes, unescape? entry.1 = some entry.2.toNat := by decide
  exact hall _ h

theorem hexValue?_of_mem {c : Char} {n : Nat} (h : (c, n) ∈ hexDigits) :
    hexValue? c = some n := by
  have hall : ∀ entry ∈ hexDigits, hexValue? entry.1 = some entry.2 := by decide
  exact hall _ h

/-- An escape by hexadecimal digits in front of a body adds its code unit. -/
theorem CodeText.body {code rest : List Char} {u : Nat} {units : List Nat} (h : CodeText code u)
    (hrest : Body rest units) : Body (code ++ rest) (u :: units) := by
  cases h with
  | digits a b c d w x y z ha hb hc hd =>
      have hbody := Body.code a b c d w x y z rest units (hexValue?_of_mem ha)
        (hexValue?_of_mem hb) (hexValue?_of_mem hc) (hexValue?_of_mem hd) hrest
      have hunit : 16 * (16 * (16 * w + x) + y) + z = 4096 * w + 256 * x + 16 * y + z := by omega
      rw [hunit] at hbody
      exact hbody

/-- What can stand between quotes has code units. -/
theorem Quoted.body {body : List Char} (h : Quoted body) : ∃ units, Body body units := by
  induction h with
  | nil => exact ⟨[], .nil⟩
  | plain c rest hc _ ih =>
      rcases ih with ⟨units, hunits⟩
      exact ⟨_, .plain c rest units hc.ne_quote hc.ne_slash hc.printed hunits⟩
  | short e c rest he _ ih =>
      rcases ih with ⟨units, hunits⟩
      exact ⟨_, .short e c.toNat rest units (unescape?_of_mem he) hunits⟩
  | code code u rest hcode _ ih =>
      rcases ih with ⟨units, hunits⟩
      exact ⟨_, hcode.body hunits⟩

/-- The two halves of a surrogate pair go together. -/
theorem textOfUnits_pair (c : Char) (units : List Nat) (hc : 0x10000 ≤ c.toNat) :
    textOfUnits ((0xd800 + (c.toNat - 0x10000) / 0x400)
        :: (0xdc00 + (c.toNat - 0x10000) % 0x400) :: units)
      = (textOfUnits units).map (c :: ·) := by
  have hrange : c.toNat < 0x110000 := by
    rcases c.valid with h | h
    · exact lt_trans h (by decide)
    · exact h.2
  have hhigh : (decide (0xd800 ≤ 0xd800 + (c.toNat - 0x10000) / 0x400)
      && decide (0xd800 + (c.toNat - 0x10000) / 0x400 < 0xdc00)) = true := by
    rw [Bool.and_eq_true, decide_eq_true_iff, decide_eq_true_iff]
    omega
  have hlow : (decide (0xdc00 ≤ 0xdc00 + (c.toNat - 0x10000) % 0x400)
      && decide (0xdc00 + (c.toNat - 0x10000) % 0x400 < 0xe000)) = true := by
    rw [Bool.and_eq_true, decide_eq_true_iff, decide_eq_true_iff]
    omega
  have hvalue : 0x10000 + (0xd800 + (c.toNat - 0x10000) / 0x400 - 0xd800) * 0x400
      + (0xdc00 + (c.toNat - 0x10000) % 0x400 - 0xdc00) = c.toNat := by omega
  rw [textOfUnits.eq_def]
  simp only [hhigh, hlow, if_true, hvalue, Char.ofNat_toNat]

/-- What stands for a string has code units that make it. -/
theorem Spelling.units {body cs : List Char} (h : Spelling body cs) :
    ∃ units, Body body units ∧ textOfUnits units = some cs := by
  induction h with
  | nil => exact ⟨[], .nil, rfl⟩
  | plain c rest cs hc _ ih =>
      rcases ih with ⟨units, hunits, hcs⟩
      refine ⟨_, .plain c rest units hc.ne_quote hc.ne_slash hc.printed hunits, ?_⟩
      rw [textOfUnits_cons_toNat, hcs, Option.map_some]
  | short e c rest cs he _ ih =>
      rcases ih with ⟨units, hunits, hcs⟩
      refine ⟨_, .short e c.toNat rest units (unescape?_of_mem he) hunits, ?_⟩
      rw [textOfUnits_cons_toNat, hcs, Option.map_some]
  | code code c rest cs hcode _ ih =>
      rcases ih with ⟨units, hunits, hcs⟩
      refine ⟨_, hcode.body hunits, ?_⟩
      rw [textOfUnits_cons_toNat, hcs, Option.map_some]
  | pair high low c rest cs hc hhigh hlow _ ih =>
      rcases ih with ⟨units, hunits, hcs⟩
      refine ⟨_, hhigh.body (hlow.body hunits), ?_⟩
      rw [textOfUnits_pair c units hc, hcs, Option.map_some]

/-! ## Values -/

/-- Pieces with commas between them and white space around each. -/
inductive Separated : List (List Char) → List Char → Prop where
  | last (before piece after : List Char) (hbefore : Blank before) (hafter : Blank after) :
      Separated [piece] (before ++ (piece ++ after))
  | piece (before piece after : List Char) (pieces : List (List Char)) (rest : List Char)
      (hbefore : Blank before) (hafter : Blank after) (h : Separated pieces rest) :
      Separated (piece :: pieces) (before ++ (piece ++ (after ++ ',' :: rest)))

/-- Pieces between brackets, or brackets with nothing but white space between them. -/
inductive Bracketed (opening closing : Char) : List (List Char) → List Char → Prop where
  | empty (blank : List Char) (h : Blank blank) :
      Bracketed opening closing [] (opening :: (blank ++ [closing]))
  | pieces (pieces : List (List Char)) (inner : List Char) (h : Separated pieces inner) :
      Bracketed opening closing pieces (opening :: (inner ++ [closing]))

/-- A member of an object as it stands in a text: what is between the quotes of its key, the
    white space on both sides of its colon, and its value. -/
structure WrittenMember where
  key : List Char
  before : List Char
  after : List Char
  value : List Char
  blank_before : Blank before
  blank_after : Blank after

/-- The text of a member. -/
def WrittenMember.text (m : WrittenMember) : List Char :=
  '"' :: (m.key ++ ['"']) ++ (m.before ++ ':' :: (m.after ++ m.value))

/-- A member in a text has a key, spelled in any way, and the text of a value. -/
def WrittenMember.Has (m : WrittenMember) (member : String × List Char) : Prop :=
  Spelling m.key member.1.toList ∧ m.value = member.2

/-- The texts of values. -/
inductive ValueText : List Char → Prop where
  | word (letters : List Char)
      (h : letters ∈ ["null".toList, "true".toList, "false".toList]) : ValueText letters
  | number (literal : List Char) (h : NumberText literal) : ValueText literal
  | string (body : List Char) (h : Quoted body) : ValueText ('"' :: (body ++ ['"']))
  | array (items : List (List Char)) (text : List Char) (h : Bracketed '[' ']' items text)
      (hitems : ∀ item ∈ items, ValueText item) : ValueText text
  | object (members : List WrittenMember) (text : List Char)
      (h : Bracketed '{' '}' (members.map WrittenMember.text) text)
      (hkeys : ∀ m ∈ members, Quoted m.key) (hvalues : ∀ m ∈ members, ValueText m.value) :
      ValueText text

/-- The texts of an object whose members have certain keys and values with certain texts. The
    keys may be escaped, and white space may stand in front of the object and after it. -/
inductive ObjectText (members : List (String × List Char)) : List Char → Prop where
  | object (before after text : List Char) (written : List WrittenMember)
      (hbefore : Blank before) (hafter : Blank after)
      (h : Bracketed '{' '}' (written.map WrittenMember.text) text)
      (hmembers : List.Forall₂ WrittenMember.Has written members)
      (hvalues : ∀ member ∈ members, ValueText member.2) :
      ObjectText members (before ++ (text ++ after))

/-! ## Tokens of a text -/

/-- A text is some tokens, in front of anything that does not go on with it. -/
def Spells (text : List Char) (tokens : List Token) : Prop :=
  ∀ rest more, Ends rest → Spelled rest more → Spelled (text ++ rest) (tokens ++ more)

/-- White space is white space to the reader, and goes on with nothing. -/
theorem Blank.class {blank : List Char} (h : Blank blank) :
    ∀ c ∈ blank, isSpace c = true ∧ isNumberChar c = false ∧ c.isAlpha = false := by
  intro c hc
  have hmem := h c hc
  simp only [List.mem_cons, List.not_mem_nil, or_false] at hmem
  rcases hmem with rfl | rfl | rfl | rfl <;> exact ⟨by decide, by decide, by decide⟩

theorem Blank.spelled {blank rest : List Char} {more : List Token} (hblank : Blank blank)
    (h : Spelled rest more) : Spelled (blank ++ rest) more :=
  spelled_spaces blank rest more (fun c hc => (hblank.class c hc).1) h

theorem Blank.ends {blank rest : List Char} (hblank : Blank blank) (h : Ends rest) :
    Ends (blank ++ rest) := by
  cases blank with
  | nil => exact h
  | cons c blank =>
      rcases hblank.class c List.mem_cons_self with ⟨_, hnumber, halpha⟩
      exact ends_cons c _ hnumber halpha

-- The closing quote ends the literal, so the rest may go on with anything.
theorem spelled_literal {body rest : List Char} {units : List Nat} {more : List Token}
    (hbody : Body body units) (h : Spelled rest more) :
    Spelled ('"' :: (body ++ ['"']) ++ rest)
      (.text ((textOfUnits units).map String.ofList) :: more) := by
  rw [List.cons_append, List.append_assoc, List.singleton_append]
  exact .text body units rest more hbody h

/-- The pieces between commas are the tokens of the pieces between commas. -/
theorem Separated.spells {pieces : List (List Char)} {inner : List Char}
    {tokens : List (List Token)} (h : Separated pieces inner)
    (hpieces : List.Forall₂ Spells pieces tokens) :
    ∃ first others, tokens = first :: others ∧
      Spells inner (first ++ others.flatMap (.comma :: ·)) := by
  induction h generalizing tokens with
  | last before piece after hbefore hafter =>
      -- No comma follows the last piece, so it ends only where the rest lets it.
      rcases List.forall₂_cons_left_iff.mp hpieces with ⟨first, _, hpiece, hnil, rfl⟩
      cases hnil
      refine ⟨first, [], rfl, fun rest more hends hrest => ?_⟩
      have hspelled := hpiece _ _ (hafter.ends hends) (hafter.spelled hrest)
      simp only [List.append_assoc, List.flatMap_nil, List.append_nil]
      exact hbefore.spelled hspelled
  | piece before piece after pieces inner hbefore hafter _ ih =>
      rcases List.forall₂_cons_left_iff.mp hpieces with ⟨first, _, hpiece, hrests, rfl⟩
      rcases ih hrests with ⟨second, others, rfl, hinner⟩
      refine ⟨first, second :: others, rfl, fun rest more hends hrest => ?_⟩
      have hcomma := Spelled.mark ',' .comma _ _ rfl (hinner rest more hends hrest)
      have hstop : Ends (',' :: (inner ++ rest)) := ends_cons ',' _ (by decide) (by decide)
      have hspelled := hpiece _ _ (hafter.ends hstop) (hafter.spelled hcomma)
      simp only [List.append_assoc, List.flatMap_cons, List.cons_append] at hspelled ⊢
      exact hbefore.spelled hspelled

theorem ends_of_mark (c : Char) (token : Token) (rest : List Char) (h : mark? c = some token) :
    Ends (c :: rest) := by
  unfold mark? at h
  split at h <;> first
    | exact ends_cons _ rest (by decide) (by decide)
    | cases h

/-- Pieces between brackets are the tokens of the pieces between brackets. -/
theorem Bracketed.spells {opening closing : Char} {left right : Token}
    {pieces : List (List Char)} {text : List Char} {tokens : List (List Token)}
    (h : Bracketed opening closing pieces text) (hopening : mark? opening = some left)
    (hclosing : mark? closing = some right) (hpieces : List.Forall₂ Spells pieces tokens) :
    Spells text (enclose left right tokens) := by
  intro rest more _ hrest
  have hclose := Spelled.mark closing right rest more hclosing hrest
  have hstop := ends_of_mark closing right rest hclosing
  cases h with
  | empty blank hblank =>
      cases hpieces
      simp only [enclose, List.cons_append, List.append_assoc, List.nil_append]
      exact .mark opening left _ _ hopening (hblank.spelled hclose)
  | pieces pieces inner hinner =>
      rcases hinner.spells hpieces with ⟨first, others, rfl, hspells⟩
      have hspelled := hspells _ _ hstop hclose
      simp only [enclose, List.cons_append, List.append_assoc, List.nil_append] at hspelled ⊢
      exact .mark opening left _ _ hopening hspelled

/-! ## Values of a text -/

/-- A text is read as a value. -/
def Reads (text : List Char) (j : Json) : Prop :=
  ∃ tokens, Spells text tokens ∧ Means tokens j

/-- A text is read as a member. -/
def ReadsMember (text : List Char) (member : Option String × Json) : Prop :=
  ∃ tokens, Spells text tokens ∧ MeansMember tokens member

theorem reads_word {letters : List Char} {token : Token} {j : Json}
    (h : word? letters = some token) (hmeans : Means [token] j) : Reads letters j :=
  ⟨[token], fun rest more hends hrest => .word letters token rest more h hends hrest, hmeans⟩

theorem reads_number {literal : List Char} (h : isNumeral literal = true) :
    Reads literal (.number (String.ofList literal)) :=
  ⟨[.number (String.ofList literal)],
    fun rest more hends hrest => .number literal rest more h hends hrest, fun _ _ => rfl⟩

/-- A literal is read whether it stands for a string or not. -/
theorem reads_literal {body : List Char} {units : List Nat} (h : Body body units) :
    ∃ j, Reads ('"' :: (body ++ ['"'])) j := by
  have hspells : Spells ('"' :: (body ++ ['"']))
      [.text ((textOfUnits units).map String.ofList)] :=
    fun rest more _ hrest => spelled_literal h hrest
  cases hs : (textOfUnits units).map String.ofList with
  | some s =>
      rw [hs] at hspells
      exact ⟨.text s, _, hspells, fun _ _ => rfl⟩
  | none =>
      rw [hs] at hspells
      exact ⟨.unreadable, _, hspells, fun _ _ => rfl⟩

/-- A member is read as its key, or as a member without one, and its value. -/
theorem readsMember_text {m : WrittenMember} {units : List Nat} {j : Json}
    (hkey : Body m.key units) (hvalue : Reads m.value j) :
    ReadsMember m.text ((textOfUnits units).map String.ofList, j) := by
  rcases hvalue with ⟨tokens, hspells, hmeans⟩
  refine ⟨_, fun rest more hends hrest => ?_, tokens, rfl, hmeans⟩
  have hcolon := Spelled.mark ':' .colon _ _ rfl
    (m.blank_after.spelled (hspells rest more hends hrest))
  have hspelled := spelled_literal hkey (m.blank_before.spelled hcolon)
  simp only [WrittenMember.text, List.append_assoc, List.cons_append] at hspelled ⊢
  exact hspelled

/-- Parts that are each read have the tokens of each. -/
theorem exists_tokens {β : Type} {means : List Token → β → Prop} {texts : List (List Char)}
    {values : List β}
    (h : List.Forall₂ (fun text value => ∃ tokens, Spells text tokens ∧ means tokens value)
      texts values) :
    ∃ tokens, List.Forall₂ Spells texts tokens ∧ List.Forall₂ means tokens values := by
  induction h with
  | nil => exact ⟨[], .nil, .nil⟩
  | cons hfirst _ ih =>
      rcases hfirst with ⟨first, hspells, hmeans⟩
      rcases ih with ⟨others, hothers, hvalues⟩
      exact ⟨first :: others, .cons hspells hothers, .cons hmeans hvalues⟩

theorem reads_array {pieces : List (List Char)} {text : List Char} {items : List Json}
    (h : Bracketed '[' ']' pieces text) (hpieces : List.Forall₂ Reads pieces items) :
    Reads text (.array items) := by
  rcases exists_tokens hpieces with ⟨tokens, hspells, hmeans⟩
  exact ⟨_, h.spells rfl rfl hspells, means_array hmeans⟩

theorem reads_object {pieces : List (List Char)} {text : List Char}
    {members : List (Option String × Json)} (h : Bracketed '{' '}' pieces text)
    (hpieces : List.Forall₂ ReadsMember pieces members) :
    Reads text (closeMembers members.reverse) := by
  rcases exists_tokens hpieces with ⟨tokens, hspells, hmeans⟩
  exact ⟨_, h.spells rfl rfl hspells, means_object hmeans⟩

/-- If every entry has a partner, there is a list of partners. -/
theorem exists_forall₂ {α β : Type} {r : α → β → Prop} (xs : List α)
    (h : ∀ x ∈ xs, ∃ y, r x y) : ∃ ys, List.Forall₂ r xs ys := by
  induction xs with
  | nil => exact ⟨[], .nil⟩
  | cons x rest ih =>
      rw [List.forall_mem_cons] at h
      rcases h.1 with ⟨y, hy⟩
      rcases ih h.2 with ⟨ys, hys⟩
      exact ⟨y :: ys, .cons hy hys⟩

/-- Every value is read. -/
theorem ValueText.reads {text : List Char} (h : ValueText text) : ∃ j, Reads text j := by
  -- One step for each form of a value. The parts of a container are read by induction, and
  -- `Reads` says all that the container needs of them.
  induction h with
  | word letters h =>
      simp only [List.mem_cons, List.not_mem_nil, or_false] at h
      rcases h with rfl | rfl | rfl
      · exact ⟨.null, reads_word rfl fun _ _ => rfl⟩
      · exact ⟨.bool true, reads_word rfl fun _ _ => rfl⟩
      · exact ⟨.bool false, reads_word rfl fun _ _ => rfl⟩
  | number literal h => exact ⟨_, reads_number (isNumeral_of_numberText h)⟩
  | string body h =>
      rcases h.body with ⟨units, hunits⟩
      exact reads_literal hunits
  | array items text h _ ih =>
      rcases exists_forall₂ items ih with ⟨values, hvalues⟩
      exact ⟨_, reads_array h hvalues⟩
  | object members text h hkeys _ ih =>
      have hread : ∀ m ∈ members, ∃ member, ReadsMember m.text member := by
        intro m hm
        rcases (hkeys m hm).body with ⟨units, hunits⟩
        rcases ih m hm with ⟨j, hj⟩
        exact ⟨_, readsMember_text hunits hj⟩
      rcases exists_forall₂ members hread with ⟨values, hvalues⟩
      exact ⟨_, reads_object h (List.forall₂_map_left_iff.mpr hvalues)⟩

/-- What is read as a value is the text of it, with white space around it or without. -/
theorem parse?_of_reads {before text after : List Char} {j : Json} (hbefore : Blank before)
    (hafter : Blank after) (h : Reads text j) :
    parse? (String.ofList (before ++ (text ++ after))) = some j := by
  rcases h with ⟨tokens, hspells, hmeans⟩
  have hend : Spelled after [] := by
    have hspelled := hafter.spelled Spelled.nil
    rwa [List.append_nil] at hspelled
  have hstop : Ends after := by
    have hends : Ends (after ++ []) := hafter.ends nofun
    rwa [List.append_nil] at hends
  have hspelled := hbefore.spelled (hspells after [] hstop hend)
  rw [List.append_nil] at hspelled
  rw [parse?, String.toList_ofList, lex_of_spelled _ _ hspelled, Option.bind_some,
    ofTokens?_of_means hmeans]

/-- A key and the text of a value are read as the key and the value. -/
def ReadsEntry (member : String × List Char) (entry : String × Json) : Prop :=
  entry.1 = member.1 ∧ Reads member.2 entry.2

theorem keys_of_readsEntry {members : List (String × List Char)} {entries : List (String × Json)}
    (h : List.Forall₂ ReadsEntry members entries) :
    entries.map Prod.fst = members.map Prod.fst := by
  induction h with
  | nil => rfl
  | cons hfirst _ ih => rw [List.map_cons, List.map_cons, hfirst.1, ih]

/-- Members of a text are read as the keys they have and the values of their texts. -/
theorem readsMember_of_has {written : List WrittenMember} {members : List (String × List Char)}
    {entries : List (String × Json)} (hmembers : List.Forall₂ WrittenMember.Has written members)
    (hentries : List.Forall₂ ReadsEntry members entries) :
    List.Forall₂ ReadsMember (written.map WrittenMember.text) (entries.map keyed) := by
  induction hmembers generalizing entries with
  | nil =>
      cases hentries
      exact .nil
  | @cons m member written members hmember _ ih =>
      rcases List.forall₂_cons_left_iff.mp hentries with ⟨entry, rest, ⟨hkey, hvalue⟩, hrest, rfl⟩
      rcases hmember with ⟨hspelling, htext⟩
      rcases hspelling.units with ⟨units, hunits, hcs⟩
      rw [← htext] at hvalue
      have hread := readsMember_text hunits hvalue
      rw [hcs, Option.map_some, String.ofList_toList, ← hkey] at hread
      exact .cons hread (ih hrest)

theorem ObjectText.values {members : List (String × List Char)} {text : List Char}
    (h : ObjectText members text) : ∀ member ∈ members, ValueText member.2 := by
  cases h with
  | object _ _ _ _ _ _ _ _ hvalues => exact hvalues

/-- An object is read as its keys with the values of their texts. -/
theorem parse?_of_objectText {members : List (String × List Char)} {text : String}
    {entries : List (String × Json)} (h : ObjectText members text.toList)
    (hentries : List.Forall₂ ReadsEntry members entries) :
    parse? text = some (.object entries) := by
  -- The grammar is about characters, and the cases of it need them as a variable.
  rw [← String.ofList_toList (s := text)]
  generalize text.toList = chars at h
  cases h with
  | object before after text written hbefore hafter h hmembers _ =>
      have hobject := reads_object h (readsMember_of_has hmembers hentries)
      rw [closeMembers_keyed] at hobject
      exact parse?_of_reads hbefore hafter hobject

end CommitRisk.Json
