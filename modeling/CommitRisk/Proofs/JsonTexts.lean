import CommitRisk.Json.Writer
import CommitRisk.Proofs.JsonTokens

/-!
# The Text of a Value

What a text of JSON is in terms of its tokens: white space stands anywhere between them, each
token is spelled in one of its ways, and after a number or a word comes something that does not
go on with it. `Spelled` says this as a grammar, without a lexer in it, and the lexer finds the
tokens of every such text.

A string literal is spelled by the code units between its quotes. A character may stand for
itself or be escaped, and what the writer does with it is one of the ways the grammar has. No
character is half of a surrogate pair, so the units of a string are the string again.

A value whose literals are numerals is written in this grammar, with either layout. So its text
is read as the value it was written from.

## Main definitions

* `Json.Body`: The inside of a string literal and its code units.
* `Json.Ends`: A text does not go on with a number or a word.
* `Json.Spelled`: A text and the tokens it spells.
* `Json.Writable`: A value whose literals are numerals.

## Theorems

* `lexFrom_of_body`: The lexer inside a string literal.
* `lex_of_spelled`: The lexer finds the tokens that are spelled.
* `body_escape`, `textOfUnits_toNat`: A string in its escaped form.
* `spelled_write`: A value is written as its tokens are spelled.
* `parse?_write`: What is written is read again.
-/

namespace CommitRisk.Json

/-! ## Spelling -/

/-- The inside of a string literal and the code units it stands for: a character other than the
    quote, the backslash and the control characters stands for itself, and the others are
    escaped. -/
inductive Body : List Char → List Nat → Prop where
  | nil : Body [] []
  | plain (c : Char) (rest : List Char) (units : List Nat) (hquote : c ≠ '"') (hslash : c ≠ '\\')
      (hcontrol : 32 ≤ c.toNat) (h : Body rest units) : Body (c :: rest) (c.toNat :: units)
  | short (c : Char) (u : Nat) (rest : List Char) (units : List Nat) (hc : unescape? c = some u)
      (h : Body rest units) : Body ('\\' :: c :: rest) (u :: units)
  | code (a b c d : Char) (w x y z : Nat) (rest : List Char) (units : List Nat)
      (ha : hexValue? a = some w) (hb : hexValue? b = some x) (hc : hexValue? c = some y)
      (hd : hexValue? d = some z) (h : Body rest units) :
      Body ('\\' :: 'u' :: a :: b :: c :: d :: rest)
        ((16 * (16 * (16 * w + x) + y) + z) :: units)

/-- A text does not go on with a number or a word. -/
def Ends (text : List Char) : Prop :=
  ∀ c, text.head? = some c → isNumberChar c = false ∧ c.isAlpha = false

/-- The token of a single character. -/
def mark? : Char → Option Token
  | '[' => some .openArray
  | ']' => some .closeArray
  | '{' => some .openObject
  | '}' => some .closeObject
  | ',' => some .comma
  | ':' => some .colon
  | _ => none

/-- The token of a word. -/
def word? (letters : List Char) : Option Token :=
  if letters == "null".toList then some .null
  else if letters == "true".toList then some (.bool true)
  else if letters == "false".toList then some (.bool false)
  else none

/-- A text and the tokens it spells. -/
inductive Spelled : List Char → List Token → Prop where
  | nil : Spelled [] []
  | space (c : Char) (rest : List Char) (tokens : List Token) (hc : isSpace c = true)
      (h : Spelled rest tokens) : Spelled (c :: rest) tokens
  | mark (c : Char) (token : Token) (rest : List Char) (tokens : List Token)
      (hc : mark? c = some token) (h : Spelled rest tokens) :
      Spelled (c :: rest) (token :: tokens)
  | word (letters : List Char) (token : Token) (rest : List Char) (tokens : List Token)
      (hletters : word? letters = some token) (hends : Ends rest) (h : Spelled rest tokens) :
      Spelled (letters ++ rest) (token :: tokens)
  | number (literal rest : List Char) (tokens : List Token)
      (hliteral : isNumeral literal = true) (hends : Ends rest) (h : Spelled rest tokens) :
      Spelled (literal ++ rest) (.number (String.ofList literal) :: tokens)
  | text (body : List Char) (units : List Nat) (rest : List Char) (tokens : List Token)
      (hbody : Body body units) (h : Spelled rest tokens) :
      Spelled ('"' :: (body ++ '"' :: rest))
        (.text ((textOfUnits units).map String.ofList) :: tokens)

/-! ## The lexer -/

/-- The tokens that the lexer finds from some state on. -/
def lexFrom (l : Lexer) (text : List Char) : Option (List Token) :=
  ((text.foldlM Lexer.step l).bind Lexer.flush).map fun l => l.tokens.reverse

theorem lexFrom_cons (l : Lexer) (c : Char) (rest : List Char) :
    lexFrom l (c :: rest) = (l.step c).bind fun l => lexFrom l rest := by
  rw [lexFrom, List.foldlM_cons]
  cases l.step c with
  | none => rfl
  | some l => rfl

/-- The lexer inside a string literal, up to its closing quote. -/
theorem lexFrom_of_body (body : List Char) (units before : List Nat) (done : List Token)
    (rest : List Char) (h : Body body units) :
    lexFrom ⟨done, .text before⟩ (body ++ '"' :: rest)
      = lexFrom ⟨.text ((textOfUnits (before.reverse ++ units)).map String.ofList) :: done, .none⟩
          rest := by
  induction h generalizing before with
  | nil =>
      rw [List.append_nil]
      exact lexFrom_cons _ _ _
  | plain c body units hquote hslash hcontrol _ ih =>
      have hstep : Lexer.step ⟨done, .text before⟩ c
          = some ⟨done, .text (c.toNat :: before)⟩ := by
        simp only [Lexer.step, beq_iff_eq, hquote, hslash, if_false, Nat.not_lt.mpr hcontrol]
      rw [List.cons_append, lexFrom_cons, hstep, Option.bind_some, ih, List.reverse_cons,
        List.append_assoc, List.singleton_append]
  | short c u body units hc _ ih =>
      have hslash : Lexer.step ⟨done, .text before⟩ '\\' = some ⟨done, .escape before⟩ := rfl
      have hstep : Lexer.step ⟨done, .escape before⟩ c = some ⟨done, .text (u :: before)⟩ := by
        have hu : c ≠ 'u' := by
          rintro rfl
          have hnone : unescape? 'u' = none := by decide
          rw [hnone] at hc
          cases hc
        simp only [Lexer.step, beq_iff_eq, hu, if_false, hc, Option.map_some]
      rw [List.cons_append, List.cons_append, lexFrom_cons, hslash, Option.bind_some, lexFrom_cons,
        hstep, Option.bind_some, ih, List.reverse_cons, List.append_assoc, List.singleton_append]
  | code a b c d w x y z body units ha hb hc hd _ ih =>
      have hslash : Lexer.step ⟨done, .text before⟩ '\\' = some ⟨done, .escape before⟩ := rfl
      have hmark : Lexer.step ⟨done, .escape before⟩ 'u' = some ⟨done, .code before 0 0⟩ := rfl
      have hfirst : Lexer.step ⟨done, .code before 0 0⟩ a = some ⟨done, .code before 1 w⟩ := by
        simp only [Lexer.step, ha, Option.map_some, Nat.mul_zero, Nat.zero_add]
        rfl
      have hsecond : Lexer.step ⟨done, .code before 1 w⟩ b
          = some ⟨done, .code before 2 (16 * w + x)⟩ := by
        simp only [Lexer.step, hb, Option.map_some]
        rfl
      have hthird : Lexer.step ⟨done, .code before 2 (16 * w + x)⟩ c
          = some ⟨done, .code before 3 (16 * (16 * w + x) + y)⟩ := by
        simp only [Lexer.step, hc, Option.map_some]
        rfl
      have hfourth : Lexer.step ⟨done, .code before 3 (16 * (16 * w + x) + y)⟩ d
          = some ⟨done, .text ((16 * (16 * (16 * w + x) + y) + z) :: before)⟩ := by
        simp only [Lexer.step, hd, Option.map_some]
        rfl
      simp only [List.cons_append, lexFrom_cons, hslash, hmark, hfirst, hsecond, hthird, hfourth,
        Option.bind_some]
      rw [ih, List.reverse_cons, List.append_assoc, List.singleton_append]

/-- A number or a word that is read up to here is a token, if the text does not go on with it. -/
theorem lexFrom_of_flush (l : Lexer) (token : Token) (done : List Token) (rest : List Char)
    (hflush : l.flush = some ⟨token :: done, .none⟩)
    (hstep : ∀ c, rest.head? = some c →
      l.step c = l.flush.bind fun l => Lexer.begin l.tokens c) :
    lexFrom l rest = lexFrom ⟨token :: done, .none⟩ rest := by
  cases rest with
  | nil =>
      change l.flush.map _ = some _
      rw [hflush]
      rfl
  | cons c rest =>
      rw [lexFrom_cons, lexFrom_cons, hstep c rfl, hflush]
      rfl

/-- A character that is none of a class is not a character of the class. -/
theorem beq_false_of_class (p : Char → Bool) (c d : Char) (hc : p c = true) (hd : p d = false) :
    (c == d) = false := by
  rw [beq_eq_false_iff_ne]
  rintro rfl
  rw [hc] at hd
  cases hd

/-- A number begins with one of its characters. -/
theorem begin_number (done : List Token) (c : Char) (hc : isNumberChar c = true) :
    Lexer.begin done c = some ⟨done, .number [c]⟩ := by
  have hother : ∀ d, isNumberChar d = false → (c == d) = false :=
    fun d hd => beq_false_of_class isNumberChar c d hc hd
  simp only [Lexer.begin, isSpace, hother ' ' (by decide), hother '\n' (by decide),
    hother '\t' (by decide), hother '\r' (by decide), hother '[' (by decide),
    hother ']' (by decide), hother '{' (by decide), hother '}' (by decide),
    hother ',' (by decide), hother ':' (by decide), hother '"' (by decide), Bool.or_self,
    Bool.false_eq_true, if_false, hc, if_true]

theorem lexFrom_numberChars (literal before : List Char) (done : List Token) (rest : List Char)
    (hliteral : ∀ c ∈ literal, isNumberChar c = true) :
    lexFrom ⟨done, .number before⟩ (literal ++ rest)
      = lexFrom ⟨done, .number (literal.reverse ++ before)⟩ rest := by
  induction literal generalizing before with
  | nil => rfl
  | cons c literal ih =>
      have hstep : Lexer.step ⟨done, .number before⟩ c = some ⟨done, .number (c :: before)⟩ := by
        simp only [Lexer.step, hliteral c List.mem_cons_self, if_true]
      rw [List.cons_append, lexFrom_cons, hstep, Option.bind_some,
        ih (c :: before) fun d hd => hliteral d (List.mem_cons_of_mem c hd), List.reverse_cons,
        List.append_assoc, List.singleton_append]

/-! ## Numerals are made of number characters -/

theorem isNumberChar_of_isDigit (c : Char) (h : c.isDigit = true) : isNumberChar c = true := by
  simp only [isNumberChar, h, Bool.true_or]

theorem isNumberChar_of_all_isDigit (digits : List Char) (h : digits.all Char.isDigit = true) :
    ∀ c ∈ digits, isNumberChar c = true :=
  fun c hc => isNumberChar_of_isDigit c (List.all_eq_true.mp h c hc)

theorem isNumberChar_of_isExponent (text : List Char) (h : isExponent text = true) :
    ∀ c ∈ text, isNumberChar c = true := by
  cases text with
  | nil => exact fun c hc => absurd hc List.not_mem_nil
  | cons mark rest =>
      unfold isExponent at h
      rw [Bool.and_eq_true, Bool.and_eq_true, Bool.or_eq_true, beq_iff_eq, beq_iff_eq] at h
      rcases h with ⟨⟨hmark, _⟩, hdigits⟩
      have hrest : ∀ c ∈ rest, isNumberChar c = true := by
        split at hdigits
        · exact List.forall_mem_cons.mpr ⟨by decide, isNumberChar_of_all_isDigit _ hdigits⟩
        · exact List.forall_mem_cons.mpr ⟨by decide, isNumberChar_of_all_isDigit _ hdigits⟩
        · exact isNumberChar_of_all_isDigit _ hdigits
      refine List.forall_mem_cons.mpr ⟨?_, hrest⟩
      rcases hmark with rfl | rfl <;> decide

/-- Digits in front of number characters are number characters. -/
theorem isNumberChar_of_dropWhile (text : List Char)
    (h : ∀ c ∈ text.dropWhile Char.isDigit, isNumberChar c = true) :
    ∀ c ∈ text, isNumberChar c = true := by
  rw [← List.takeWhile_append_dropWhile (p := Char.isDigit) (l := text)]
  exact List.forall_mem_append.mpr ⟨isNumberChar_of_all_isDigit _ List.all_takeWhile, h⟩

theorem isNumberChar_of_isFraction (text : List Char) (h : isFraction text = true) :
    ∀ c ∈ text, isNumberChar c = true := by
  unfold isFraction at h
  split at h
  · rw [Bool.and_eq_true] at h
    exact List.forall_mem_cons.mpr ⟨by decide,
      isNumberChar_of_dropWhile _ (isNumberChar_of_isExponent _ h.2)⟩
  · exact isNumberChar_of_isExponent text h

theorem isNumberChar_of_isNumeral (literal : List Char) (h : isNumeral literal = true) :
    ∀ c ∈ literal, isNumberChar c = true := by
  unfold isNumeral at h
  rw [Bool.and_eq_true] at h
  split at h
  · exact List.forall_mem_cons.mpr ⟨by decide,
      isNumberChar_of_dropWhile _ (isNumberChar_of_isFraction _ h.2)⟩
  · exact isNumberChar_of_dropWhile _ (isNumberChar_of_isFraction _ h.2)

/-- A numeral is not empty. -/
theorem exists_cons_of_isNumeral (literal : List Char) (h : isNumeral literal = true) :
    ∃ c rest, literal = c :: rest := by
  cases literal with
  | nil => exact absurd h (by decide)
  | cons c rest => exact ⟨c, rest, rfl⟩

/-! ## What the lexer finds -/

theorem step_of_mark (done : List Token) (c : Char) (token : Token) (h : mark? c = some token) :
    Lexer.step ⟨done, .none⟩ c = some ⟨token :: done, .none⟩ := by
  unfold mark? at h
  split at h <;> cases h <;> rfl

theorem word?_cases (letters : List Char) (token : Token) (h : word? letters = some token) :
    letters = "null".toList ∧ token = .null ∨ letters = "true".toList ∧ token = .bool true ∨
      letters = "false".toList ∧ token = .bool false := by
  unfold word? at h
  split at h
  · rename_i hnull
    cases h
    exact .inl ⟨beq_iff_eq.mp hnull, rfl⟩
  · split at h
    · rename_i htrue
      cases h
      exact .inr (.inl ⟨beq_iff_eq.mp htrue, rfl⟩)
    · split at h
      · rename_i hfalse
        cases h
        exact .inr (.inr ⟨beq_iff_eq.mp hfalse, rfl⟩)
      · cases h

theorem lexFrom_word (letters : List Char) (token : Token) (done : List Token) (rest : List Char)
    (hletters : word? letters = some token) (hends : Ends rest) :
    lexFrom ⟨done, .none⟩ (letters ++ rest) = lexFrom ⟨token :: done, .none⟩ rest := by
  -- The lexer has the word when it comes to the text after it.
  have hread : lexFrom ⟨done, .none⟩ (letters ++ rest)
      = lexFrom ⟨done, .word letters.reverse⟩ rest ∧
      Lexer.flush ⟨done, .word letters.reverse⟩ = some ⟨token :: done, .none⟩ := by
    rcases word?_cases letters token hletters with ⟨rfl, rfl⟩ | ⟨rfl, rfl⟩ | ⟨rfl, rfl⟩ <;>
      exact ⟨rfl, rfl⟩
  rw [hread.1]
  refine lexFrom_of_flush _ token done rest hread.2 fun c hc => ?_
  have hstop := (hends c hc).2
  simp only [Lexer.step, hstop, Bool.false_eq_true, if_false]

theorem lexFrom_number (literal : List Char) (done : List Token) (rest : List Char)
    (hliteral : isNumeral literal = true) (hends : Ends rest) :
    lexFrom ⟨done, .none⟩ (literal ++ rest)
      = lexFrom ⟨.number (String.ofList literal) :: done, .none⟩ rest := by
  have hchars := isNumberChar_of_isNumeral literal hliteral
  rcases exists_cons_of_isNumeral literal hliteral with ⟨first, digits, rfl⟩
  have hfirst : Lexer.step ⟨done, .none⟩ first = some ⟨done, .number [first]⟩ :=
    begin_number done first (hchars first List.mem_cons_self)
  have hwhole : digits.reverse ++ [first] = (first :: digits).reverse :=
    List.reverse_cons.symm
  have hflush : Lexer.flush ⟨done, .number (first :: digits).reverse⟩
      = some ⟨.number (String.ofList (first :: digits)) :: done, .none⟩ := by
    simp only [Lexer.flush, List.reverse_reverse, hliteral, if_true]
  rw [List.cons_append, lexFrom_cons, hfirst, Option.bind_some,
    lexFrom_numberChars digits [first] done rest fun c hc => hchars c (List.mem_cons_of_mem _ hc),
    hwhole]
  refine lexFrom_of_flush _ _ done rest hflush fun c hc => ?_
  have hstop := (hends c hc).1
  simp only [Lexer.step, hstop, Bool.false_eq_true, if_false]

/-- The lexer finds the tokens that are spelled. -/
theorem lexFrom_of_spelled (text : List Char) (tokens done : List Token) (h : Spelled text tokens) :
    lexFrom ⟨done, .none⟩ text = some (done.reverse ++ tokens) := by
  induction h generalizing done with
  | nil =>
      rw [List.append_nil]
      rfl
  | space c rest tokens hc _ ih =>
      have hstep : Lexer.step ⟨done, .none⟩ c = some ⟨done, .none⟩ := by
        simp only [Lexer.step, Lexer.begin, hc, if_true]
      rw [lexFrom_cons, hstep, Option.bind_some, ih]
  | mark c token rest tokens hc _ ih =>
      rw [lexFrom_cons, step_of_mark done c token hc, Option.bind_some, ih, List.reverse_cons,
        List.append_assoc, List.singleton_append]
  | word letters token rest tokens hletters hends _ ih =>
      rw [lexFrom_word letters token done rest hletters hends, ih, List.reverse_cons,
        List.append_assoc, List.singleton_append]
  | number literal rest tokens hliteral hends _ ih =>
      rw [lexFrom_number literal done rest hliteral hends, ih, List.reverse_cons,
        List.append_assoc, List.singleton_append]
  | text body units rest tokens hbody _ ih =>
      have hquote : Lexer.step ⟨done, .none⟩ '"' = some ⟨done, .text []⟩ := rfl
      rw [lexFrom_cons, hquote, Option.bind_some, lexFrom_of_body body units [] done rest hbody,
        List.reverse_nil, List.nil_append, ih, List.reverse_cons, List.append_assoc,
        List.singleton_append]

theorem lex_of_spelled (text : List Char) (tokens : List Token) (h : Spelled text tokens) :
    lex text = some tokens :=
  lexFrom_of_spelled text tokens [] h

/-! ## Strings -/

theorem hexValue?_hexDigit (n : Nat) (h : n < 16) : hexValue? (hexDigit n) = some n := by
  revert n
  decide

/-- What the writer does with a character is one of the ways to spell it. -/
theorem body_escape (c : Char) (rest : List Char) (units : List Nat) (h : Body rest units) :
    Body (escape c ++ rest) (c.toNat :: units) := by
  unfold escape
  split
  · rename_i hc
    rw [beq_iff_eq.mp hc]
    exact .short '"' _ rest units (by decide) h
  rename_i hquote
  split
  · rename_i hc
    rw [beq_iff_eq.mp hc]
    exact .short '\\' _ rest units (by decide) h
  rename_i hslash
  split
  · rename_i hc
    rw [beq_iff_eq.mp hc]
    exact .short 'b' _ rest units (by decide) h
  split
  · rename_i hc
    rw [beq_iff_eq.mp hc]
    exact .short 'f' _ rest units (by decide) h
  split
  · rename_i hc
    rw [beq_iff_eq.mp hc]
    exact .short 'n' _ rest units (by decide) h
  split
  · rename_i hc
    rw [beq_iff_eq.mp hc]
    exact .short 'r' _ rest units (by decide) h
  split
  · rename_i hc
    rw [beq_iff_eq.mp hc]
    exact .short 't' _ rest units (by decide) h
  split
  · -- Four hexadecimal digits, of which the first two are zeros.
    rename_i hcontrol
    have hcode := Body.code '0' '0' (hexDigit (c.toNat / 16)) (hexDigit (c.toNat % 16)) 0 0 _ _
      rest units (by decide) (by decide) (hexValue?_hexDigit _ (by omega))
      (hexValue?_hexDigit _ (by omega)) h
    have hunit : 16 * (16 * (16 * 0 + 0) + c.toNat / 16) + c.toNat % 16 = c.toNat := by omega
    rw [hunit] at hcode
    exact hcode
  · rename_i hcontrol
    rw [beq_iff_eq] at hquote hslash
    exact .plain c rest units hquote hslash (Nat.not_lt.mp hcontrol) h

/-- No character is half of a surrogate pair, so a character is its own code unit. -/
theorem textOfUnits_cons_toNat (c : Char) (units : List Nat) :
    textOfUnits (c.toNat :: units) = (textOfUnits units).map (c :: ·) := by
  have hvalid : c.toNat < 0xd800 ∨ 0xdfff < c.toNat := by
    rcases c.valid with h | h
    · exact .inl h
    · exact .inr h.1
  have hhigh : (decide (0xd800 ≤ c.toNat) && decide (c.toNat < 0xdc00)) = false := by
    rw [Bool.and_eq_false_iff, decide_eq_false_iff_not, decide_eq_false_iff_not]
    omega
  have hlow : (decide (0xdc00 ≤ c.toNat) && decide (c.toNat < 0xe000)) = false := by
    rw [Bool.and_eq_false_iff, decide_eq_false_iff_not, decide_eq_false_iff_not]
    omega
  rw [textOfUnits.eq_def]
  simp only [hhigh, hlow, Bool.false_eq_true, if_false, Char.ofNat_toNat]

/-- Characters are their own code units. -/
theorem textOfUnits_toNat (cs : List Char) : textOfUnits (cs.map Char.toNat) = some cs := by
  induction cs with
  | nil => rfl
  | cons c rest ih => rw [List.map_cons, textOfUnits_cons_toNat, ih, Option.map_some]

theorem body_flatMap_escape (cs : List Char) : Body (cs.flatMap escape) (cs.map Char.toNat) := by
  induction cs with
  | nil => exact .nil
  | cons c rest ih =>
      rw [List.flatMap_cons]
      exact body_escape c _ _ ih

/-- A string is spelled by its literal. -/
theorem spelled_writeText (s : String) (rest : List Char) (more : List Token)
    (h : Spelled rest more) : Spelled (writeText s ++ rest) (.text (some s) :: more) := by
  have hspelled := Spelled.text _ _ rest more (body_flatMap_escape s.toList) h
  rw [textOfUnits_toNat, Option.map_some, String.ofList_toList] at hspelled
  rw [writeText, List.cons_append, List.cons_append, List.append_assoc, List.singleton_append]
  exact hspelled

/-! ## Values -/

/-- A value whose literals are numerals, and in which nothing is unreadable. -/
inductive Writable : Json → Prop where
  | null : Writable .null
  | bool (value : Bool) : Writable (.bool value)
  | number (literal : String) (h : isNumeral literal.toList = true) : Writable (.number literal)
  | text (value : String) : Writable (.text value)
  | array (items : List Json) (h : ∀ item ∈ items, Writable item) : Writable (.array items)
  | object (members : List (String × Json)) (h : ∀ entry ∈ members, Writable entry.2) :
      Writable (.object members)

/-- A text that begins with a character that goes on with nothing. -/
theorem ends_cons (c : Char) (rest : List Char) (hnumber : isNumberChar c = false)
    (halpha : c.isAlpha = false) : Ends (c :: rest) := by
  intro d hd
  rw [List.head?_cons, Option.some.injEq] at hd
  rw [← hd]
  exact ⟨hnumber, halpha⟩

theorem ends_newline (layout : Layout) (depth : Nat) (c : Char) (rest : List Char)
    (h : Ends (c :: rest)) : Ends (layout.newline depth ++ c :: rest) := by
  cases layout with
  | compact => exact h
  | pretty => exact ends_cons _ _ (by decide) (by decide)

/-- White space between tokens spells nothing. -/
theorem spelled_spaces (spaces rest : List Char) (more : List Token)
    (hspaces : ∀ c ∈ spaces, isSpace c = true) (h : Spelled rest more) :
    Spelled (spaces ++ rest) more := by
  induction spaces with
  | nil => exact h
  | cons c spaces ih =>
      rw [List.forall_mem_cons] at hspaces
      exact .space c _ more hspaces.1 (ih hspaces.2)

theorem spelled_newline (layout : Layout) (depth : Nat) (rest : List Char) (more : List Token)
    (h : Spelled rest more) : Spelled (layout.newline depth ++ rest) more := by
  refine spelled_spaces _ rest more (fun c hc => ?_) h
  cases layout with
  | compact => exact absurd hc List.not_mem_nil
  | pretty =>
      rcases List.mem_cons.mp hc with rfl | hc
      · decide
      · rw [List.eq_of_mem_replicate hc]
        decide

theorem spelled_colon (layout : Layout) (rest : List Char) (more : List Token)
    (h : Spelled rest more) : Spelled (layout.colon ++ rest) (.colon :: more) := by
  cases layout with
  | compact => exact .mark ':' .colon rest more rfl h
  | pretty => exact .mark ':' .colon _ more rfl (.space ' ' rest more rfl h)

section Write

variable (layout : Layout)

theorem ends_writeItems (depth : Nat) (items : List Json) (rest : List Char) (h : Ends rest) :
    Ends (writeItems layout depth items ++ rest) := by
  cases items with
  | nil => exact h
  | cons item items =>
      rw [writeItems]
      exact ends_cons ',' _ (by decide) (by decide)

theorem ends_writeMembers (depth : Nat) (members : List (String × Json)) (rest : List Char)
    (h : Ends rest) : Ends (writeMembers layout depth members ++ rest) := by
  cases members with
  | nil => exact h
  | cons entry members =>
      rw [writeMembers]
      exact ends_cons ',' _ (by decide) (by decide)

mutual

/-- A value is written as its tokens are spelled. -/
theorem spelled_write (depth : Nat) (j : Json) (rest : List Char) (more : List Token)
    (hj : Writable j) (hends : Ends rest) (h : Spelled rest more) :
    Spelled (write layout depth j ++ rest) (j.tokens ++ more) := by
  match j with
  | .null => exact .word "null".toList .null rest more rfl hends h
  | .bool true => exact .word "true".toList (.bool true) rest more rfl hends h
  | .bool false => exact .word "false".toList (.bool false) rest more rfl hends h
  | .number literal =>
      cases hj with
      | number _ hliteral =>
          have hspelled := Spelled.number literal.toList rest more hliteral hends h
          rw [String.ofList_toList] at hspelled
          exact hspelled
  | .text value => exact spelled_writeText value rest more h
  | .array [] => exact .mark '[' _ _ _ rfl (.mark ']' _ _ _ rfl h)
  | .array (item :: items) =>
      cases hj with
      | array _ hitems =>
          rw [List.forall_mem_cons] at hitems
          have hclose := spelled_newline layout depth _ _ (.mark ']' .closeArray rest more rfl h)
          have hstop := ends_newline layout depth ']' rest (ends_cons _ _ (by decide) (by decide))
          have htail := spelled_writeItems (depth + 1) items _ _ hitems.2 hstop hclose
          have hhead := spelled_write (depth + 1) item _ _ hitems.1
            (ends_writeItems layout (depth + 1) items _ hstop) htail
          have hspelled := Spelled.mark '[' .openArray _ _ rfl
            (spelled_newline layout (depth + 1) _ _ hhead)
          simp only [write, tokens, List.cons_append, List.append_assoc, List.nil_append]
          exact hspelled
  | .object [] => exact .mark '{' _ _ _ rfl (.mark '}' _ _ _ rfl h)
  | .object ((key, value) :: members) =>
      cases hj with
      | object _ hmembers =>
          rw [List.forall_mem_cons] at hmembers
          have hclose := spelled_newline layout depth _ _ (.mark '}' .closeObject rest more rfl h)
          have hstop := ends_newline layout depth '}' rest (ends_cons _ _ (by decide) (by decide))
          have htail := spelled_writeMembers (depth + 1) members _ _ hmembers.2 hstop hclose
          have hvalue := spelled_write (depth + 1) value _ _ hmembers.1
            (ends_writeMembers layout (depth + 1) members _ hstop) htail
          have hkey := spelled_writeText key _ _ (spelled_colon layout _ _ hvalue)
          have hspelled := Spelled.mark '{' .openObject _ _ rfl
            (spelled_newline layout (depth + 1) _ _ hkey)
          simp only [write, tokens, List.cons_append, List.append_assoc, List.nil_append]
          exact hspelled
  | .unreadable => cases hj

/-- So are the items after the first. -/
theorem spelled_writeItems (depth : Nat) (items : List Json) (rest : List Char)
    (more : List Token) (hitems : ∀ item ∈ items, Writable item) (hends : Ends rest)
    (h : Spelled rest more) :
    Spelled (writeItems layout depth items ++ rest) (itemTokens items ++ more) := by
  match items with
  | [] => exact h
  | item :: items =>
      rw [List.forall_mem_cons] at hitems
      have htail := spelled_writeItems depth items rest more hitems.2 hends h
      have hhead := spelled_write depth item _ _ hitems.1
        (ends_writeItems layout depth items rest hends) htail
      have hspelled := Spelled.mark ',' .comma _ _ rfl (spelled_newline layout depth _ _ hhead)
      simp only [writeItems, itemTokens, List.cons_append, List.append_assoc]
      exact hspelled

/-- So are the members after the first. -/
theorem spelled_writeMembers (depth : Nat) (members : List (String × Json)) (rest : List Char)
    (more : List Token) (hmembers : ∀ entry ∈ members, Writable entry.2) (hends : Ends rest)
    (h : Spelled rest more) :
    Spelled (writeMembers layout depth members ++ rest) (memberTokens members ++ more) := by
  match members with
  | [] => exact h
  | (key, value) :: members =>
      rw [List.forall_mem_cons] at hmembers
      have htail := spelled_writeMembers depth members rest more hmembers.2 hends h
      have hvalue := spelled_write depth value _ _ hmembers.1
        (ends_writeMembers layout depth members rest hends) htail
      have hkey := spelled_writeText key _ _ (spelled_colon layout _ _ hvalue)
      have hspelled := Spelled.mark ',' .comma _ _ rfl (spelled_newline layout depth _ _ hkey)
      simp only [writeMembers, memberTokens, List.cons_append, List.append_assoc]
      exact hspelled

end

/-- What is written is read again. -/
theorem parse?_write (j : Json) (hj : Writable j) :
    parse? (String.ofList (j.write layout 0)) = some j := by
  have hspelled := spelled_write layout 0 j [] [] hj nofun .nil
  rw [List.append_nil, List.append_nil] at hspelled
  rw [parse?, String.toList_ofList, lex_of_spelled _ _ hspelled, Option.bind_some,
    ofTokens?_tokens]

end Write

end CommitRisk.Json
