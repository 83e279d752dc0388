import CommitRisk.Json.Reader
import Mathlib.Data.List.Forall2

/-!
# The Tokens of a Value

A JSON value is a list of tokens, and the automaton puts exactly that list together to the value
again. This is the half of reading that has nothing to do with characters: it holds of every
tree, whatever its strings and literals are, and also of one with a string in it that cannot be
read.

The automaton keeps what it has of a container on its stack, so the statement about a value is
made for any stack: after the tokens of a value it is where it was before, with that value
complete. `Means` says this of some tokens and a value. A container needs nothing but this of its
parts, so what its items and members are made of does not matter to it.

## Main definitions

* `Json.tokens`: The tokens of a value.
* `Json.itemTokens`, `Json.memberTokens`: The tokens of what follows the first item or member.
* `Json.run`: The automaton run over some tokens.
* `Json.Means`, `Json.MeansMember`: Some tokens are taken for a value, or for a member.
* `Json.enclose`: Pieces with commas between them and brackets around them.

## Theorems

* `run_items`, `run_members`: The automaton on what follows the first piece of a container.
* `means_array`, `means_object`: Containers of pieces that are taken for values.
* `means_tokens`: The tokens of a value are taken for it.
* `ofTokens?_of_means`, `ofTokens?_tokens`: Tokens that are taken for a value spell it.
-/

namespace CommitRisk.Json

mutual

/-- The tokens of a value. -/
def tokens : Json → List Token
  | .null => [.null]
  | .bool value => [.bool value]
  | .number literal => [.number literal]
  | .text value => [.text (some value)]
  | .array [] => [.openArray, .closeArray]
  | .array (item :: rest) => .openArray :: (tokens item ++ (itemTokens rest ++ [.closeArray]))
  | .object [] => [.openObject, .closeObject]
  | .object ((key, value) :: rest) =>
      .openObject :: .text (some key) :: .colon ::
        (tokens value ++ (memberTokens rest ++ [.closeObject]))
  | .unreadable => [.text none]

/-- The tokens of the items of an array after the first. -/
def itemTokens : List Json → List Token
  | [] => []
  | item :: rest => .comma :: (tokens item ++ itemTokens rest)

/-- The tokens of the members of an object after the first. -/
def memberTokens : List (String × Json) → List Token
  | [] => []
  | (key, value) :: rest =>
      .comma :: .text (some key) :: .colon :: (tokens value ++ memberTokens rest)

end

/-- The automaton run over some tokens. -/
def run (p : Progress) (tokens : List Token) : Option Progress :=
  tokens.foldlM Progress.step p

theorem run_nil (p : Progress) : run p [] = some p := rfl

theorem run_cons (p : Progress) (token : Token) (rest : List Token) :
    run p (token :: rest) = (p.step token).bind fun q => run q rest :=
  List.foldlM_cons

/-- Some tokens are taken for a value, in whatever container they stand. -/
def Means (tokens : List Token) (j : Json) : Prop :=
  ∀ stack rest, run (.value stack) (tokens ++ rest) = run (.complete stack j) rest

/-- Some tokens are a key, a colon and the tokens of a value. -/
def MeansMember (tokens : List Token) (member : Option String × Json) : Prop :=
  ∃ value, tokens = .text member.1 :: .colon :: value ∧ Means value member.2

/-- Pieces with commas between them and brackets around them. -/
def enclose (opening closing : Token) : List (List Token) → List Token
  | [] => [opening, closing]
  | first :: rest => opening :: (first ++ (rest.flatMap (.comma :: ·) ++ [closing]))

/-! ## Containers -/

/-- At the first item of an array a value is read like any other item. -/
theorem run_firstItem {tokens : List Token} {j : Json} (h : Means tokens j) (stack : List Frame)
    (rest : List Token) :
    run (.firstItem stack) (tokens ++ rest)
      = run (.value (.items [] :: stack)) (tokens ++ rest) := by
  -- Nothing is complete in front of any token or at a closing bracket.
  have hread := h [] []
  rw [List.append_nil] at hread
  cases tokens with
  | nil => cases hread
  | cons token later =>
      rw [List.cons_append, run_cons, run_cons]
      cases token with
      | closeArray => cases hread
      | _ => rfl

/-- The items after the first are added to those before. -/
theorem run_items {pieces : List (List Token)} {items : List Json}
    (h : List.Forall₂ Means pieces items) (before : List Json) (v : Json) (stack : List Frame)
    (rest : List Token) :
    run (.complete (.items before :: stack) v)
        (pieces.flatMap (.comma :: ·) ++ .closeArray :: rest)
      = run (.complete stack (.array ((v :: before).reverse ++ items))) rest := by
  induction h generalizing before v with
  | nil =>
      rw [List.append_nil]
      rfl
  | @cons piece item pieces items hpiece _ ih =>
      have hcomma : (Progress.complete (.items before :: stack) v).step .comma
          = some (.value (.items (v :: before) :: stack)) := rfl
      rw [List.flatMap_cons, List.cons_append, List.cons_append, run_cons, hcomma,
        Option.bind_some, List.append_assoc, hpiece, ih, List.reverse_cons, List.append_assoc]
      rfl

/-- Pieces that are taken for values make an array of them. -/
theorem means_array {pieces : List (List Token)} {items : List Json}
    (h : List.Forall₂ Means pieces items) :
    Means (enclose .openArray .closeArray pieces) (.array items) := by
  intro stack rest
  cases h with
  | nil => rfl
  | cons hfirst hrest =>
      have hopen : (Progress.value stack).step .openArray = some (.firstItem stack) := rfl
      rw [enclose, List.cons_append, run_cons, hopen, Option.bind_some, List.append_assoc,
        run_firstItem hfirst, hfirst, List.append_assoc, List.singleton_append, run_items hrest]
      rfl

/-- A key and a colon lead to the value of a member. -/
theorem run_member {tokens : List Token} {member : Option String × Json}
    (h : MeansMember tokens member) (p : Progress) (before : List (Option String × Json))
    (stack : List Frame) (rest : List Token)
    (hkey : p.step (.text member.1) = some (.colon stack before member.1)) :
    run p (tokens ++ rest) = run (.complete (.members before member.1 :: stack) member.2) rest := by
  rcases h with ⟨value, rfl, hvalue⟩
  have hcolon : (Progress.colon stack before member.1).step .colon
      = some (.value (.members before member.1 :: stack)) := rfl
  rw [List.cons_append, List.cons_append, run_cons, hkey, Option.bind_some, run_cons, hcolon,
    Option.bind_some, hvalue]

/-- The members after the first are added to those before. -/
theorem run_members {pieces : List (List Token)} {members : List (Option String × Json)}
    (h : List.Forall₂ MeansMember pieces members) (before : List (Option String × Json))
    (key : Option String) (v : Json) (stack : List Frame) (rest : List Token) :
    run (.complete (.members before key :: stack) v)
        (pieces.flatMap (.comma :: ·) ++ .closeObject :: rest)
      = run (.complete stack (closeMembers (members.reverse ++ (key, v) :: before))) rest := by
  induction h generalizing before key v with
  | nil => rfl
  | @cons piece member pieces members hpiece _ ih =>
      have hcomma : (Progress.complete (.members before key :: stack) v).step .comma
          = some (.nextKey stack ((key, v) :: before)) := rfl
      rw [List.flatMap_cons, List.cons_append, List.cons_append, run_cons, hcomma,
        Option.bind_some, List.append_assoc, run_member hpiece _ _ stack _ rfl, ih,
        List.reverse_cons, List.append_assoc]
      rfl

/-- Pieces that are taken for members make an object of them. -/
theorem means_object {pieces : List (List Token)} {members : List (Option String × Json)}
    (h : List.Forall₂ MeansMember pieces members) :
    Means (enclose .openObject .closeObject pieces) (closeMembers members.reverse) := by
  intro stack rest
  cases h with
  | nil => rfl
  | @cons first member pieces members hfirst hrest =>
      have hopen : (Progress.value stack).step .openObject = some (.firstKey stack) := rfl
      rw [enclose, List.cons_append, run_cons, hopen, Option.bind_some, List.append_assoc,
        run_member hfirst _ [] stack _ rfl, List.append_assoc, List.singleton_append,
        run_members hrest, List.reverse_cons]

/-! ## Trees -/

/-- A member that has a key, as the automaton keeps it. -/
def keyed (entry : String × Json) : Option String × Json :=
  (some entry.1, entry.2)

theorem mapM_keyed (members : List (String × Json))
    (f : Option String × Json → Option (String × Json))
    (hf : ∀ entry, f (keyed entry) = some entry) :
    (members.map keyed).mapM f = some members := by
  induction members with
  | nil => rfl
  | cons first rest ih =>
      rw [List.map_cons, List.mapM_cons, ih, hf]
      rfl

/-- Members that all have a key make an object. -/
theorem closeMembers_keyed (members : List (String × Json)) :
    closeMembers (members.map keyed).reverse = .object members := by
  rw [closeMembers, List.reverse_reverse, mapM_keyed members]
  exact fun _ => rfl

theorem itemTokens_eq (items : List Json) :
    itemTokens items = (items.map tokens).flatMap (.comma :: ·) := by
  induction items with
  | nil => rfl
  | cons item rest ih => rw [itemTokens, ih, List.map_cons, List.flatMap_cons, List.cons_append]

theorem tokens_array (items : List Json) :
    (Json.array items).tokens = enclose .openArray .closeArray (items.map tokens) := by
  cases items with
  | nil => rfl
  | cons item rest => rw [tokens, itemTokens_eq, List.map_cons, enclose]

/-- The tokens of a single member. -/
def entryTokens (entry : String × Json) : List Token :=
  .text (some entry.1) :: .colon :: entry.2.tokens

theorem memberTokens_eq (members : List (String × Json)) :
    memberTokens members = (members.map entryTokens).flatMap (.comma :: ·) := by
  induction members with
  | nil => rfl
  | cons entry rest ih =>
      rw [memberTokens, ih, List.map_cons, List.flatMap_cons, entryTokens]
      rfl

theorem tokens_object (members : List (String × Json)) :
    (Json.object members).tokens = enclose .openObject .closeObject (members.map entryTokens) := by
  cases members with
  | nil => rfl
  | cons entry rest =>
      rw [tokens, memberTokens_eq, List.map_cons, enclose, entryTokens]
      rfl

mutual

/-- The tokens of a value are taken for it. -/
theorem means_tokens (j : Json) : Means j.tokens j := by
  match j with
  | .null => exact fun _ _ => rfl
  | .bool value => exact fun _ _ => rfl
  | .number literal => exact fun _ _ => rfl
  | .text value => exact fun _ _ => rfl
  | .array items =>
      rw [tokens_array]
      exact means_array (means_items items)
  | .object members =>
      rw [tokens_object, ← closeMembers_keyed]
      exact means_object (means_members members)
  | .unreadable => exact fun _ _ => rfl

theorem means_items (items : List Json) : List.Forall₂ Means (items.map tokens) items := by
  match items with
  | [] => exact .nil
  | item :: rest => exact .cons (means_tokens item) (means_items rest)

theorem means_members (members : List (String × Json)) :
    List.Forall₂ MeansMember (members.map entryTokens) (members.map keyed) := by
  match members with
  | [] => exact .nil
  | (key, value) :: rest => exact .cons ⟨_, rfl, means_tokens value⟩ (means_members rest)

end

/-- Tokens that are taken for a value spell it. -/
theorem ofTokens?_of_means {tokens : List Token} {j : Json} (h : Means tokens j) :
    ofTokens? tokens = some j := by
  have hrun := h [] []
  rw [List.append_nil, run_nil, run] at hrun
  rw [ofTokens?, hrun]

/-- The tokens of a value spell it. -/
theorem ofTokens?_tokens (j : Json) : ofTokens? j.tokens = some j :=
  ofTokens?_of_means (means_tokens j)

end CommitRisk.Json
