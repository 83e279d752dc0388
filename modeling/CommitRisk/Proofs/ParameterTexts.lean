import CommitRisk.Proofs.JsonGrammar
import CommitRisk.Proofs.Payloads

/-!
# Parameters as They Are Written

Which texts give the parameters of a forest. The text they are written as is one: it is read as
the same parameters. More generally any object will do, in any spelling that JSON has. A member
that is named like a parameter has to be written as the parameter is; a member of any other name
may have any value and come any number of times. What is read is the parameters as far as they
are named, and the default for the others, so neither the order of the members nor what stands
between them matters. An object that names a parameter twice is refused, whatever the values are.

The reader goes through the members with what has come by so far. `Members.named` is what that
is after members that are written as the parameters are, and `Members.Met` says only which of
the parameters have come by, which holds whatever their values were.

## Main definitions

* `HyperParameters.names`: The names of the parameters.
* `HyperParameters.Writes`: A member is written as the parameters are, if it is one of them.
* `HyperParameters.restrict`: The parameters as far as they are named.
* `parameterKeys`: The keys of an object that name a parameter.
* `Members.named`, `Members.Met`: What has come by after some members.

## Theorems

* `member_named`, `foldlM_named`: A member of parameters, and all members of an object.
* `Met.member`, `Met.nodup`: No parameter comes by twice.
* `ofJson?_of_carries`, `ofJson?_of_repeated`: What becomes of an object.
* `parameters_read_back`: Reading parameters from any text of an object.
-/

namespace CommitRisk

namespace HyperParameters

/-- The names of the parameters. -/
def names : List String :=
  ["n_estimators", "max_depth", "random_state"]

/-- The text of a count is its decimal digits. -/
def countText (n : UInt64) : List Char :=
  (toString n.toNat).toList

/-- The text of a count that may be left open. -/
def optionalText : Option UInt64 → List Char
  | some n => countText n
  | none => "null".toList

/-- A member with a name and the text of a value is written as the parameters are, if it is one
    of them. -/
structure Writes (p : HyperParameters) (member : String × List Char) : Prop where
  estimators : member.1 = "n_estimators" → member.2 = countText p.estimators
  maxDepth : member.1 = "max_depth" → member.2 = optionalText p.maxDepth
  seed : member.1 = "random_state" → member.2 = optionalText p.seed

/-- The parameters as far as they are named, and the default for the others. -/
def restrict (p : HyperParameters) (keys : List String) : HyperParameters where
  estimators := if "n_estimators" ∈ keys then p.estimators else default.estimators
  maxDepth := if "max_depth" ∈ keys then p.maxDepth else default.maxDepth
  seed := if "random_state" ∈ keys then p.seed else default.seed

end HyperParameters

/-- The keys that name a parameter. -/
def parameterKeys (keys : List String) : List String :=
  keys.filter (· ∈ HyperParameters.names)

/-! ## One member -/

/-- A value that is there if its name is among some keys. -/
def given (name : String) (keys : List String) (value : α) : Option α :=
  if name ∈ keys then some value else none

section Given

variable {name key : String} {keys : List String} {value : α}

theorem given_of_not_mem (h : name ∉ keys) : given name keys value = none :=
  if_neg h

theorem given_append_self : given name (keys ++ [name]) value = some value :=
  if_pos (List.mem_append_right keys (List.mem_singleton_self name))

theorem given_append_ne (h : name ≠ key) :
    given name (keys ++ [key]) value = given name keys value := by
  simp only [given, List.mem_append, List.mem_singleton, h, or_false]

theorem getD_given (other : α) :
    (given name keys value).getD other = if name ∈ keys then value else other := by
  unfold given
  split <;> rfl

end Given

namespace HyperParameters

theorem ne_of_not_name {key : String} (h : key ∉ names) : ∀ name ∈ names, name ≠ key := by
  rintro name hname rfl
  exact h hname

namespace Members

variable (m : Members) (value : Json)

theorem member_estimators : m.member "n_estimators" value
    = if m.estimators.isSome then Option.none
      else value.toCount?.map fun n => { m with estimators := some n } := rfl

theorem member_maxDepth : m.member "max_depth" value
    = if m.maxDepth.isSome then Option.none
      else value.toOptionalCount?.map fun d => { m with maxDepth := some d } := rfl

theorem member_seed : m.member "random_state" value
    = if m.seed.isSome then Option.none
      else value.toOptionalCount?.map fun s => { m with seed := some s } := rfl

/-- A member of any other name changes nothing. -/
theorem member_other (key : String) (h : key ∉ names) : m.member key value = some m := by
  simp only [names, List.mem_cons, List.not_mem_nil, or_false, not_or] at h
  rw [member, if_neg h.1, if_neg h.2.1, if_neg h.2.2]

end Members

/-- A member is worth what the parameters have, if it is one of them. -/
structure Carries (p : HyperParameters) (entry : String × Json) : Prop where
  estimators : entry.1 = "n_estimators" → entry.2.toCount? = some p.estimators
  maxDepth : entry.1 = "max_depth" → entry.2.toOptionalCount? = some p.maxDepth
  seed : entry.1 = "random_state" → entry.2.toOptionalCount? = some p.seed

/-- What has come by after members with some keys, if their values are those of parameters. -/
def Members.named (p : HyperParameters) (keys : List String) : Members where
  estimators := given "n_estimators" keys p.estimators
  maxDepth := given "max_depth" keys p.maxDepth
  seed := given "random_state" keys p.seed

theorem Members.complete_named (p : HyperParameters) (keys : List String) :
    (Members.named p keys).complete = p.restrict keys := by
  simp only [Members.complete, Members.named, getD_given]
  rfl

/-- A member that is worth what the parameters have is taken, unless it names one of them that
    has come by before. -/
theorem Members.member_named {p : HyperParameters} {seen : List String} {entry : String × Json}
    (h : p.Carries entry) (hnew : entry.1 ∈ names → entry.1 ∉ seen) :
    (Members.named p seen).member entry.1 entry.2
      = some (Members.named p (seen ++ [entry.1])) := by
  rcases entry with ⟨key, value⟩
  by_cases hname : key ∈ names
  · have hunseen := hnew hname
    simp only [names, List.mem_cons, List.not_mem_nil, or_false] at hname
    rcases hname with rfl | rfl | rfl
    · simp only [member_estimators, named, given_of_not_mem hunseen, h.estimators rfl,
        given_append_self, given_append_ne, ne_eq, String.reduceEq, not_false_eq_true,
        Option.isSome_none, Bool.false_eq_true, if_false, Option.map_some]
    · simp only [member_maxDepth, named, given_of_not_mem hunseen, h.maxDepth rfl,
        given_append_self, given_append_ne, ne_eq, String.reduceEq, not_false_eq_true,
        Option.isSome_none, Bool.false_eq_true, if_false, Option.map_some]
    · simp only [member_seed, named, given_of_not_mem hunseen, h.seed rfl,
        given_append_self, given_append_ne, ne_eq, String.reduceEq, not_false_eq_true,
        Option.isSome_none, Bool.false_eq_true, if_false, Option.map_some]
  · simp only [member_other _ value key hname, named,
      given_append_ne (ne_of_not_name hname "n_estimators" (by decide)),
      given_append_ne (ne_of_not_name hname "max_depth" (by decide)),
      given_append_ne (ne_of_not_name hname "random_state" (by decide))]

/-- Which parameters have come by after members with some keys, whatever their values were. -/
structure Members.Met (m : Members) (seen : List String) : Prop where
  estimators : m.estimators.isSome = true ↔ "n_estimators" ∈ seen
  maxDepth : m.maxDepth.isSome = true ↔ "max_depth" ∈ seen
  seed : m.seed.isSome = true ↔ "random_state" ∈ seen

theorem Members.met_none : Members.none.Met [] :=
  ⟨by simp [Members.none], by simp [Members.none], by simp [Members.none]⟩

/-- A member that is taken has come by, and is no parameter that has come by before. -/
theorem Members.Met.member {m m' : Members} {seen : List String} {key : String} {value : Json}
    (hm : m.Met seen) (h : m.member key value = some m') :
    m'.Met (seen ++ [key]) ∧ (key ∈ names → key ∉ seen) := by
  by_cases hname : key ∈ names
  · simp only [names, List.mem_cons, List.not_mem_nil, or_false] at hname
    rcases hname with rfl | rfl | rfl
    · rw [member_estimators, Option.ite_none_left_eq_some, Option.map_eq_some_iff] at h
      rcases h with ⟨hnew, n, _, rfl⟩
      rw [hm.estimators] at hnew
      exact ⟨⟨by simp, by simp [hm.maxDepth], by simp [hm.seed]⟩, fun _ => hnew⟩
    · rw [member_maxDepth, Option.ite_none_left_eq_some, Option.map_eq_some_iff] at h
      rcases h with ⟨hnew, n, _, rfl⟩
      rw [hm.maxDepth] at hnew
      exact ⟨⟨by simp [hm.estimators], by simp, by simp [hm.seed]⟩, fun _ => hnew⟩
    · rw [member_seed, Option.ite_none_left_eq_some, Option.map_eq_some_iff] at h
      rcases h with ⟨hnew, n, _, rfl⟩
      rw [hm.seed] at hnew
      exact ⟨⟨by simp [hm.estimators], by simp [hm.maxDepth], by simp⟩, fun _ => hnew⟩
  · -- The members stay as they are, and none of the names is the new key.
    have hother : ∀ name ∈ names, (name ∈ seen ++ [key] ↔ name ∈ seen) := by
      intro name hmem
      rw [List.mem_append, List.mem_singleton, or_iff_left (ne_of_not_name hname name hmem)]
    rw [member_other _ value key hname, Option.some.injEq] at h
    subst h
    refine ⟨⟨?_, ?_, ?_⟩, fun hmem => absurd hmem hname⟩
    · rw [hother "n_estimators" (by decide)]
      exact hm.estimators
    · rw [hother "max_depth" (by decide)]
      exact hm.maxDepth
    · rw [hother "random_state" (by decide)]
      exact hm.seed

/-! ## All members -/

/-- Another key repeats no parameter exactly if it names none that was named before. -/
theorem nodup_parameterKeys_concat (seen : List String) (key : String) :
    (parameterKeys (seen ++ [key])).Nodup ↔
      (parameterKeys seen).Nodup ∧ (key ∈ names → key ∉ seen) := by
  by_cases hname : key ∈ names
  · have hlast : parameterKeys [key] = [key] := List.filter_cons_of_pos (decide_eq_true hname)
    have hseen : key ∈ parameterKeys seen ↔ key ∈ seen := by
      rw [parameterKeys, List.mem_filter, decide_eq_true_iff, and_iff_left hname]
    rw [parameterKeys, List.filter_append, ← parameterKeys, ← parameterKeys, hlast,
      ← List.concat_eq_append, List.nodup_concat, hseen, and_comm]
    exact and_congr_right fun _ => ⟨fun h _ => h, fun h => h hname⟩
  · have hlast : parameterKeys [key] = [] :=
      List.filter_cons_of_neg fun h => hname (of_decide_eq_true h)
    rw [parameterKeys, List.filter_append, ← parameterKeys, ← parameterKeys, hlast,
      List.append_nil, and_iff_left fun h => absurd h hname]

/-- Members that are worth what the parameters have are all taken, if none of these is named
    twice. -/
theorem Members.foldlM_named {p : HyperParameters} {entries : List (String × Json)}
    (h : ∀ entry ∈ entries, p.Carries entry) (seen : List String)
    (hnodup : (parameterKeys (seen ++ entries.map Prod.fst)).Nodup) :
    entries.foldlM (fun found entry => found.member entry.1 entry.2) (Members.named p seen)
      = some (Members.named p (seen ++ entries.map Prod.fst)) := by
  -- What has come by is always that of the keys seen so far, so the induction moves one key
  -- after the other from the entries to `seen`.
  induction entries generalizing seen with
  | nil =>
      rw [List.map_nil, List.append_nil]
      rfl
  | cons entry rest ih =>
      rw [List.forall_mem_cons] at h
      have hkeys : seen ++ (entry :: rest).map Prod.fst
          = (seen ++ [entry.1]) ++ rest.map Prod.fst := by
        rw [List.map_cons, List.append_assoc, List.singleton_append]
      rw [hkeys] at hnodup ⊢
      have hnew : (parameterKeys (seen ++ [entry.1])).Nodup := by
        rw [parameterKeys, List.filter_append] at hnodup
        exact hnodup.of_append_left
      rw [List.foldlM_cons, member_named h.1 ((nodup_parameterKeys_concat _ _).mp hnew).2]
      exact ih h.2 _ hnodup

/-- Members that are all taken name no parameter twice. -/
theorem Members.Met.nodup {m m' : Members} {seen : List String} {entries : List (String × Json)}
    (hm : m.Met seen) (hseen : (parameterKeys seen).Nodup)
    (h : entries.foldlM (fun found entry => found.member entry.1 entry.2) m = some m') :
    (parameterKeys (seen ++ entries.map Prod.fst)).Nodup := by
  induction entries generalizing m seen with
  | nil =>
      rw [List.map_nil, List.append_nil]
      exact hseen
  | cons entry rest ih =>
      rw [List.foldlM_cons] at h
      rcases Option.bind_eq_some_iff.mp h with ⟨next, hnext, hrest⟩
      rcases hm.member hnext with ⟨hmet, hnew⟩
      have hnodup := ih hmet ((nodup_parameterKeys_concat _ _).mpr ⟨hseen, hnew⟩) hrest
      rwa [List.append_assoc, List.singleton_append] at hnodup

theorem ofJson?_object (entries : List (String × Json)) :
    ofJson? (.object entries)
      = (entries.foldlM (fun (found : Members) entry => found.member entry.1 entry.2)
          Members.none).map Members.complete := rfl

/-- An object of members that are worth what the parameters have is read as these. -/
theorem ofJson?_of_carries {p : HyperParameters} {entries : List (String × Json)}
    (h : ∀ entry ∈ entries, p.Carries entry)
    (hnodup : (parameterKeys (entries.map Prod.fst)).Nodup) :
    ofJson? (.object entries) = some (p.restrict (entries.map Prod.fst)) := by
  have hfold := Members.foldlM_named h [] hnodup
  rw [List.nil_append] at hfold
  rw [ofJson?_object, ← Members.complete_named, ← Option.map_some, ← hfold]
  rfl

/-- An object that names a parameter twice is refused. -/
theorem ofJson?_of_repeated {entries : List (String × Json)}
    (h : ¬ (parameterKeys (entries.map Prod.fst)).Nodup) : ofJson? (.object entries) = none := by
  rw [ofJson?_object, Option.map_eq_none_iff, Option.eq_none_iff_forall_ne_some]
  exact fun m hm => h (Members.met_none.nodup List.nodup_nil hm)

/-! ## Values -/

/-- The digits of a count are worth it. -/
theorem toCount?_ofNat (n : UInt64) : (Json.ofNat n.toNat).toCount? = some n := by
  have hall : (NumberFormat.digitsOf n.toNat).all Char.isDigit = true :=
    List.all_eq_true.mpr (isDigit_of_mem_digitsOf _)
  have hsome : (!(NumberFormat.digitsOf n.toNat).isEmpty) = true := by
    rw [Bool.not_eq_true', List.isEmpty_eq_false_iff]
    exact digitsOf_ne_nil _
  have hrange : decide (n.toNat < Nat.pow 2 64) = true := decide_eq_true n.toNat_lt
  simp only [Json.ofNat, Json.toCount?, Json.count?, String.toList_ofList, natOfDigits_digitsOf,
    hall, hsome, hrange, Bool.and_self, if_true, UInt64.ofNat_toNat]

theorem toOptionalCount?_ofOption (o : Option UInt64) :
    (Json.ofOption (fun n => .ofNat n.toNat) o).toOptionalCount? = some o := by
  cases o with
  | none => rfl
  | some n => exact congrArg (Option.map some) (toCount?_ofNat n)

section Carries

variable (p : HyperParameters)

theorem carries_estimators : p.Carries ("n_estimators", .ofNat p.estimators.toNat) where
  estimators _ := toCount?_ofNat p.estimators
  maxDepth (h : "n_estimators" = "max_depth") := absurd h (by decide)
  seed (h : "n_estimators" = "random_state") := absurd h (by decide)

theorem carries_maxDepth :
    p.Carries ("max_depth", .ofOption (fun d => .ofNat d.toNat) p.maxDepth) where
  estimators (h : "max_depth" = "n_estimators") := absurd h (by decide)
  maxDepth _ := toOptionalCount?_ofOption p.maxDepth
  seed (h : "max_depth" = "random_state") := absurd h (by decide)

theorem carries_seed :
    p.Carries ("random_state", .ofOption (fun s => .ofNat s.toNat) p.seed) where
  estimators (h : "random_state" = "n_estimators") := absurd h (by decide)
  maxDepth (h : "random_state" = "max_depth") := absurd h (by decide)
  seed _ := toOptionalCount?_ofOption p.seed

/-- A member of any other name may be worth anything. -/
theorem carries_other (entry : String × Json) (h : entry.1 ∉ names) : p.Carries entry where
  estimators hkey := absurd hkey.symm (ne_of_not_name h "n_estimators" (by decide))
  maxDepth hkey := absurd hkey.symm (ne_of_not_name h "max_depth" (by decide))
  seed hkey := absurd hkey.symm (ne_of_not_name h "random_state" (by decide))

end Carries

/-- The object that parameters are written as is read as them. -/
theorem ofJson?_toJson (p : HyperParameters) : ofJson? p.toJson = some p := by
  have hnames : (parameterKeys names).Nodup := by decide
  have hall : p.restrict names = p := rfl
  have hcarries : ∀ entry ∈ [("n_estimators", Json.ofNat p.estimators.toNat),
      ("max_depth", .ofOption (fun d => .ofNat d.toNat) p.maxDepth),
      ("random_state", .ofOption (fun s => .ofNat s.toNat) p.seed)], p.Carries entry := by
    simp only [List.forall_mem_cons]
    exact ⟨p.carries_estimators, p.carries_maxDepth, p.carries_seed, nofun⟩
  exact (ofJson?_of_carries hcarries hnames).trans (congrArg some hall)

theorem countText_eq (n : UInt64) : countText n = NumberFormat.digitsOf n.toNat := by
  rw [countText, Nat.toString_eq_ofList_toDigits, String.toList_ofList, NumberFormat.digitsOf]

theorem reads_countText (n : UInt64) : Json.Reads (countText n) (.ofNat n.toNat) := by
  rw [countText_eq]
  exact Json.reads_number (Json.isNumeral_digitsOf n.toNat)

theorem reads_optionalText (o : Option UInt64) :
    Json.Reads (optionalText o) (.ofOption (fun n => .ofNat n.toNat) o) := by
  cases o with
  | none => exact Json.reads_word rfl fun _ _ => rfl
  | some n => exact reads_countText n

/-- The text of a value of the parameters is the text of a value. -/
theorem valueText_optionalText (o : Option UInt64) : Json.ValueText (optionalText o) := by
  cases o with
  | none => exact .word _ List.mem_cons_self
  | some n =>
      have hnumber := Json.NumberText.parts false _ [] [] (Json.isWhole_digitsOf n.toNat)
        .absent .absent
      rw [List.append_nil, List.append_nil, ← countText_eq] at hnumber
      exact .number _ hnumber

/-- A member that is written as the parameters are is worth what they have. -/
theorem Writes.exists_carries {p : HyperParameters} {member : String × List Char}
    (h : p.Writes member) (hvalue : Json.ValueText member.2) :
    ∃ entry, p.Carries entry ∧ Json.ReadsEntry member entry := by
  rcases member with ⟨key, text⟩
  by_cases hname : key ∈ names
  · simp only [names, List.mem_cons, List.not_mem_nil, or_false] at hname
    rcases hname with rfl | rfl | rfl
    · obtain rfl : text = _ := h.estimators rfl
      exact ⟨_, p.carries_estimators, rfl, reads_countText p.estimators⟩
    · obtain rfl : text = _ := h.maxDepth rfl
      exact ⟨_, p.carries_maxDepth, rfl, reads_optionalText p.maxDepth⟩
    · obtain rfl : text = _ := h.seed rfl
      exact ⟨_, p.carries_seed, rfl, reads_optionalText p.seed⟩
  · -- Any value will do here, but there has to be one, or the text would be refused.
    rcases hvalue.reads with ⟨j, hj⟩
    exact ⟨(key, j), p.carries_other (key, j) hname, rfl, hj⟩

/-- An object that repeats no parameter and is written as the parameters are gives them as far
    as it names them. -/
theorem parse?_of_writes {p : HyperParameters} {members : List (String × List Char)}
    {text : String} (h : Json.ObjectText members text.toList)
    (hmembers : ∀ member ∈ members, p.Writes member)
    (hnodup : (parameterKeys (members.map Prod.fst)).Nodup) :
    parse? text = some (p.restrict (members.map Prod.fst)) := by
  have hentry : ∀ member ∈ members, ∃ entry, p.Carries entry ∧ Json.ReadsEntry member entry :=
    fun member hmember => (hmembers member hmember).exists_carries (h.values member hmember)
  rcases Json.exists_forall₂ members hentry with ⟨entries, hentries⟩
  -- The relation is split with the entries first, since that is how the library states it.
  have hswapped : List.Forall₂
      (fun entry member => p.Carries entry ∧ Json.ReadsEntry member entry) entries members :=
    hentries.flip
  have hcarries := ((List.forall₂_and_left _ _).mp hswapped).1
  have hread := hentries.imp fun _ _ h => h.2
  rw [← Json.keys_of_readsEntry hread] at hnodup ⊢
  rw [parse?, Json.parse?_of_objectText h hread, Option.bind_some,
    ofJson?_of_carries hcarries hnodup]

/-- An object that repeats a parameter is refused. -/
theorem parse?_of_repeated {members : List (String × List Char)}
    {text : String} (h : Json.ObjectText members text.toList)
    (hrepeated : ¬ (parameterKeys (members.map Prod.fst)).Nodup) : parse? text = none := by
  have hentry : ∀ member ∈ members, ∃ entry, Json.ReadsEntry member entry := by
    intro member hmember
    rcases (h.values member hmember).reads with ⟨j, hj⟩
    exact ⟨(member.1, j), rfl, hj⟩
  rcases Json.exists_forall₂ members hentry with ⟨entries, hread⟩
  rw [← Json.keys_of_readsEntry hread] at hrepeated
  rw [parse?, Json.parse?_of_objectText h hread, Option.bind_some,
    ofJson?_of_repeated hrepeated]

end HyperParameters

/-- The text that parameters are written as is read as these parameters, on one line or several.
    More generally, take any text of an object, with any white space between the tokens, the
    members in any order, and values of any kind for keys that name no parameter, which may also
    repeat. If the members that name a parameter are written as the parameters are, and none is
    named twice, what is read is the parameters as far as they are named and the default for the
    others. If one is named twice, the text is refused, whatever the values are. -/
theorem parameters_read_back :
    (∀ p : HyperParameters, HyperParameters.parse? p.text = some p ∧
      HyperParameters.parse? p.toJson.pretty = some p) ∧
    ∀ (members : List (String × List Char)) (text : String),
      Json.ObjectText members text.toList →
        (∀ p : HyperParameters, (∀ member ∈ members, p.Writes member) →
          (parameterKeys (members.map Prod.fst)).Nodup →
            HyperParameters.parse? text = some (p.restrict (members.map Prod.fst))) ∧
        (¬ (parameterKeys (members.map Prod.fst)).Nodup →
          HyperParameters.parse? text = none) := by
  refine ⟨fun p => ?_, fun members text h =>
    ⟨fun p => HyperParameters.parse?_of_writes h, HyperParameters.parse?_of_repeated h⟩⟩
  have hread : ∀ layout, HyperParameters.parse? (String.ofList (p.toJson.write layout 0))
      = some p := by
    intro layout
    rw [HyperParameters.parse?, Json.parse?_write layout p.toJson p.fits.writable,
      Option.bind_some, HyperParameters.ofJson?_toJson]
  exact ⟨hread .compact, hread .pretty⟩

/-- A list with a brace in a string and a number in an object. -/
def nestedText : List Char :=
  "[\"\x7d\", \x7b\"b\":-1.5e3\x7d]".toList

theorem valueText_nestedText : Json.ValueText nestedText := by
  have hbrace : Json.ValueText "\"\x7d\"".toList :=
    .string ['}'] (Json.spelling_self _ (by decide)).quoted
  have hone : Json.IsWhole ['1'] := ⟨List.all_eq_true.mp rfl, nofun, .inr (by decide)⟩
  have hnumber : Json.ValueText "-1.5e3".toList :=
    .number _ (.parts true ['1'] ['.', '5'] ['e', '3'] hone
      (.point ['5'] ⟨List.all_eq_true.mp rfl, nofun⟩)
      (.marked 'e' [] ['3'] (by decide) (by decide) ⟨List.all_eq_true.mp rfl, nofun⟩))
  have hobject : Json.ValueText "\x7b\"b\":-1.5e3\x7d".toList :=
    .object [⟨['b'], [], [], "-1.5e3".toList, by decide, by decide⟩] _
      (.pieces _ _ (.last [] _ [] (by decide) (by decide)))
      (List.forall_mem_singleton.mpr (Json.spelling_self _ (by decide)).quoted)
      (List.forall_mem_singleton.mpr hnumber)
  exact .array ["\"\x7d\"".toList, "\x7b\"b\":-1.5e3\x7d".toList] _
    (.pieces _ _ (.piece [] _ [] _ _ (by decide) (by decide)
      (.last [' '] _ [] (by decide) (by decide))))
    (List.forall_mem_cons.mpr ⟨hbrace, List.forall_mem_singleton.mpr hobject⟩)

/-- Notes, one of them with an escape in its key, and a parameter between them. -/
def notedMembers : List (String × List Char) :=
  [("notes", nestedText), ("random_state", HyperParameters.optionalText (some 7)),
    ("notes", HyperParameters.optionalText none)]

def notedText : String :=
  "\x7b \"no\\u0074es\" : [\"\x7d\", \x7b\"b\":-1.5e3\x7d],\n\"random_state\":7 ,\"notes\":null\x7d"

theorem objectText_notedText : Json.ObjectText notedMembers notedText.toList := by
  have hescaped : Json.Spelling "no\\u0074es".toList "notes".toList :=
    .plain 'n' _ _ (by decide) (.plain 'o' _ _ (by decide)
      (.code ['\\', 'u', '0', '0', '7', '4'] 't' _ _
        (.digits '0' '0' '7' '4' 0 0 7 4 (by decide) (by decide) (by decide) (by decide))
        (Json.spelling_self _ (by decide))))
  have hvalues : ∀ member ∈ notedMembers, Json.ValueText member.2 :=
    List.forall_mem_cons.mpr ⟨valueText_nestedText, List.forall_mem_cons.mpr
      ⟨HyperParameters.valueText_optionalText (some 7), List.forall_mem_singleton.mpr
        (HyperParameters.valueText_optionalText none)⟩⟩
  exact .object [] [] _
    [⟨"no\\u0074es".toList, [' '], [' '], nestedText, by decide, by decide⟩,
      ⟨"random_state".toList, [], [], ['7'], by decide, by decide⟩,
      ⟨"notes".toList, [], [], "null".toList, by decide, by decide⟩]
    (by decide) (by decide)
    (.pieces _ _ (.piece [' '] _ [] _ _ (by decide) (by decide)
      (.piece ['\n'] _ [' '] _ _ (by decide) (by decide)
        (.last [] _ [] (by decide) (by decide)))))
    (.cons ⟨hescaped, rfl⟩ (.cons ⟨Json.spelling_self _ (by decide), rfl⟩
      (.cons ⟨Json.spelling_self _ (by decide), rfl⟩ .nil)))
    hvalues

/-- The same parameter with two values. -/
def repeatedMembers : List (String × List Char) :=
  [("max_depth", HyperParameters.optionalText (some 5)),
    ("max_depth", HyperParameters.optionalText none)]

def repeatedText : String :=
  "\x7b\"max_depth\":5,\"max_depth\":null\x7d"

theorem objectText_repeatedText : Json.ObjectText repeatedMembers repeatedText.toList := by
  have hvalues : ∀ member ∈ repeatedMembers, Json.ValueText member.2 :=
    List.forall_mem_cons.mpr ⟨HyperParameters.valueText_optionalText (some 5),
      List.forall_mem_singleton.mpr (HyperParameters.valueText_optionalText none)⟩
  exact .object [] [] _
    [⟨"max_depth".toList, [], [], ['5'], by decide, by decide⟩,
      ⟨"max_depth".toList, [], [], "null".toList, by decide, by decide⟩]
    (by decide) (by decide)
    (.pieces _ _ (.piece [] _ [] _ _ (by decide) (by decide)
      (.last [] _ [] (by decide) (by decide))))
    (.cons ⟨Json.spelling_self _ (by decide), rfl⟩
      (.cons ⟨Json.spelling_self _ (by decide), rfl⟩ .nil))
    hvalues

theorem parameters_read_back_noted :
    (Json.ObjectText notedMembers notedText.toList ∧
      HyperParameters.parse? notedText = some ⟨100, none, some 7⟩) ∧
    Json.ObjectText repeatedMembers repeatedText.toList ∧
      HyperParameters.parse? repeatedText = none := by
  have hwrites : ∀ member ∈ notedMembers,
      (⟨10, some 5, some 7⟩ : HyperParameters).Writes member := by
    simp only [notedMembers, List.forall_mem_cons]
    refine ⟨⟨?_, ?_, ?_⟩, ⟨?_, ?_, ?_⟩, ⟨?_, ?_, ?_⟩, nofun⟩ <;> decide
  exact ⟨⟨objectText_notedText,
      (parameters_read_back.2 _ _ objectText_notedText).1 ⟨10, some 5, some 7⟩ hwrites
        (by decide)⟩,
    objectText_repeatedText, (parameters_read_back.2 _ _ objectText_repeatedText).2 (by decide)⟩

end CommitRisk
