import CommitRisk.Proofs.Archives

/-!
# Layouts That Are Cut Short

The front of a layout does not hold the whole value. A decoder never looks behind
what it reads, so what it reads from the front of some bytes it reads from all of
them too, and leaves what stands behind. If the front of a model's layout held a
model, reading the whole layout would find the same model and leave something behind;
but it leaves nothing.

This is what makes an archive safe whose payload is too large for its size to be
noted. The reader is given the front of the payload and refuses it, instead of
finding another model in it. So if anything is read from what was written, it is the
model that was written, whatever its size.

## Main definitions

* `ReadsOn`: What one decoder reads from some bytes another reads from more bytes.

## Theorems

* `ReadsOn.bind`: Decoders that run one after the other.
* `takeTreeWithin_readsOn`: Trees, under a bound on their depth that may grow.
* `takeModel_readsOn`: Models.
* `takeModel_cut`: Nothing is read from the front of a layout.
* `modelOfPayload_eq_ok`: What is read from a payload is the model in it.
-/

namespace CommitRisk

variable {α β : Type}

/-- What the first decoder reads from some bytes the second one reads from more bytes,
    and it leaves these behind the rest. -/
def ReadsOn (item item' : Decoder α) : Prop :=
  ∀ bytes x rest, item bytes = some (x, rest) →
    ∀ more, item' (bytes ++ more) = some (x, rest ++ more)

namespace ReadsOn

theorem bind {item item' : Decoder α} {next next' : α → Decoder β} (hitem : ReadsOn item item')
    (hnext : ∀ x, ReadsOn (next x) (next' x)) : ReadsOn (item >>= next) (item' >>= next') := by
  intro bytes y rest h more
  change (item bytes).bind (fun read => next read.1 read.2) = some (y, rest) at h
  change (item' (bytes ++ more)).bind (fun read => next' read.1 read.2) = _
  rcases Option.bind_eq_some_iff.mp h with ⟨⟨x, left⟩, hx, hy⟩
  rw [hitem bytes x left hx more]
  exact hnext x left y rest hy more

theorem pure (x : α) : ReadsOn (Pure.pure x : Decoder α) (Pure.pure x) := by
  intro bytes y rest h more
  cases h
  rfl

/-- A decoder that reads nothing has nothing to read on. -/
theorem failure (item : Decoder α) : ReadsOn (Alternative.failure : Decoder α) item := by
  intro bytes x rest h
  cases h

/-- Reading a value and putting it together with others. -/
theorem result {item item' : Decoder α} (hitem : ReadsOn item item') (f : α → β) :
    ReadsOn (item >>= fun read => Pure.pure (f read)) (item' >>= fun read => Pure.pure (f read)) :=
  hitem.bind fun x => .pure (f x)

end ReadsOn

theorem takeBytes_readsOn (count : Nat) : ReadsOn (takeBytes count) (takeBytes count) := by
  intro bytes x rest h more
  unfold takeBytes at h ⊢
  simp only [Option.ite_none_right_eq_some, Option.some.injEq, Prod.mk.injEq] at h
  rcases h with ⟨hlength, rfl, rfl⟩
  -- There are bytes enough without those that are added.
  have hcount : count ≤ bytes.length := by
    rw [List.length_take] at hlength
    omega
  simp only [List.take_append_of_le_length hcount, List.drop_append_of_le_length hcount, hlength,
    if_true]

theorem takeNat_readsOn (width : Nat) : ReadsOn (takeNat width) (takeNat width) :=
  (takeBytes_readsOn width).result natOfBytes

theorem takeCount_readsOn : ReadsOn takeCount takeCount :=
  takeNat_readsOn 8

theorem takeWord_readsOn : ReadsOn takeWord takeWord :=
  (takeNat_readsOn 8).result UInt64.ofNat

theorem takeFloat32_readsOn : ReadsOn takeFloat32 takeFloat32 :=
  (takeNat_readsOn 4).result fun n => Float32.ofBits (UInt32.ofNat n)

theorem takeFloat_readsOn : ReadsOn takeFloat takeFloat :=
  (takeNat_readsOn 8).result fun n => Float.ofBits (UInt64.ofNat n)

theorem takeText_readsOn : ReadsOn takeText takeText := by
  refine takeCount_readsOn.bind fun count => (takeBytes_readsOn count).bind fun bytes => ?_
  split
  · exact .pure _
  · exact .failure _

theorem takeOption_readsOn {item : Decoder α} (hitem : ReadsOn item item) :
    ReadsOn (takeOption item) (takeOption item) := by
  refine (takeNat_readsOn 1).bind fun tag => ?_
  split
  · exact .pure none
  · split
    · exact hitem.result some
    · exact .failure _

theorem takeMany_readsOn {item : Decoder α} (hitem : ReadsOn item item) (count : Nat) :
    ReadsOn (takeMany item count) (takeMany item count) := by
  induction count with
  | zero => exact .pure []
  | succ n ih => exact hitem.bind fun x => ih.result (x :: ·)

theorem takeList_readsOn {item : Decoder α} (hitem : ReadsOn item item) :
    ReadsOn (takeList item) (takeList item) :=
  takeCount_readsOn.bind fun count => takeMany_readsOn hitem count

/-- A larger bound on the depth does not change what is read. -/
theorem takeTreeWithin_readsOn (fuel fuel' : Nat) (hfuel : fuel ≤ fuel') :
    ReadsOn (takeTreeWithin fuel) (takeTreeWithin fuel') := by
  induction fuel generalizing fuel' with
  | zero => exact .failure _
  | succ fuel ih =>
      obtain ⟨fuel', rfl⟩ := Nat.exists_eq_succ_of_ne_zero (Nat.ne_zero_of_lt hfuel)
      have hbranch := ih fuel' (Nat.le_of_succ_le_succ hfuel)
      refine (takeNat_readsOn 4).bind fun tag => ?_
      split
      · refine takeCount_readsOn.bind fun feature => takeFloat32_readsOn.bind fun threshold => ?_
        exact hbranch.bind fun left => hbranch.result (Tree.split feature threshold left)
      · split
        · exact takeCount_readsOn.bind fun cls => takeCount_readsOn.result (Tree.leaf cls)
        · exact .failure _

theorem takeTree_readsOn : ReadsOn takeTree takeTree := by
  intro bytes t rest h more
  -- With more bytes the bound on the depth is larger too.
  refine takeTreeWithin_readsOn bytes.length _ ?_ bytes t rest h more
  rw [List.length_append]
  exact Nat.le_add_right _ _

theorem takeDecisionTree_readsOn : ReadsOn takeDecisionTree takeDecisionTree :=
  (takeOption_readsOn takeTree_readsOn).bind fun root =>
    (takeOption_readsOn takeWord_readsOn).bind fun maxDepth =>
      (takeOption_readsOn takeCount_readsOn).result (DecisionTree.mk root maxDepth)

theorem takeParams_readsOn : ReadsOn takeParams takeParams :=
  takeWord_readsOn.bind fun estimators =>
    (takeOption_readsOn takeWord_readsOn).bind fun maxDepth =>
      (takeOption_readsOn takeWord_readsOn).result (HyperParameters.mk estimators maxDepth)

theorem takeMatrix_readsOn : ReadsOn takeMatrix takeMatrix :=
  (takeList_readsOn takeFloat32_readsOn).bind fun cells =>
    takeCount_readsOn.bind fun rows => takeCount_readsOn.result (Matrix.mk cells rows)

theorem takeEnsemble_readsOn : ReadsOn takeEnsemble takeEnsemble :=
  (takeList_readsOn takeDecisionTree_readsOn).bind fun trees =>
    takeParams_readsOn.bind fun params =>
      (takeList_readsOn (takeList_readsOn takeCount_readsOn)).bind fun outOfBag =>
        (takeOption_readsOn takeMatrix_readsOn).bind fun samples =>
          (takeOption_readsOn (takeList_readsOn takeCount_readsOn)).result
            (Ensemble.mk trees params outOfBag samples)

theorem takeForest_readsOn : ReadsOn takeForest takeForest :=
  takeEnsemble_readsOn.bind fun ensemble => takeCount_readsOn.bind fun width =>
    takeParams_readsOn.bind fun params =>
      (takeList_readsOn takeFloat_readsOn).result (Forest.mk ensemble width params)

theorem takeNote_readsOn : ReadsOn takeNote takeNote :=
  takeText_readsOn.bind fun version => takeText_readsOn.bind fun trainedAt =>
    takeCount_readsOn.bind fun samples =>
      (takeOption_readsOn takeText_readsOn).result (ModelNote.mk version trainedAt samples)

theorem takeModel_readsOn : ReadsOn takeModel takeModel :=
  (takeList_readsOn takeText_readsOn).bind fun names => takeForest_readsOn.bind fun forest =>
    takeNote_readsOn.result (PortableModel.mk names forest)

/-- Nothing is read from the front of a layout that is cut short. -/
theorem takeModel_cut (m : PortableModel) (hfits : m.fits = true)
    (hsize : (encodeModel m).length < 2 ^ 64) (n : Nat) (hn : n < (encodeModel m).length) :
    takeModel ((encodeModel m).take n) = none := by
  cases hread : takeModel ((encodeModel m).take n) with
  | none => rfl
  | some result =>
      rcases result with ⟨m', rest⟩
      -- Reading on would leave what was cut off, but nothing is left of the whole.
      have hon := takeModel_readsOn _ m' rest hread ((encodeModel m).drop n)
      have hwhole := takeModel_restores m hfits hsize []
      rw [List.take_append_drop] at hon
      rw [List.append_nil, hon, Option.some.injEq, Prod.mk.injEq] at hwhole
      have hnone := congrArg List.length hwhole.2
      rw [List.length_append, List.length_drop, List.length_nil] at hnone
      omega

/-- A model that is read from a payload is the one that was written, and it can predict. -/
theorem modelOfPayload_eq_ok (m loaded : PortableModel) (hfits : m.fits = true)
    (hsize : (encodeModel m).length < 2 ^ 64) (h : modelOfPayload (encodeModel m) = .ok loaded) :
    loaded = m ∧ m.forest.isFitted = true := by
  by_cases hwhole : (encodeModel m).length ≤ 2 ^ 30
  · rw [modelOfPayload_encodeModel m hfits hwhole] at h
    by_cases hfit : m.forest.isFitted = true
    · rw [if_pos hfit, Except.ok.injEq] at h
      exact ⟨h.symm, hfit⟩
    · rw [if_neg hfit] at h
      cases h
  · unfold modelOfPayload at h
    by_cases hlarge : 2 ^ 30 < (encodeModel m).length % 2 ^ 32
    · simp only [hlarge, if_true, reduceCtorEq] at h
    · -- The size that is noted is smaller than the payload, so its end is cut off.
      have hcut : (encodeModel m).length % 2 ^ 32 < (encodeModel m).length := by
        have hmod := Nat.mod_le (encodeModel m).length (2 ^ 32)
        omega
      simp only [hlarge, if_false, takeModel_cut m hfits hsize _ hcut, reduceCtorEq] at h

end CommitRisk
