import CommitRisk.Proofs.Batches
import CommitRisk.Proofs.Stages

/-!
# What Becomes of a Saved Model

A model that could be saved is loaded from the same path as it was: its names, every
tree down to the leaves, all parameters, the rows it was trained with and its note. So
it scores every row as before.

Two things stand in the way. A forest that is not fitted can be saved and not loaded.
And the header has room for the size of a payload of nearly four gibibytes, while the
reader refuses what is said to unpack to more than one, lest a small file fill the
memory. A model between these two sizes is saved without complaint, and loading it
fails.

## Main definitions

* `heavyModel`: A model of any size.

## Theorems

* `modelOfPayload_of_large`: A payload above the limit of the reader.
* `saveModel_empty`: Saving into a tree without entries.
* `loadModel_saveModel`: A model that was saved and fits the header.
* `saved_heavyModel_not_loaded`: A model that is saved and cannot be loaded.
-/

namespace CommitRisk

/-- A payload whose size is noted as it is, but is above the limit of the reader. -/
theorem modelOfPayload_of_large (payload : List UInt8) (hlarge : 2 ^ 30 < payload.length)
    (hnoted : payload.length < 2 ^ 32) :
    modelOfPayload payload = .error (.tooLarge payload.length) := by
  simp only [modelOfPayload, Nat.mod_eq_of_lt hnoted]
  exact if_pos hlarge

/-- Into a tree without entries any model whose counts fit can be saved. -/
theorem saveModel_empty (createdAt : String) (label : ArchiveLabel) (m : PortableModel)
    (hfits : m.fits = true) :
    saveModel .empty "m.apr" createdAt label m
      = (.ok (), Files.empty.put ["m.apr"] (.file (writeArchive createdAt label m))) := by
  have hparent : makeParent .empty "m.apr" = (.ok (), .empty) := by rfl
  have htarget : Files.empty.target "m.apr" = .ok ["m.apr"] := by decide +kernel
  simp only [saveModel, hparent, hfits, if_true, Files.write_eq, htarget, Except.map]

/-- A model that was saved, with a description and a payload whose sizes the header has
    room for. Up to the limit of the reader it is loaded as it was if its forest is
    fitted, and otherwise refused for that. Above the limit it is refused for its size. -/
theorem loadModel_saveModel (files left : Files) (path createdAt : String) (label : ArchiveLabel)
    (m : PortableModel) (hlabel : (describeArchive createdAt label).length < 2 ^ 32)
    (hpayload : (encodeModel m).length < 2 ^ 32)
    (hsave : saveModel files path createdAt label m = (.ok (), left)) :
    loadModel left path
      = if 2 ^ 30 < (encodeModel m).length then
          .error (.load (.tooLarge (encodeModel m).length))
        else if m.forest.isFitted then .ok m
        else .error (.load .notFitted) := by
  rcases readArchive_of_saveModel files left path createdAt label m hsave with ⟨hfits, _, hload⟩
  -- Whether the archive can be read is a matter of its payload.
  rw [hload, readArchive_writeArchive createdAt label m hlabel]
  by_cases hlarge : 2 ^ 30 < (encodeModel m).length
  · rw [if_pos hlarge, modelOfPayload_of_large _ hlarge hpayload]
    rfl
  · rw [if_neg hlarge, modelOfPayload_encodeModel m hfits (Nat.le_of_not_lt hlarge)]
    split <;> rfl

theorem loadModel_saved_stump :
    ∃ left, saveModel .empty "m.apr" "1700000000" ⟨some "stump", none⟩ stump = (.ok (), left) ∧
      (describeArchive "1700000000" ⟨some "stump", none⟩).length < 2 ^ 32 ∧
      (encodeModel stump).length < 2 ^ 32 ∧ loadModel left "m.apr" = .ok stump := by
  have hsave := saveModel_empty "1700000000" ⟨some "stump", none⟩ stump (by decide)
  have hlabel : (describeArchive "1700000000" ⟨some "stump", none⟩).length < 2 ^ 32 := by
    decide +kernel
  have hpayload : (encodeModel stump).length < 2 ^ 30 := by decide +kernel
  refine ⟨_, hsave, hlabel, Nat.lt_trans hpayload (by decide), ?_⟩
  rw [loadModel_saveModel .empty _ "m.apr" "1700000000" ⟨some "stump", none⟩ stump hlabel
    (Nat.lt_trans hpayload (by decide)) hsave, if_neg (Nat.lt_asymm hpayload), if_pos (by decide)]

/-- The stump with so many importances, none of which matters. -/
def heavyModel (n : Nat) : PortableModel :=
  { stump with forest := { stump.forest with importances := List.replicate n 0.0 } }

theorem fits_heavyModel (n : Nat) : (heavyModel n).fits = true := rfl

theorem isFitted_heavyModel (n : Nat) : (heavyModel n).forest.isFitted = true := rfl

/-- Every importance takes eight bytes. -/
theorem encode_heavyModel_length (n : Nat) : (encodeModel (heavyModel n)).length = 8 * n + 277 := by
  have hweights : ∀ k, (encodeList encodeFloat (List.replicate k 0.0)).length = 8 + 8 * k := by
    intro k
    rw [encodeList, List.length_append, encodeCount_length, List.length_flatMap,
      List.map_replicate, List.sum_replicate_nat, encodeFloat, lowFirst_length, Nat.mul_comm]
  -- Nothing else depends on their number, so what is left is read off the model without any.
  have hrest : (encodeModel (heavyModel 0)).length = 277 := by decide +kernel
  simp only [encodeModel, encodeForest, heavyModel, List.length_append, hweights] at hrest ⊢
  omega

theorem saved_heavyModel_not_loaded :
    ∃ left, saveModel .empty "m.apr" "1700000000" ⟨none, none⟩ (heavyModel (2 ^ 27))
        = (.ok (), left) ∧
      (describeArchive "1700000000" ⟨none, none⟩).length < 2 ^ 32 ∧
      (encodeModel (heavyModel (2 ^ 27))).length < 2 ^ 32 ∧
      (heavyModel (2 ^ 27)).forest.isFitted = true ∧
      loadModel left "m.apr" ≠ .ok (heavyModel (2 ^ 27)) := by
  have hlabel : (describeArchive "1700000000" ⟨none, none⟩).length < 2 ^ 32 := by decide +kernel
  have hfits : (heavyModel (2 ^ 27)).fits = true := fits_heavyModel _
  have hfitted : (heavyModel (2 ^ 27)).forest.isFitted = true := isFitted_heavyModel _
  have hsize := encode_heavyModel_length (2 ^ 27)
  -- From here on only the size of the model matters, and not what is in it.
  generalize heavyModel (2 ^ 27) = m at hfits hfitted hsize ⊢
  have hsave := saveModel_empty "1700000000" ⟨none, none⟩ m hfits
  refine ⟨_, hsave, hlabel, by omega, hfitted, ?_⟩
  rw [(readArchive_of_saveModel .empty _ "m.apr" "1700000000" ⟨none, none⟩ m hsave).2.2,
    readArchive_writeArchive "1700000000" ⟨none, none⟩ m hlabel,
    modelOfPayload_of_large _ (by omega) (by omega)]
  simp only [Except.mapError, ne_eq, reduceCtorEq, not_false_eq_true]

end CommitRisk
