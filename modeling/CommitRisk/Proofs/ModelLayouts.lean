import CommitRisk.Archive.Model
import CommitRisk.Proofs.Layouts

/-!
# Models Are Read Back

The layout of a model whose counts fit is read back as that model. There is one
statement for every kind of part, from the trees up, and each is put together
from those of its own parts.

A tree is read with the number of bytes that are left as the bound on its depth.
That is enough, because every question and every leaf takes some of them.

## Theorems

* `depth_lt_encodeTree`: A tree has a longer layout than it is deep.
* `takeTree_restores`: Trees.
* `takeForest_restores`: Forests.
* `takeModel_restores`: Models.
-/

namespace CommitRisk

theorem fitsWord_iff (n : Nat) : fitsWord n = true ↔ n < 2 ^ 64 := by
  rw [fitsWord, decide_eq_true_iff]
  rfl

theorem takeCounts_restores (xs : List Nat) (h : xs.all fitsWord = true) :
    Restores (takeList takeCount) xs (encodeList encodeCount xs) := by
  rw [List.all_eq_true] at h
  refine takeList_restores takeCount encodeCount xs (fun n hn => ?_) fun n _ => ?_
  · exact takeCount_restores n ((fitsWord_iff n).mp (h n hn))
  · rw [encodeCount_length]
    omega

theorem depth_lt_encodeTree (t : Tree) : t.depth < (encodeTree t).length := by
  induction t with
  | leaf cls count =>
      rw [encodeTree, List.length_append, encodeCount_length, Tree.depth]
      omega
  | split feature threshold left right ihleft ihright =>
      rw [encodeTree, List.length_append, List.length_append, List.length_append,
        List.length_append, encodeCount_length, Tree.depth]
      omega

/-- Any bound that is larger than the depth of a tree is enough to read it. -/
theorem takeTreeWithin_restores (t : Tree) (hfits : t.fits = true) (fuel : Nat)
    (hdepth : t.depth < fuel) : Restores (takeTreeWithin fuel) t (encodeTree t) := by
  induction t generalizing fuel with
  | leaf cls count =>
      rw [Tree.fits, Bool.and_eq_true, fitsWord_iff, fitsWord_iff] at hfits
      -- A bound above the depth is not zero, so there is one step to take.
      obtain ⟨fuel, rfl⟩ := Nat.exists_eq_succ_of_ne_zero (Nat.ne_zero_of_lt hdepth)
      rw [encodeTree, List.append_assoc]
      refine (takeNat_restores 4 1 (by decide)).bind ?_
      refine (takeCount_restores cls hfits.1).bind ?_
      exact (takeCount_restores count hfits.2).result (Tree.leaf cls)
  | split feature threshold left right ihleft ihright =>
      rw [Tree.fits, Bool.and_eq_true, Bool.and_eq_true, fitsWord_iff] at hfits
      obtain ⟨fuel, rfl⟩ := Nat.exists_eq_succ_of_ne_zero (Nat.ne_zero_of_lt hdepth)
      rw [Tree.depth] at hdepth
      -- Both branches are less deep, so one less is enough for them.
      have hleft := ihleft hfits.1.2 fuel (by omega)
      have hright := ihright hfits.2 fuel (by omega)
      rw [encodeTree, List.append_assoc, List.append_assoc, List.append_assoc]
      refine (takeNat_restores 4 0 (by decide)).bind ?_
      refine (takeCount_restores feature hfits.1.1).bind ?_
      refine (takeFloat32_restores threshold).bind ?_
      exact hleft.bind (hright.result (Tree.split feature threshold left))

theorem takeTree_restores (t : Tree) (hfits : t.fits = true) :
    Restores takeTree t (encodeTree t) := by
  intro hsize rest
  -- The bytes that are left bound the depth, because they include the tree's own.
  refine takeTreeWithin_restores t hfits _ ?_ hsize rest
  have hdepth := depth_lt_encodeTree t
  rw [List.length_append]
  omega

theorem takeDecisionTree_restores (t : DecisionTree) (hfits : t.fits = true) :
    Restores takeDecisionTree t (encodeDecisionTree t) := by
  rw [DecisionTree.fits, Bool.and_eq_true, Option.all_eq_true, Option.all_eq_true] at hfits
  have hroot := takeOption_restores takeTree encodeTree t.root fun root h =>
    takeTree_restores root (hfits.1 root h)
  have hdepth := takeOption_restores takeWord encodeWord t.maxDepth fun n _ =>
    takeWord_restores n
  have hwidth := takeOption_restores takeCount encodeCount t.width fun n h =>
    takeCount_restores n ((fitsWord_iff n).mp (hfits.2 n h))
  rw [encodeDecisionTree, List.append_assoc]
  exact hroot.bind (hdepth.bind (hwidth.result (DecisionTree.mk t.root t.maxDepth)))

theorem takeParams_restores (p : HyperParameters) :
    Restores takeParams p (encodeParams p) := by
  have hdepth := takeOption_restores takeWord encodeWord p.maxDepth fun n _ =>
    takeWord_restores n
  have hseed := takeOption_restores takeWord encodeWord p.seed fun n _ => takeWord_restores n
  rw [encodeParams, List.append_assoc]
  exact (takeWord_restores p.estimators).bind
    (hdepth.bind (hseed.result (HyperParameters.mk p.estimators p.maxDepth)))

theorem takeMatrix_restores (m : Matrix) (hfits : m.fits = true) :
    Restores takeMatrix m (encodeMatrix m) := by
  rw [Matrix.fits, Bool.and_eq_true, fitsWord_iff, fitsWord_iff] at hfits
  have hcells := takeList_restores takeFloat32 encodeFloat32 m.cells
    (fun x _ => takeFloat32_restores x) fun x _ => by
      rw [encodeFloat32, lowFirst_length]
      omega
  rw [encodeMatrix, List.append_assoc]
  exact hcells.bind ((takeCount_restores m.rows hfits.1).bind
    ((takeCount_restores m.columns hfits.2).result (Matrix.mk m.cells m.rows)))

/-- Every count of an ensemble fits eight bytes. -/
structure Ensemble.Fits (e : Ensemble) : Prop where
  trees : e.trees.all DecisionTree.fits = true
  outOfBag : (e.outOfBag.all fun rows => rows.all fitsWord) = true
  samples : e.samples.all Matrix.fits = true
  labels : (e.labels.all fun labels => labels.all fitsWord) = true

theorem takeEnsemble_restores (e : Ensemble) (hfits : e.Fits) :
    Restores takeEnsemble e (encodeEnsemble e) := by
  -- Each list is read entry by entry, and no entry has an empty layout.
  have htrees := takeList_restores takeDecisionTree encodeDecisionTree e.trees
    (fun t ht => takeDecisionTree_restores t (List.all_eq_true.mp hfits.trees t ht)) fun t _ => by
      have hroot := encodeOption_length_pos encodeTree t.root
      rw [encodeDecisionTree, List.length_append, List.length_append]
      omega
  have hbag := takeList_restores (takeList takeCount) (encodeList encodeCount) e.outOfBag
    (fun rows h => takeCounts_restores rows (List.all_eq_true.mp hfits.outOfBag rows h))
    fun rows _ => by
      rw [encodeList, List.length_append, encodeCount_length]
      omega
  have hsamples := takeOption_restores takeMatrix encodeMatrix e.samples fun m h =>
    takeMatrix_restores m ((Option.all_eq_true _ _).mp hfits.samples m h)
  have hlabels := takeOption_restores (takeList takeCount) (encodeList encodeCount) e.labels
    fun labels h => takeCounts_restores labels ((Option.all_eq_true _ _).mp hfits.labels labels h)
  rw [encodeEnsemble, List.append_assoc, List.append_assoc, List.append_assoc]
  exact htrees.bind ((takeParams_restores e.params).bind (hbag.bind (hsamples.bind
    (hlabels.result (Ensemble.mk e.trees e.params e.outOfBag e.samples)))))

theorem takeForest_restores (f : Forest) (hfits : f.ensemble.Fits) (hwidth : f.width < 2 ^ 64) :
    Restores takeForest f (encodeForest f) := by
  have hweights := takeList_restores takeFloat encodeFloat f.importances
    (fun x _ => takeFloat_restores x) fun x _ => by
      rw [encodeFloat, lowFirst_length]
      omega
  rw [encodeForest, List.append_assoc, List.append_assoc]
  exact (takeEnsemble_restores f.ensemble hfits).bind ((takeCount_restores f.width hwidth).bind
    ((takeParams_restores f.params).bind
      (hweights.result (Forest.mk f.ensemble f.width f.params))))

theorem takeNote_restores (n : ModelNote) (hfits : n.samples < 2 ^ 64) :
    Restores takeNote n (encodeNote n) := by
  have hdescription := takeOption_restores takeText encodeText n.description fun s _ =>
    takeText_restores s
  rw [encodeNote, List.append_assoc, List.append_assoc]
  exact (takeText_restores n.version).bind ((takeText_restores n.trainedAt).bind
    ((takeCount_restores n.samples hfits).bind
      (hdescription.result (ModelNote.mk n.version n.trainedAt n.samples))))

/-- What it means for a model to fit, part by part. -/
theorem PortableModel.fits_iff (m : PortableModel) : m.fits = true ↔
    m.forest.ensemble.Fits ∧ m.forest.width < 2 ^ 64 ∧ m.note.samples < 2 ^ 64 := by
  rw [PortableModel.fits, ← fitsWord_iff, ← fitsWord_iff]
  simp only [Bool.and_eq_true]
  constructor
  · rintro ⟨⟨⟨⟨⟨htrees, hbag⟩, hsamples⟩, hlabels⟩, hwidth⟩, hrows⟩
    exact ⟨⟨htrees, hbag, hsamples, hlabels⟩, hwidth, hrows⟩
  · rintro ⟨⟨htrees, hbag, hsamples, hlabels⟩, hwidth, hrows⟩
    exact ⟨⟨⟨⟨⟨htrees, hbag⟩, hsamples⟩, hlabels⟩, hwidth⟩, hrows⟩

/-- A model whose counts fit is read back from its layout. -/
theorem takeModel_restores (m : PortableModel) (hfits : m.fits = true) :
    Restores takeModel m (encodeModel m) := by
  -- Names and texts carry their lengths, so only the counts have to fit.
  rcases m.fits_iff.mp hfits with ⟨hensemble, hwidth, hrows⟩
  have hnames := takeList_restores takeText encodeText m.names
    (fun s _ => takeText_restores s) fun s _ => by
      rw [encodeText_length]
      omega
  rw [encodeModel, List.append_assoc]
  exact hnames.bind ((takeForest_restores m.forest hensemble hwidth).bind
    ((takeNote_restores m.note hrows).result (PortableModel.mk m.names m.forest)))

end CommitRisk
