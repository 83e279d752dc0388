import CommitRisk.Steps
import Mathlib.Data.List.Forall2

/-!
# Lists of Checked Values

Many functions read a list entry by entry and stop at the first entry that is
refused. The statements here turn such a run into a fact about all entries, so
that a proof can go on with a plain list.

## Theorems

* `bind_isOk`: A sequence of two steps that always succeeds.
* `mapM_eq_ok`: Entries that are all accepted give the list of their values.
* `mapM_eq_error`: The first entry that is refused ends the run.
* `mapM_isOk_iff`: When a run succeeds.
* `mapM_eq_error_iff`: What a run that fails has met.
* `mapM_of_forall₂`: Entries that are read alike.
* `forall₂_of_mapM`: A run that succeeds has accepted every entry.
* `length_of_mapM`: It gives one value for each.
* `exists_of_mem_mapM`: Every value comes from an entry.
-/

namespace CommitRisk

variable {ε α β : Type}

theorem bind_isOk (x : Except ε α) (f : α → Except ε β) (hx : ∃ a, x = .ok a)
    (hf : ∀ a, ∃ b, f a = .ok b) : ∃ b, (x >>= f) = .ok b := by
  rcases hx with ⟨a, hx⟩
  rcases hf a with ⟨b, hb⟩
  exact ⟨b, (bind_eq_ok x f b).mpr ⟨a, hx, hb⟩⟩

theorem mapM_eq_ok (f : α → Except ε β) (g : α → β) (xs : List α)
    (h : ∀ x ∈ xs, f x = .ok (g x)) : xs.mapM f = .ok (xs.map g) := by
  induction xs with
  | nil => rfl
  | cons x rest ih =>
      -- No entry stops the run.
      rw [List.mapM_cons, h x List.mem_cons_self,
        ih fun y hy => h y (List.mem_cons_of_mem x hy)]
      rfl

theorem mapM_eq_error (f : α → Except ε β) (g : α → β) (before : List α) (x : α) (after : List α)
    (fault : ε) (hbefore : ∀ y ∈ before, f y = .ok (g y)) (hx : f x = .error fault) :
    (before ++ x :: after).mapM f = .error fault := by
  induction before with
  | nil =>
      rw [List.nil_append, List.mapM_cons, hx]
      rfl
  | cons y rest ih =>
      rw [List.cons_append, List.mapM_cons, hbefore y List.mem_cons_self,
        ih fun z hz => hbefore z (List.mem_cons_of_mem y hz)]
      rfl

/-- A run succeeds exactly if every entry is accepted. -/
theorem mapM_isOk_iff (f : α → Except ε β) (xs : List α) :
    (∃ ys, xs.mapM f = .ok ys) ↔ ∀ x ∈ xs, ∃ y, f x = .ok y := by
  induction xs with
  | nil => exact ⟨fun _ x hx => absurd hx List.not_mem_nil, fun _ => ⟨[], rfl⟩⟩
  | cons x rest ih =>
      rw [List.forall_mem_cons, ← ih]
      constructor
      · rintro ⟨ys, hys⟩
        rw [List.mapM_cons, bind_eq_ok] at hys
        rcases hys with ⟨y, hy, hys⟩
        rcases (bind_eq_ok _ _ _).mp hys with ⟨tail, htail, _⟩
        exact ⟨⟨y, hy⟩, tail, htail⟩
      · rintro ⟨⟨y, hy⟩, tail, htail⟩
        refine ⟨y :: tail, ?_⟩
        rw [List.mapM_cons, hy, htail]
        rfl

/-- A run that fails has met an entry that is refused, after entries that are accepted. -/
theorem mapM_eq_error_iff (f : α → Except ε β) (xs : List α) (fault : ε) :
    xs.mapM f = .error fault ↔ ∃ before x after, xs = before ++ x :: after ∧
      (∀ y ∈ before, ∃ z, f y = .ok z) ∧ f x = .error fault := by
  constructor
  · intro h
    induction xs with
    | nil => cases h
    | cons first rest ih =>
        rw [List.mapM_cons] at h
        cases hfirst : f first with
        | error e =>
            rw [hfirst] at h
            cases h
            exact ⟨[], first, rest, rfl, fun _ hy => absurd hy List.not_mem_nil, hfirst⟩
        | ok z =>
            rw [hfirst] at h
            cases htail : rest.mapM f with
            | ok zs =>
                rw [htail] at h
                cases h
            | error e =>
                rw [htail] at h
                cases h
                rcases ih htail with ⟨before, x, after, rfl, hbefore, hx⟩
                exact ⟨first :: before, x, after, rfl,
                  List.forall_mem_cons.mpr ⟨⟨z, hfirst⟩, hbefore⟩, hx⟩
  · rintro ⟨before, x, after, rfl, hbefore, hx⟩
    rcases (mapM_isOk_iff f before).mpr hbefore with ⟨ys, hys⟩
    rw [List.mapM_append, hys, List.mapM_cons, hx]
    rfl

/-- Two lists that are read alike, entry by entry, give the same run. -/
theorem mapM_of_forall₂ {γ : Type} (f : α → Except ε β) (g : γ → Except ε β) {xs : List α}
    {ys : List γ} (h : List.Forall₂ (fun x y => f x = g y) xs ys) : xs.mapM f = ys.mapM g := by
  induction h with
  | nil => rfl
  | cons hhead _ ih => rw [List.mapM_cons, List.mapM_cons, hhead, ih]

theorem forall₂_of_mapM (f : α → Except ε β) (xs : List α) (ys : List β)
    (h : xs.mapM f = .ok ys) : List.Forall₂ (fun x y => f x = .ok y) xs ys := by
  induction xs generalizing ys with
  | nil =>
      rw [List.mapM_nil] at h
      cases h
      exact .nil
  | cons x rest ih =>
      rw [List.mapM_cons, bind_eq_ok] at h
      rcases h with ⟨y, hy, h⟩
      rw [bind_eq_ok] at h
      rcases h with ⟨tail, htail, h⟩
      cases h
      exact .cons hy (ih tail htail)

theorem length_of_mapM (f : α → Except ε β) (xs : List α) (ys : List β)
    (h : xs.mapM f = .ok ys) : ys.length = xs.length :=
  (forall₂_of_mapM f xs ys h).length_eq.symm

theorem exists_of_mem_mapM (f : α → Except ε β) (xs : List α) (ys : List β)
    (h : xs.mapM f = .ok ys) (y : β) (hy : y ∈ ys) : ∃ x ∈ xs, f x = .ok y := by
  -- Both lists are walked together, so the entry stands where the value does.
  have hall := forall₂_of_mapM f xs ys h
  clear h
  induction hall with
  | nil => exact absurd hy List.not_mem_nil
  | cons hhead _ ih =>
      rcases List.mem_cons.mp hy with rfl | hy
      · exact ⟨_, List.mem_cons_self, hhead⟩
      · rcases ih hy with ⟨x, hx, hfx⟩
        exact ⟨x, List.mem_cons_of_mem _ hx, hfx⟩

end CommitRisk
