/-!
# Steps That Can Fail

A sequence of steps ends at the first one that fails. The statements here turn a sequence that
has not failed into what its steps have done, so that a proof can go on with plain values.

## Theorems

* `bind_eq_ok`: A sequence of two steps succeeds exactly if both do.
* `map_eq_ok`, `map_eq_error`: A step followed by one that cannot fail.
* `foldlM_eq_ok_iff`: Reading a list whose entries must fit and must go together.
-/

namespace CommitRisk

variable {ε α β : Type}

theorem bind_eq_ok (x : Except ε α) (f : α → Except ε β) (b : β) :
    (x >>= f) = .ok b ↔ ∃ a, x = .ok a ∧ f a = .ok b := by
  cases x with
  | error e =>
      constructor
      · intro h
        exact absurd h (by simp only [bind, Except.bind, reduceCtorEq, not_false_eq_true])
      · rintro ⟨a, ha, _⟩
        exact absurd ha (by simp only [reduceCtorEq, not_false_eq_true])
  | ok a =>
      constructor
      · intro h
        exact ⟨a, rfl, h⟩
      · rintro ⟨a', ha, h⟩
        rw [Except.ok.injEq] at ha
        rw [ha]
        exact h

theorem map_eq_ok (x : Except ε α) (f : α → β) (b : β) :
    x.map f = .ok b ↔ ∃ a, x = .ok a ∧ f a = b := by
  cases x with
  | error e => simp only [Except.map, reduceCtorEq, false_and, exists_false]
  | ok a => simp only [Except.map, Except.ok.injEq, exists_eq_left']

/-- What is done with a result does not change a failure. -/
theorem map_eq_error (x : Except ε α) (f : α → β) (e : ε) :
    x.map f = .error e ↔ x = .error e := by
  cases x with
  | error found => simp only [Except.map, Except.error.injEq]
  | ok a => simp only [Except.map, reduceCtorEq]

/-- Reading a list entry by entry, where an entry is accepted if it fits by itself and is apart
    from those before it. The list is accepted if all of them fit and any two are apart. -/
theorem foldlM_eq_ok_iff {σ : Type} {step : σ → α → Except ε σ} {state : List α → σ}
    {fits : α → Prop} {apart : α → α → Prop}
    (h : ∀ done x next, step (state done) x = .ok next ↔
      (fits x ∧ ∀ y ∈ done, apart y x) ∧ next = state (done ++ [x]))
    (done xs : List α) (last : σ) :
    xs.foldlM step (state done) = .ok last ↔
      ((∀ x ∈ xs, fits x) ∧ (∀ x ∈ xs, ∀ y ∈ done, apart y x) ∧ xs.Pairwise apart) ∧
        last = state (done ++ xs) := by
  induction xs generalizing done with
  | nil =>
      simp only [List.foldlM_nil, pure, Except.pure, Except.ok.injEq, List.not_mem_nil,
        false_imp_iff, implies_true, List.Pairwise.nil, and_self, true_and, List.append_nil,
        eq_comm]
  | cons x rest ih =>
      have hstep : (x :: rest).foldlM step (state done) = .ok last ↔
          ∃ next, step (state done) x = .ok next ∧ rest.foldlM step next = .ok last := by
        rw [List.foldlM_cons, bind_eq_ok]
      -- What is read later has to be apart from this entry, too.
      have hlater : (∀ z ∈ rest, ∀ y ∈ done ++ [x], apart y z) ↔
          (∀ z ∈ rest, ∀ y ∈ done, apart y z) ∧ ∀ z ∈ rest, apart x z := by
        simp only [List.forall_mem_append, List.forall_mem_singleton, forall_and]
      simp only [hstep, h, and_assoc, exists_and_left, exists_eq_left, ih, hlater,
        List.append_assoc, List.singleton_append, List.forall_mem_cons, List.pairwise_cons]
      constructor
      · rintro ⟨hx, hbefore, hrest, hdone, hown, hpairs, hlast⟩
        exact ⟨hx, hrest, hbefore, hdone, hown, hpairs, hlast⟩
      · rintro ⟨hx, hrest, hbefore, hdone, hown, hpairs, hlast⟩
        exact ⟨hx, hbefore, hrest, hdone, hown, hpairs, hlast⟩

end CommitRisk
