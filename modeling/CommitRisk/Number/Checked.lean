/-!
# Checked Arithmetic

Whole numbers of sixty-four bits are multiplied and subtracted as integers. A result that has no
room in sixty-four bits is not bent into a number that has: it stops whatever was being worked
out, and no result comes of it.

## Main definitions

* `Overflow`: An operation whose result has no room.
* `checked`: An integer as a whole number of sixty-four bits.
* `checkedMul`, `checkedSub`: Products and differences.

## Theorems

* `fitsInt64_iff`: The integers that have room are those of the words.
* `checked_eq_ok_iff`, `checked_eq_error_iff`: When there is a result, and when there is none.
-/

namespace CommitRisk

/-- An operation whose result has no room in sixty-four bits. -/
inductive Overflow where
  | multiply
  | subtract
deriving DecidableEq, Repr

/-- The message of an overflow. -/
def Overflow.message : Overflow → String
  | .multiply => "attempt to multiply with overflow"
  | .subtract => "attempt to subtract with overflow"

/-- The integers that have room in sixty-four bits. -/
def FitsInt64 (n : Int) : Prop :=
  Int64.minValue.toInt ≤ n ∧ n ≤ Int64.maxValue.toInt

instance (n : Int) : Decidable (FitsInt64 n) :=
  inferInstanceAs (Decidable (_ ∧ _))

/-- An integer as a whole number of sixty-four bits, if it has room there. -/
def checked (overflow : Overflow) (n : Int) : Except Overflow Int64 :=
  if h : FitsInt64 n then .ok (Int64.ofIntLE n h.1 h.2) else .error overflow

def checkedMul (x y : Int64) : Except Overflow Int64 :=
  checked .multiply (x.toInt * y.toInt)

def checkedSub (x y : Int64) : Except Overflow Int64 :=
  checked .subtract (x.toInt - y.toInt)

theorem fitsInt64_toInt (word : Int64) : FitsInt64 word.toInt :=
  ⟨word.minValue_le_toInt, word.toInt_le⟩

/-- What has room is an integer that some word stands for. -/
theorem fitsInt64_iff {n : Int} : FitsInt64 n ↔ ∃ word : Int64, word.toInt = n := by
  constructor
  · rintro ⟨hlow, hhigh⟩
    exact ⟨Int64.ofIntLE n hlow hhigh, Int64.toInt_ofIntLE⟩
  · rintro ⟨word, rfl⟩
    exact fitsInt64_toInt word

/-- A word is the result precisely if it is the integer. -/
theorem checked_eq_ok_iff {overflow : Overflow} {n : Int} {word : Int64} :
    checked overflow n = .ok word ↔ word.toInt = n := by
  constructor
  · intro h
    unfold checked at h
    split at h
    · rename_i hfits
      rw [Except.ok.injEq] at h
      rw [← h]
      exact Int64.toInt_ofIntLE
    · cases h
  · rintro rfl
    rw [checked, dif_pos (fitsInt64_toInt word)]
    exact congrArg Except.ok (Int64.toInt_inj.mp Int64.toInt_ofIntLE)

theorem checked_eq_error_iff {overflow e : Overflow} {n : Int} :
    checked overflow n = .error e ↔ e = overflow ∧ ¬ FitsInt64 n := by
  unfold checked
  split
  · rename_i hfits
    simp only [reduceCtorEq, hfits, not_true_eq_false, and_false]
  · rename_i hfits
    simp only [Except.error.injEq, hfits, not_false_eq_true, and_true, eq_comm]

end CommitRisk
