import Mathlib.Data.Nat.Bitwise

/-!
# Telling values apart by marking them

Whether a function takes different values below a bound is decided in one pass: the values
that were met are the bits of a number, and a value whose bit is already set ends the pass.
-/

namespace Foundation.Marks

def distinctBelow (f : ℕ → ℕ) : ℕ → ℕ → Bool
  | 0, _ => true
  | n + 1, marks =>
    if marks.testBit (f n) then false else distinctBelow f n (marks ||| 1 <<< f n)

variable {f : ℕ → ℕ}

theorem testBit_mark {marks v w : ℕ} :
    (marks ||| 1 <<< v).testBit w = true ↔ marks.testBit w = true ∨ w = v := by
  rw [Nat.testBit_or, Nat.one_shiftLeft, Nat.testBit_two_pow, Bool.or_eq_true, decide_eq_true_eq]
  exact or_congr Iff.rfl eq_comm

theorem testBit_of_distinctBelow {n marks : ℕ} (h : distinctBelow f n marks = true) {i : ℕ}
    (hi : i < n) : ¬ marks.testBit (f i) = true := by
  induction n generalizing marks with
  | zero => exact absurd hi (Nat.not_lt_zero i)
  | succ n ih =>
    rw [distinctBelow] at h
    split_ifs at h with hn
    rcases Nat.lt_succ_iff_lt_or_eq.mp hi with hlt | rfl
    · exact fun hmark => ih h hlt (testBit_mark.mpr (Or.inl hmark))
    · exact hn

theorem injOn_of_distinctBelow {n marks : ℕ} (h : distinctBelow f n marks = true) {i j : ℕ}
    (hi : i < n) (hj : j < n) (hij : f i = f j) : i = j := by
  induction n generalizing marks with
  | zero => exact absurd hi (Nat.not_lt_zero i)
  | succ n ih =>
    rw [distinctBelow] at h
    split_ifs at h with hn
    -- The last value is marked while the others are looked at.
    have hlast : ∀ i < n, f i ≠ f n := fun i hi heq =>
      testBit_of_distinctBelow h hi (testBit_mark.mpr (Or.inr heq))
    rcases Nat.lt_succ_iff_lt_or_eq.mp hi with hi | rfl
    · rcases Nat.lt_succ_iff_lt_or_eq.mp hj with hj | rfl
      · exact ih h hi hj
      · exact absurd hij (hlast i hi)
    · rcases Nat.lt_succ_iff_lt_or_eq.mp hj with hj | rfl
      · exact absurd hij.symm (hlast j hj)
      · rfl

end Foundation.Marks
