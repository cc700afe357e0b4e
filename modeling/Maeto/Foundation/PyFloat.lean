import Mathlib.Algebra.Order.Ring.Rat
import Mathlib.Algebra.Order.Ring.Unbundled.Rat
import Mathlib.Data.Rat.Floor

/-!
# Floating-point numbers

A float is a number, one of the two infinities, or not a number. Finite values are
exact, so sums are not rounded. Comparisons are those of IEEE 754: one with a value
that is not a number is false, in either direction.
-/

namespace Foundation

inductive PyFloat
  | finite (value : ℚ)
  | inf
  | negInf
  | nan
  deriving DecidableEq

namespace PyFloat

instance : OfNat PyFloat n := ⟨.finite n⟩

def lt : PyFloat → PyFloat → Bool
  | finite x, finite y => x < y
  | finite _, inf => true
  | negInf, finite _ => true
  | negInf, inf => true
  | _, _ => false

def le : PyFloat → PyFloat → Bool
  | finite x, finite y => x ≤ y
  | finite _, inf => true
  | negInf, finite _ => true
  | negInf, inf => true
  | inf, inf => true
  | negInf, negInf => true
  | _, _ => false

def add : PyFloat → PyFloat → PyFloat
  | finite x, finite y => finite (x + y)
  | finite _, y => y
  | x, finite _ => x
  | inf, inf => inf
  | negInf, negInf => negInf
  | _, _ => nan

def scale (c : ℚ) : PyFloat → PyFloat
  | finite x => finite (c * x)
  | x => x

def truthy (x : PyFloat) : Bool := x ≠ 0

def int? : PyFloat → Option ℤ
  | finite x => some (if 0 ≤ x then ⌊x⌋ else ⌈x⌉)
  | _ => none

def min (x y : PyFloat) : PyFloat := if lt y x then y else x

def Between (low high : ℚ) (x : PyFloat) : Prop :=
  le (.finite low) x = true ∧ le x (.finite high) = true

instance (low high : ℚ) (x : PyFloat) : Decidable (Between low high x) :=
  inferInstanceAs (Decidable (_ ∧ _))

theorem between_finite {low high q : ℚ} : Between low high (.finite q) ↔ low ≤ q ∧ q ≤ high := by
  simp [Between, le]

variable {x : PyFloat}

theorem Between.exists_finite {low high : ℚ} (h : Between low high x) :
    ∃ q, x = .finite q ∧ low ≤ q ∧ q ≤ high := by
  cases x with
  | finite q => exact ⟨q, rfl, between_finite.mp h⟩
  | inf => cases h.2
  | negInf => cases h.1
  | nan => cases h.1

theorem not_between_nan (low high : ℚ) : ¬ Between low high nan := by
  rintro ⟨h, -⟩
  cases h

/-- A range test by two comparisons lets the values of the range through, and the one
that is not a number. -/
theorem between_iff_ne_nan {low high : ℚ} (hlow : lt x (.finite low) = false)
    (hhigh : lt (.finite high) x = false) : Between low high x ↔ x ≠ nan := by
  cases x with
  | finite q =>
    simp only [lt, decide_eq_false_iff_not, not_lt] at hlow hhigh
    simp [between_finite, hlow, hhigh]
  | inf => cases hhigh
  | negInf => cases hlow
  | nan => simp [not_between_nan]

theorem add_nan (x : PyFloat) : add x nan = nan := by
  cases x <;> rfl

theorem ne_nan_of_le {y : PyFloat} (h : le x y = true) : x ≠ nan := by
  rintro rfl
  cases y <;> exact absurd h Bool.false_ne_true

end PyFloat

end Foundation
