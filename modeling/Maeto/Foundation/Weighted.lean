import Mathlib.Algebra.BigOperators.Group.List.Basic
import Mathlib.Algebra.BigOperators.Ring.List
import Mathlib.Algebra.Order.BigOperators.Group.List
import Mathlib.Algebra.Order.Field.Basic
import Mathlib.Tactic.Linarith
import Mathlib.Tactic.Ring

/-!
# Values with weights

A weighting is a list of values whose weights are not negative and add up to one. What is
expected of a function under it is the sum of its weighted values; the mean and the variance
are the expectations that have these names.

The mean lies within any bounds of the values, and the variance is at most the square of half
their distance (`variance_le`). Taking in one more value with weight `α`, at the expense of the
others, changes every expectation by the same rule (`expect_blend`).
-/

namespace Foundation

variable {K : Type*} [Field K] [LinearOrder K] [IsStrictOrderedRing K]

structure Weighting (K : Type*) [Field K] [LinearOrder K] where
  entries : List (K × K)
  nonneg : ∀ e ∈ entries, 0 ≤ e.1
  total : (entries.map Prod.fst).sum = 1

namespace Weighting

variable (W : Weighting K)

def values : List K := W.entries.map Prod.snd

def expect (f : K → K) : K := (W.entries.map fun e => e.1 * f e.2).sum

def mean : K := W.expect id

def variance : K := W.expect (· ^ 2) - W.mean ^ 2

section Expect

omit [IsStrictOrderedRing K]

theorem expect_const (c : K) : W.expect (fun _ => c) = c := by
  rw [expect, List.sum_map_mul_right, W.total, one_mul]

theorem expect_add (f g : K → K) :
    W.expect (fun x => f x + g x) = W.expect f + W.expect g := by
  simp only [expect, mul_add, List.sum_map_add]

theorem expect_mul (c : K) (f : K → K) : W.expect (fun x => c * f x) = c * W.expect f := by
  simp only [expect, mul_left_comm, List.sum_map_mul_left]

theorem expect_quadratic (a b c : K) :
    W.expect (fun x => a * x ^ 2 + b * x + c) = a * W.expect (· ^ 2) + b * W.mean + c := by
  rw [W.expect_add, W.expect_add, W.expect_mul, W.expect_mul b, W.expect_const]
  rfl

end Expect

theorem expect_mono {f g : K → K} (h : ∀ x ∈ W.values, f x ≤ g x) : W.expect f ≤ W.expect g := by
  refine List.sum_le_sum ?_
  intro e he
  exact mul_le_mul_of_nonneg_left (h e.2 (List.mem_map_of_mem he)) (W.nonneg e he)

section Bounds

variable {a b : K} (h : ∀ x ∈ W.values, a ≤ x ∧ x ≤ b)

include h

theorem le_mean : a ≤ W.mean :=
  (W.expect_const a).ge.trans (W.expect_mono fun x hx => (h x hx).1)

theorem mean_le : W.mean ≤ b :=
  (W.expect_mono fun x hx => (h x hx).2).trans (W.expect_const b).le

theorem variance_le_mul : W.variance ≤ (b - W.mean) * (W.mean - a) := by
  have hexpect : 0 ≤ W.expect fun x => -1 * x ^ 2 + (a + b) * x + -(a * b) := by
    rw [← W.expect_const 0]
    refine W.expect_mono ?_
    intro x hx
    have hpair : 0 ≤ (b - x) * (x - a) :=
      mul_nonneg (sub_nonneg.mpr (h x hx).2) (sub_nonneg.mpr (h x hx).1)
    linarith
  rw [W.expect_quadratic] at hexpect
  unfold variance
  linarith

theorem variance_le : W.variance ≤ (b - a) ^ 2 / 4 := by
  calc W.variance ≤ (b - W.mean) * (W.mean - a) := W.variance_le_mul h
    _ = (b - a) ^ 2 / 4 - (W.mean - (a + b) / 2) ^ 2 := by ring
    _ ≤ (b - a) ^ 2 / 4 := sub_le_self _ (sq_nonneg _)

end Bounds

theorem variance_nonneg : 0 ≤ W.variance := by
  have hexpect : 0 ≤ W.expect fun x => 1 * x ^ 2 + -(2 * W.mean) * x + W.mean ^ 2 := by
    rw [← W.expect_const 0]
    refine W.expect_mono ?_
    intro x _
    have hsq := sq_nonneg (x - W.mean)
    linarith
  rw [W.expect_quadratic] at hexpect
  unfold variance
  linarith

section Blend

def single (x : K) : Weighting K where
  entries := [(1, x)]
  nonneg := by
    intro e he
    rw [List.mem_singleton.mp he]
    exact zero_le_one
  total := by simp

variable {α : K} (h : 0 ≤ α ∧ α ≤ 1)

def blend (x : K) : Weighting K where
  entries := (W.entries.map fun e => ((1 - α) * e.1, e.2)) ++ [(α, x)]
  nonneg := by
    intro e he
    rcases List.mem_append.mp he with hold | hnew
    · obtain ⟨e', he', rfl⟩ := List.mem_map.mp hold
      exact mul_nonneg (sub_nonneg.mpr h.2) (W.nonneg e' he')
    · rw [List.mem_singleton.mp hnew]
      exact h.1
  total := by
    rw [List.map_append, List.sum_append, List.map_map]
    change (W.entries.map fun e => (1 - α) * e.1).sum + _ = 1
    rw [List.sum_map_mul_left, W.total]
    simp

@[simp] theorem values_single (x : K) : (single x).values = [x] := rfl

@[simp] theorem values_blend (x : K) : (W.blend h x).values = W.values ++ [x] := by
  simp [values, blend, Function.comp_def]

@[simp] theorem expect_single (x : K) (f : K → K) : (single x).expect f = f x := by
  simp [expect, single]

theorem expect_blend (x : K) (f : K → K) :
    (W.blend h x).expect f = (1 - α) * W.expect f + α * f x := by
  simp only [expect, blend, List.map_append, List.map_map, Function.comp_def, List.sum_append,
    mul_assoc, List.sum_map_mul_left, List.map_cons, List.map_nil, List.sum_singleton]

theorem mean_blend (x : K) : (W.blend h x).mean = W.mean + α * (x - W.mean) := by
  rw [mean, W.expect_blend, ← mean, id]
  ring

theorem variance_blend (x : K) :
    (W.blend h x).variance = (1 - α) * (W.variance + α * (x - W.mean) * (x - W.mean)) := by
  rw [variance, variance, W.mean_blend, W.expect_blend]
  ring

end Blend

end Weighting

end Foundation
