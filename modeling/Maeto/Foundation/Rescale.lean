import Mathlib.Algebra.Order.Group.Nat

/-!
# Rounding between two units

A whole is divided into `src` parts by one unit and into `dst` parts by another. A number of
parts of the one is expressed in parts of the other by rounding down (`rescale`). Rounding
keeps the order. Going to a finer unit and back loses at most one part
(`rescale_rescale_cases`).
-/

namespace Foundation

def rescale (src dst n : ℕ) : ℕ := n * dst / src

theorem rescale_mono {src dst n m : ℕ} (h : n ≤ m) : rescale src dst n ≤ rescale src dst m :=
  Nat.div_le_div_right (Nat.mul_le_mul_right dst h)

theorem rescale_lt {src dst n : ℕ} (hdst : 0 < dst) (h : n < src) : rescale src dst n < dst := by
  refine Nat.div_lt_of_lt_mul ?_
  exact Nat.mul_lt_mul_of_pos_right h hdst

theorem rescale_rescale_le (src dst n : ℕ) :
    rescale dst src (rescale src dst n) ≤ n := by
  rcases Nat.eq_zero_or_pos dst with rfl | hdst
  · simp [rescale]
  · refine Nat.div_le_of_le_mul ?_
    calc rescale src dst n * src ≤ n * dst := Nat.div_mul_le_self (n * dst) src
      _ = dst * n := Nat.mul_comm n dst

theorem le_rescale_rescale {src dst : ℕ} (hsrc : 0 < src) (h : src ≤ dst) (n : ℕ) :
    n ≤ rescale dst src (rescale src dst n) + 1 := by
  have hdst : 0 < dst := lt_of_lt_of_le hsrc h
  have hthere : n * dst < rescale src dst n * src + src := by
    have hlt := Nat.lt_mul_div_succ (n * dst) hsrc
    rwa [Nat.mul_add, Nat.mul_one, Nat.mul_comm src] at hlt
  have hback : rescale src dst n * src < (rescale dst src (rescale src dst n) + 1) * dst := by
    have hlt := Nat.lt_mul_div_succ (rescale src dst n * src) hdst
    rwa [Nat.mul_comm dst] at hlt
  refine Nat.le_of_lt_succ (Nat.lt_of_mul_lt_mul_right (a := dst) ?_)
  calc n * dst < rescale src dst n * src + src := hthere
    _ < (rescale dst src (rescale src dst n) + 1) * dst + dst := Nat.add_lt_add_of_lt_of_le hback h
    _ = (rescale dst src (rescale src dst n) + 1).succ * dst := (Nat.succ_mul _ dst).symm

theorem rescale_rescale_cases {src dst : ℕ} (hsrc : 0 < src) (h : src ≤ dst) (n : ℕ) :
    rescale dst src (rescale src dst n) = n ∨ rescale dst src (rescale src dst n) + 1 = n := by
  have hle := rescale_rescale_le src dst n
  have hge := le_rescale_rescale hsrc h n
  omega

end Foundation
