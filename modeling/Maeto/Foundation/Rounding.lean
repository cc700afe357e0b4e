import Mathlib.Algebra.BigOperators.Group.List.Basic
import Mathlib.Data.Rat.Floor

/-!
# Sums that are rounded

A sum of floating-point numbers is rounded after every addition, so that it depends on the order
of its terms. A definition that adds takes the rounding as a parameter. Without another one it is
`Rounding.exact`, under which the sums are those of the rationals; `Rounding.float64` rounds to
the nearest number with 53 significant bits, and to the even one of two that are equally near.
Numbers beyond the largest one of the format are not turned into an infinity.
-/

namespace Foundation

class Rounding where
  round : ℚ → ℚ

namespace Rounding

def add [Rounding] (x y : ℚ) : ℚ := round (x + y)

def sum [Rounding] (xs : List ℚ) : ℚ := xs.foldl add 0

section Exact

instance exact : Rounding := ⟨fun x => x⟩

@[simp] theorem round_exact (x : ℚ) : round x = x := rfl

@[simp] theorem add_exact (x y : ℚ) : add x y = x + y := rfl

@[simp] theorem sum_exact (xs : List ℚ) : sum xs = xs.sum := (List.sum_eq_foldl).symm

end Exact

section Float64

def toEven (x : ℚ) : ℤ :=
  if x - x.floor < 1 / 2 then x.floor
  else if 1 / 2 < x - x.floor then x.floor + 1
  else x.floor + x.floor % 2

def pow2 (e : ℤ) : ℚ :=
  if 0 ≤ e then ((2 ^ e.toNat : ℕ) : ℚ) else 1 / ((2 ^ (-e).toNat : ℕ) : ℚ)

def lastPlace (x : ℚ) : ℤ :=
  let e : ℤ := x.num.natAbs.log2 - x.den.log2
  max ((if |x| < pow2 e then e - 1 else e) - 52) (-1074)

@[reducible] def float64 : Rounding :=
  ⟨fun x => toEven (x / pow2 (lastPlace x)) * pow2 (lastPlace x)⟩

end Float64

end Rounding

end Foundation
