import Mathlib.Algebra.Order.Ring.Int
import Mathlib.Tactic.Linarith

/-!
# Points in time

A point in time is a number of seconds since 1970 and of nanoseconds within the second. It
is read as a number of nanoseconds (`nanos`), and that is how two of them are compared. A
difference is a 64-bit number of nanoseconds, and the nearest one when it does not fit.
-/

namespace Foundation

@[ext]
structure GoTime where
  unix : Int64
  nanosecond : ℕ
  nanosecond_lt : nanosecond < 10 ^ 9

namespace GoTime

def nanos (t : GoTime) : ℤ := t.unix.toInt * 10 ^ 9 + t.nanosecond

instance : LE GoTime := ⟨fun t u => t.nanos ≤ u.nanos⟩

theorem le_def {t u : GoTime} : t ≤ u ↔ t.nanos ≤ u.nanos := Iff.rfl

theorem nanos_inj {t u : GoTime} : t.nanos = u.nanos ↔ t = u := by
  refine ⟨fun h => ?_, congrArg nanos⟩
  have ht := t.nanosecond_lt
  have hu := u.nanosecond_lt
  unfold nanos at h
  refine GoTime.ext (Int64.toInt.inj ?_) ?_
  · omega
  · omega

theorem ofUnix_lt (nsec : Int64) : (nsec.toInt % 10 ^ 9).toNat < 10 ^ 9 := by
  have hlt := Int.emod_lt_of_pos nsec.toInt (show (0 : ℤ) < 10 ^ 9 by decide)
  have hle := Int.emod_nonneg nsec.toInt (show (10 ^ 9 : ℤ) ≠ 0 by decide)
  omega

def ofUnix (sec nsec : Int64) : GoTime where
  unix := sec + Int64.ofInt (nsec.toInt / 10 ^ 9)
  nanosecond := (nsec.toInt % 10 ^ 9).toNat
  nanosecond_lt := ofUnix_lt nsec

theorem nanos_ofUnix {sec nsec : Int64} (h : 0 ≤ nsec.toInt) (hlt : nsec.toInt < 10 ^ 9) :
    (ofUnix sec nsec).nanos = sec.toInt * 10 ^ 9 + nsec.toInt := by
  have hcarry : nsec.toInt / 10 ^ 9 = 0 := Int.ediv_eq_zero_of_lt h hlt
  have hrest : nsec.toInt % 10 ^ 9 = nsec.toInt := Int.emod_eq_of_lt h hlt
  have hsec : sec + Int64.ofInt 0 = sec := Int64.add_zero sec
  simp only [nanos, ofUnix, hcarry, hrest, hsec, Int.toNat_of_nonneg h]

def minDuration : ℤ := -2 ^ 63

def maxDuration : ℤ := 2 ^ 63 - 1

def sub (t u : GoTime) : Int64 :=
  Int64.ofInt (max minDuration (min maxDuration (t.nanos - u.nanos)))

theorem toInt_sub {t u : GoTime} (hmin : minDuration ≤ t.nanos - u.nanos)
    (hmax : t.nanos - u.nanos ≤ maxDuration) : (t.sub u).toInt = t.nanos - u.nanos := by
  rw [sub, min_eq_right hmax, max_eq_right hmin]
  refine Int64.toInt_ofInt_of_le hmin ?_
  unfold maxDuration at hmax
  linarith

/-- A difference is smaller than a duration only when it really is: the largest one stands for all
that are larger. -/
theorem nanos_lt_of_sub_lt {t u : GoTime} {d : Int64} (h : t.sub u < d) :
    t.nanos - u.nanos < d.toInt := by
  have hd := d.toInt_lt
  rw [Int64.lt_iff_toInt_lt, sub, Int64.toInt_ofInt_of_le] at h
  · unfold minDuration maxDuration at h
    omega
  · exact le_max_left _ _
  · unfold minDuration maxDuration
    omega

end GoTime

end Foundation
