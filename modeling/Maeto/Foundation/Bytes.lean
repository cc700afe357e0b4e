import Mathlib.Data.List.Basic
import Mathlib.Data.Nat.Bitwise

/-!
# Byte strings

Byte strings with the checks that a run-time system makes: a slice or an index out of range
ends the program (`Fault.panic`), as opposed to an error that is returned
(`Fault.returned`). A computation that does neither end the program nor run on without an end
is `Safe`.

Numbers are written with a fixed number of bytes, the most significant first (`beBytes`,
`beNat`). Each of the two undoes the other one.
-/

namespace Foundation

inductive Fault where
  | returned (msg : String)
  | panic (msg : String)
  | unfinished
  deriving DecidableEq

def Safe {α : Type} (x : Except Fault α) : Prop :=
  ∀ fault, x = .error fault → ∃ msg, fault = .returned msg

namespace Safe

variable {α β : Type}

theorem ok (a : α) : Safe (.ok a) := fun _ h => nomatch h

theorem returned (msg : String) : Safe (.error (.returned msg) : Except Fault α) := by
  intro fault h
  cases h
  exact ⟨msg, rfl⟩

theorem bind {x : Except Fault α} {f : α → Except Fault β} (hx : Safe x)
    (hf : ∀ a, x = .ok a → Safe (f a)) : Safe (x >>= f) := by
  cases x with
  | ok a => exact hf a rfl
  | error fault =>
    intro fault' h
    cases h
    exact hx fault rfl

theorem foldlM {f : β → α → Except Fault β} (hf : ∀ b a, Safe (f b a)) (l : List α) (b : β) :
    Safe (l.foldlM f b) := by
  induction l generalizing b with
  | nil => exact ok b
  | cons a l ih =>
    rw [List.foldlM_cons]
    exact (hf b a).bind fun b' _ => ih b'

end Safe

abbrev Bytes := List UInt8

namespace Bytes

def slice (b : Bytes) (lo hi : ℕ) : Except Fault Bytes :=
  if lo ≤ hi ∧ hi ≤ b.length then .ok ((b.drop lo).take (hi - lo))
  else .error (.panic "slice bounds out of range")

def index (b : Bytes) (i : ℕ) : Except Fault UInt8 :=
  match b[i]? with
  | some x => .ok x
  | none => .error (.panic "index out of range")

def setIndex (b : Bytes) (i : ℕ) (x : UInt8) : Except Fault Bytes :=
  if i < b.length then .ok (b.set i x) else .error (.panic "index out of range")

def put (b : Bytes) (lo hi : ℕ) (new : Bytes) : Except Fault Bytes :=
  if lo ≤ hi ∧ hi ≤ b.length then
    if new.length ≤ hi - lo then .ok (b.take lo ++ new ++ b.drop (lo + new.length))
    else .error (.panic "index out of range")
  else .error (.panic "slice bounds out of range")

def beBytes : ℕ → ℕ → Bytes
  | 0, _ => []
  | n + 1, v => UInt8.ofNat (v / 256 ^ n) :: beBytes n v

def beNat : Bytes → ℕ
  | [] => 0
  | x :: b => x.toNat * 256 ^ b.length + beNat b

def uint16 (b : Bytes) : Except Fault UInt16 :=
  if b.length < 2 then .error (.panic "index out of range")
  else .ok (UInt16.ofNat (beNat (b.take 2)))

def uint32 (b : Bytes) : Except Fault UInt32 :=
  if b.length < 4 then .error (.panic "index out of range")
  else .ok (UInt32.ofNat (beNat (b.take 4)))

section BigEndian

@[simp] theorem length_beBytes (n v : ℕ) : (beBytes n v).length = n := by
  induction n with
  | zero => rfl
  | succ n ih => rw [beBytes, List.length_cons, ih]

theorem beNat_lt (b : Bytes) : beNat b < 256 ^ b.length := by
  induction b with
  | nil => exact Nat.one_pos
  | cons x b ih =>
    have hx : x.toNat + 1 ≤ 256 := x.toNat_lt
    have hfirst := Nat.mul_le_mul_right (256 ^ b.length) hx
    rw [Nat.add_one_mul] at hfirst
    rw [beNat, List.length_cons, Nat.pow_succ']
    exact Nat.lt_of_lt_of_le (Nat.add_lt_add_left ih _) hfirst

theorem beNat_beBytes (n v : ℕ) : beNat (beBytes n v) = v % 256 ^ n := by
  induction n with
  | zero => exact (Nat.mod_one v).symm
  | succ n ih =>
    have hdigit : (UInt8.ofNat (v / 256 ^ n)).toNat = v / 256 ^ n % 256 := UInt8.toNat_ofNat
    rw [beBytes, beNat, ih, length_beBytes, hdigit, Nat.mod_pow_succ, Nat.add_comm, Nat.mul_comm]

theorem beBytes_add_mul (n v w : ℕ) : beBytes n (w * 256 ^ n + v) = beBytes n v := by
  induction n generalizing w with
  | zero => rfl
  | succ n ih =>
    have hsplit : w * 256 ^ (n + 1) + v = w * 256 * 256 ^ n + v := by
      rw [Nat.pow_succ', Nat.mul_assoc]
    have hdigit : (w * 256 * 256 ^ n + v) / 256 ^ n = w * 256 + v / 256 ^ n := by
      rw [Nat.mul_comm (w * 256), Nat.mul_add_div (Nat.pow_pos (by decide))]
    rw [hsplit, beBytes, beBytes, hdigit, ih]
    congr 1
    apply UInt8.toNat_inj.mp
    rw [UInt8.toNat_ofNat', UInt8.toNat_ofNat']
    omega

theorem beBytes_beNat (b : Bytes) : beBytes b.length (beNat b) = b := by
  induction b with
  | nil => rfl
  | cons x b ih =>
    have hdigit : (x.toNat * 256 ^ b.length + beNat b) / 256 ^ b.length = x.toNat := by
      rw [Nat.mul_comm, Nat.mul_add_div (Nat.pow_pos (by decide)),
        Nat.div_eq_of_lt (beNat_lt b), Nat.add_zero]
    rw [List.length_cons, beBytes, beNat, hdigit, beBytes_add_mul, ih, UInt8.ofNat_toNat]

end BigEndian

section Reading

theorem index_append_right (pre b : Bytes) (i : ℕ) :
    index (pre ++ b) (pre.length + i) = index b i := by
  unfold index
  rw [List.getElem?_append_right (Nat.le_add_right _ _), Nat.add_sub_cancel_left]

theorem slice_append_right (pre b : Bytes) (lo hi : ℕ) :
    slice (pre ++ b) (pre.length + lo) (pre.length + hi) = slice b lo hi := by
  unfold slice
  rw [List.length_append, List.drop_append, Nat.add_sub_cancel_left, Nat.add_sub_add_left,
    List.drop_eq_nil_of_le (Nat.le_add_right _ _), List.nil_append]
  simp only [Nat.add_le_add_iff_left]

variable {b : Bytes}

theorem slice_of_le {lo hi : ℕ} (hlo : lo ≤ hi) (hhi : hi ≤ b.length) :
    slice b lo hi = .ok ((b.drop lo).take (hi - lo)) :=
  if_pos ⟨hlo, hhi⟩

theorem uint16_of_length (h : b.length = 2) :
    uint16 b = .ok (UInt16.ofNat (beNat b)) := by
  rw [uint16, if_neg (Nat.not_lt.mpr h.ge), List.take_of_length_le h.le]

theorem uint32_of_length (h : b.length = 4) :
    uint32 b = .ok (UInt32.ofNat (beNat b)) := by
  rw [uint32, if_neg (Nat.not_lt.mpr h.ge), List.take_of_length_le h.le]

end Reading

end Bytes

end Foundation
