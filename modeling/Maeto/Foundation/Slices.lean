import Mathlib.Data.List.GetD

/-!
# Slices in memory

A slice is the first part of an array, and several slices may be of the same array. Deleting
from a slice moves the elements that stay to the front of the array and clears the places
behind them, so every slice of the array sees it. A copy has an array of its own: deleting from
it adds an array to the memory and leaves the others as they are (`deleteFunc_clone`).
-/

namespace Foundation

abbrev Memory (α : Type) := List (List α)

structure Slice where
  addr : ℕ
  len : ℕ

namespace Slice

variable {α : Type}

def read (m : Memory α) (s : Slice) : List α := (m.getD s.addr []).take s.len

def clone (s : Slice) : StateM (Memory α) Slice := do
  let m ← get
  set (m ++ [s.read m])
  return ⟨m.length, (s.read m).length⟩

def deleteFunc (zero : α) (del : α → Bool) (s : Slice) : StateM (Memory α) Slice := do
  let m ← get
  let kept := (s.read m).filter fun a => !del a
  let cleared := List.replicate ((s.read m).length - kept.length) zero
  set (m.set s.addr (kept ++ cleared ++ (m.getD s.addr []).drop s.len))
  return ⟨s.addr, kept.length⟩

def InMemory (m : Memory α) (s : Slice) : Prop := s.addr < m.length

theorem read_append {m : Memory α} {s : Slice} (h : s.InMemory m) (m' : Memory α) :
    s.read (m ++ m') = s.read m := by
  rw [read, read, List.getD_append _ _ _ _ h]

theorem InMemory.append {m : Memory α} {s : Slice} (h : s.InMemory m) (m' : Memory α) :
    s.InMemory (m ++ m') := by
  rw [InMemory, List.length_append]
  exact Nat.lt_of_lt_of_le h (Nat.le_add_right _ _)

theorem deleteFunc_clone (zero : α) (del : α → Bool) (s : Slice) (m : Memory α) :
    ∃ s' array, ((s.clone >>= deleteFunc zero del).run m) = (s', m ++ [array]) ∧
      s'.InMemory (m ++ [array]) ∧ s'.read (m ++ [array]) = (s.read m).filter (fun a => !del a) ∧
        s'.len = (s'.read (m ++ [array])).length := by
  have hnew : (⟨m.length, (s.read m).length⟩ : Slice).read (m ++ [s.read m]) = s.read m := by
    rw [read, List.getD_append_right _ _ _ _ (Nat.le_refl _), Nat.sub_self]
    exact List.take_length
  let kept := (s.read m).filter fun a => !del a
  let cleared := List.replicate ((s.read m).length - kept.length) zero
  have hlast : ∀ array : List α, (m ++ [array]).getD m.length [] = array := by
    intro array
    rw [List.getD_append_right _ _ _ _ (Nat.le_refl _), Nat.sub_self, List.getD_cons_zero]
  have hkept : (⟨m.length, kept.length⟩ : Slice).read (m ++ [kept ++ cleared]) = kept := by
    rw [read, hlast, List.take_left]
  refine ⟨⟨m.length, kept.length⟩, kept ++ cleared, ?_, ?_, hkept, ?_⟩
  · change ((⟨m.length, _⟩ : Slice), (m ++ [s.read m]).set m.length _) = _
    rw [hnew, hlast, List.set_append_right _ _ (Nat.le_refl _), Nat.sub_self, List.set_cons_zero,
      List.drop_length, List.append_nil]
  · rw [InMemory, List.length_append, List.length_singleton]
    exact Nat.lt_succ_self _
  · rw [hkept]

end Slice

end Foundation
