import Mathlib.Data.List.Basic

/-!
# Runs of a deterministic system

A run takes a list of inputs through a step function. A condition on the steps is a
relation between the state before a step and its input; the rules here carry what one
step preserves to the states of a whole run.
-/

namespace Foundation.Run

variable {σ α : Type*} (step : σ → α → σ)

def EachStep (P : σ → α → Prop) : σ → List α → Prop
  | _, [] => True
  | s, a :: l => P s a ∧ EachStep P (step s a) l

instance decidableEachStep (P : σ → α → Prop) [∀ s a, Decidable (P s a)] :
    ∀ s l, Decidable (EachStep step P s l)
  | _, [] => isTrue trivial
  | s, a :: l =>
    have := decidableEachStep P (step s a) l
    inferInstanceAs (Decidable (P s a ∧ EachStep step P (step s a) l))

variable {step} {P Q : σ → α → Prop}

theorem EachStep.foldl_induction {Inv : σ → Prop}
    (hstep : ∀ s a, Inv s → P s a → Inv (step s a)) {s : σ} {l : List α} (hs : Inv s)
    (h : EachStep step P s l) : Inv (l.foldl step s) := by
  induction l generalizing s with
  | nil => exact hs
  | cons a l ih => exact ih (hstep s a hs h.1) h.2

theorem EachStep.forall_scanl {Inv : σ → Prop}
    (hstep : ∀ s a, Inv s → P s a → Inv (step s a)) {s : σ} {l : List α} (hs : Inv s)
    (h : EachStep step P s l) : ∀ s' ∈ l.scanl step s, Inv s' := by
  induction l generalizing s with
  | nil => simpa using hs
  | cons a l ih =>
    rw [List.scanl_cons, List.forall_mem_cons]
    exact ⟨hs, ih (hstep s a hs h.1) h.2⟩

theorem eachStep_true (s : σ) (l : List α) : EachStep step (fun _ _ => True) s l := by
  induction l generalizing s with
  | nil => trivial
  | cons a l ih => exact ⟨trivial, ih _⟩

theorem forall_scanl {Inv : σ → Prop} (hstep : ∀ s a, Inv s → Inv (step s a)) {s : σ} {l : List α}
    (hs : Inv s) : ∀ s' ∈ l.scanl step s, Inv s' :=
  (eachStep_true s l).forall_scanl (fun s a h _ => hstep s a h) hs

/-- In a run whose steps meet `Q`, a property holds in every state exactly when every
step meets `P`, when `P` says which of these steps preserve the property. -/
theorem forall_scanl_iff {Inv Good : σ → Prop}
    (hinv : ∀ s a, Inv s → Q s a → Inv (step s a))
    (hgood : ∀ s a, Inv s → Good s → Q s a → (Good (step s a) ↔ P s a))
    {s : σ} {l : List α} (hs : Inv s) (hs' : Good s) (hQ : EachStep step Q s l) :
    (∀ s' ∈ l.scanl step s, Good s') ↔ EachStep step P s l := by
  induction l generalizing s with
  | nil => simp [EachStep, hs']
  | cons a l ih =>
    rw [List.scanl_cons, List.forall_mem_cons, EachStep, ← hgood s a hs hs' hQ.1]
    constructor
    · rintro ⟨-, hall⟩
      have hnext := hall (step s a) (by cases l <;> simp)
      exact ⟨hnext, (ih (hinv s a hs hQ.1) hnext hQ.2).mp hall⟩
    · rintro ⟨hnext, hrest⟩
      exact ⟨hs', (ih (hinv s a hs hQ.1) hnext hQ.2).mpr hrest⟩

theorem getElem?_concat_eq_some_iff {l : List α} {x y : α} {i : ℕ} :
    (l ++ [x])[i]? = some y ↔ l[i]? = some y ∨ (i = l.length ∧ x = y) := by
  rw [List.getElem?_append]
  split_ifs with hlt
  · refine (or_iff_left ?_).symm
    rintro ⟨rfl, -⟩
    exact Nat.lt_irrefl _ hlt
  · rw [List.getElem?_eq_none (Nat.not_lt.mp hlt), List.getElem?_singleton]
    constructor
    · intro h
      split_ifs at h with hi
      exact Or.inr ⟨by omega, Option.some.inj h⟩
    · rintro (h | ⟨rfl, rfl⟩)
      · cases h
      · rw [if_pos (Nat.sub_self _)]

end Foundation.Run
