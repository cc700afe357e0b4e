import Mathlib.Data.List.Basic

/-!
# Actions that can fail halfway

An attempt acts on a state and may end early. What it did until then stays done, so
the state is returned together with the error. The rules carry what one action keeps
to a sequence of them.
-/

namespace Foundation

abbrev Attempt (ε σ : Type*) := σ → Option ε × σ

namespace Attempt

variable {ε σ α : Type*}

def andThen (f g : Attempt ε σ) : Attempt ε σ := fun s =>
  match f s with
  | (none, s') => g s'
  | (some e, s') => (some e, s')

def catching (caught : ε → Bool) (f : Attempt ε σ) : Attempt ε σ := fun s =>
  ((f s).1.filter fun e => !caught e, (f s).2)

def each (f : α → Attempt ε σ) : List α → Attempt ε σ
  | [], s => (none, s)
  | a :: l, s => andThen (f a) (each f l) s

theorem andThen_of_none {f g : Attempt ε σ} {s s' : σ} (h : f s = (none, s')) :
    andThen f g s = g s' := by
  rw [andThen, h]

theorem andThen_of_some {f g : Attempt ε σ} {s s' : σ} {e : ε} (h : f s = (some e, s')) :
    andThen f g s = (some e, s') := by
  rw [andThen, h]

theorem andThen_induction {P : σ → Prop} {f g : Attempt ε σ} (hf : ∀ s, P s → P (f s).2)
    (hg : ∀ s, P s → P (g s).2) {s : σ} (hs : P s) : P (andThen f g s).2 := by
  have hfirst := hf s hs
  rcases hfs : f s with ⟨_ | e, s'⟩
  · rw [andThen_of_none hfs]
    exact hg s' (by rwa [hfs] at hfirst)
  · rw [andThen_of_some hfs]
    rwa [hfs] at hfirst

variable {f : α → Attempt ε σ} {l : List α}

theorem each_induction {P : σ → Prop} (hstep : ∀ a ∈ l, ∀ s, P s → P (f a s).2) {s : σ}
    (hs : P s) : P (each f l s).2 := by
  induction l generalizing s with
  | nil => exact hs
  | cons a l ih =>
    refine andThen_induction (hstep a List.mem_cons_self) (fun s' hs' => ?_) hs
    exact ih (fun b hb => hstep b (List.mem_cons_of_mem a hb)) hs'

theorem of_each_eq_some {s : σ} {e : ε} (h : (each f l s).1 = some e) :
    ∃ a ∈ l, ∃ s', (f a s').1 = some e := by
  induction l generalizing s with
  | nil => cases h
  | cons a l ih =>
    rw [each] at h
    rcases hfa : f a s with ⟨_ | e', s'⟩
    · rw [andThen_of_none hfa] at h
      obtain ⟨b, hb, hs⟩ := ih h
      exact ⟨b, List.mem_cons_of_mem a hb, hs⟩
    · rw [andThen_of_some hfa] at h
      exact ⟨a, List.mem_cons_self, s, by rw [hfa, ← h]⟩

theorem each_of_done {g : α → σ → σ} (h : ∀ a ∈ l, ∀ s, f a s = (none, g a s)) (s : σ) :
    each f l s = (none, l.foldl (fun s a => g a s) s) := by
  induction l generalizing s with
  | nil => rfl
  | cons a l ih =>
    rw [each, andThen_of_none (h a List.mem_cons_self s), List.foldl_cons]
    exact ih (fun b hb => h b (List.mem_cons_of_mem a hb)) _

end Attempt

end Foundation
