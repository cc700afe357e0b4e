/-!
# Methods that change a state in place

A method changes a state step by step and may fail on the way. An error ends it, and the
state stays as it is at that moment: nothing is rolled back.
-/

namespace Foundation

variable {σ ε α β : Type}

abbrev InPlace (σ ε : Type) := ExceptT ε (StateM σ)

namespace InPlace

def exec (x : InPlace σ ε α) (s : σ) : Except ε α × σ := x.run.run s

def lift (x : Except ε α) : InPlace σ ε α := ExceptT.mk (pure x)

theorem exec_lift (x : Except ε α) (s : σ) : (lift x : InPlace σ ε α).exec s = (x, s) := rfl

theorem exec_get (s : σ) : (get : InPlace σ ε σ).exec s = (.ok s, s) := rfl

theorem exec_bind_of_ok {x : InPlace σ ε α} {f : α → InPlace σ ε β} {a : α} {s s' : σ}
    (h : x.exec s = (.ok a, s')) : (x >>= f).exec s = (f a).exec s' := by
  unfold exec at h ⊢
  rw [ExceptT.run_bind, StateT.run_bind, h]
  rfl

theorem exec_bind_of_error {x : InPlace σ ε α} {f : α → InPlace σ ε β} {err : ε} {s s' : σ}
    (h : x.exec s = (.error err, s')) : (x >>= f).exec s = (.error err, s') := by
  unfold exec at h ⊢
  rw [ExceptT.run_bind, StateT.run_bind, h]
  rfl

theorem exec_forM_modify (l : List α) (f : α → σ → σ) (s : σ) :
    (l.forM fun a => (modify (f a) : InPlace σ ε Unit)).exec s =
      (.ok (), l.foldl (fun s a => f a s) s) := by
  induction l generalizing s with
  | nil => rfl
  | cons a l ih => exact ih (f a s)

theorem exec_forM_of_check {f : α → InPlace σ ε Unit} {check : α → Except ε Unit} {s : σ}
    (hf : ∀ a, (f a).exec s = (check a, s)) (l : List α) :
    (l.forM f).exec s = (l.forM check, s) := by
  induction l with
  | nil => rfl
  | cons a l ih =>
    change (f a >>= fun _ => l.forM f).exec s = (check a >>= fun _ => l.forM check, s)
    cases hcheck : check a with
    | error err => exact exec_bind_of_error (hcheck ▸ hf a)
    | ok u =>
      rw [exec_bind_of_ok (hcheck ▸ hf a), ih]
      rfl

end InPlace

end Foundation
