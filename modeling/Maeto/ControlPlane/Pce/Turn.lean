import Maeto.ControlPlane.Pce.Bookings

/-!
# The turn of a demand

A tick goes through its demands one after the other, and no two of them share a path key. So
what a tick does to one key it does at the turn of one demand: before it the entries of the
key are those the tick began with, and after it nothing changes them (`midTick_view`).
-/

namespace Maeto.ControlPlane

open Foundation

section Turn

variable {holdDown : Time} {r : TenantRepository} {input : TickInput} {s : PCEState}

theorem midTick_succ {i : ℕ} {d : Demand} (h : (buildDemands r input.orders)[i]? = some d) :
    midTick holdDown r input s (i + 1) =
      demandStep (input.context holdDown s) (input.env i) (midTick holdDown r input s i) d := by
  have hzip : (buildDemands r input.orders).zipIdx[i]? = some (d, i) := by
    simp [List.getElem?_zipIdx, h]
  unfold midTick
  rw [List.take_add_one, hzip, Option.toList_some, List.foldl_append, List.foldl_cons,
    List.foldl_nil]

theorem midTick_view {α : Type} {V : TickState → α} {k : PathKey}
    (hview : ∀ env st (d : Demand), k ≠ d.pathKey →
      V (demandStep (input.context holdDown s) env st d) = V st)
    {m n : ℕ} (hmn : m ≤ n)
    (hother : ∀ j d, m ≤ j → j < n → (buildDemands r input.orders)[j]? = some d →
      k ≠ d.pathKey) :
    V (midTick holdDown r input s n) = V (midTick holdDown r input s m) := by
  induction n, hmn using Nat.le_induction with
  | base => rfl
  | succ n hmn ih =>
    rw [← ih fun j d hmj hjn => hother j d hmj (Nat.lt_succ_of_lt hjn)]
    cases hd : (buildDemands r input.orders)[n]? with
    | some d =>
      rw [midTick_succ hd]
      exact hview _ _ d (hother n d hmn (Nat.lt_succ_self n) hd)
    | none =>
      have hend := List.getElem?_eq_none_iff.mp hd
      unfold midTick
      rw [List.take_of_length_le (by simpa using Nat.le_succ_of_le hend),
        List.take_of_length_le (by simpa using hend)]

theorem pathKey_ne_of_ne {i j : ℕ} {d d' : Demand} (hij : i ≠ j)
    (hi : (buildDemands r input.orders)[i]? = some d)
    (hj : (buildDemands r input.orders)[j]? = some d') : d.pathKey ≠ d'.pathKey := by
  intro hkey
  have hnodup := buildDemands_pathKeys_nodup r input.orders
  have hlt : i < ((buildDemands r input.orders).map Demand.pathKey).length := by
    simpa using (List.getElem?_eq_some_iff.mp hi).1
  refine hij ((List.getElem?_inj hlt hnodup).mp ?_)
  rw [List.getElem?_map, List.getElem?_map, hi, hj, Option.map_some, Option.map_some, hkey]

theorem place_eq_of_pathKey_eq {i j : ℕ} {d d' : Demand}
    (hi : (buildDemands r input.orders)[i]? = some d)
    (hj : (buildDemands r input.orders)[j]? = some d') (hkey : d.pathKey = d'.pathKey) :
    i = j ∧ d = d' := by
  have hij : i = j := by
    by_contra hne
    exact pathKey_ne_of_ne hne hi hj hkey
  subst hij
  exact ⟨rfl, Option.some.inj (hi.symm.trans hj)⟩

variable {α : Type} {V : TickState → α} {i : ℕ} {d : Demand}

theorem midTick_before (hi : (buildDemands r input.orders)[i]? = some d)
    (hview : ∀ env st (d' : Demand), d.pathKey ≠ d'.pathKey →
      V (demandStep (input.context holdDown s) env st d') = V st) :
    V (midTick holdDown r input s i) = V (input.begin s) :=
  midTick_view hview (Nat.zero_le i) fun _ _ _ hji hj => pathKey_ne_of_ne hji.ne' hi hj

theorem midTick_after (hi : (buildDemands r input.orders)[i]? = some d)
    (hview : ∀ env st (d' : Demand), d.pathKey ≠ d'.pathKey →
      V (demandStep (input.context holdDown s) env st d') = V st) {n : ℕ} (hn : i < n) :
    V (midTick holdDown r input s n) =
      V (demandStep (input.context holdDown s) (input.env i) (midTick holdDown r input s i) d) := by
  rw [← midTick_succ hi]
  exact midTick_view hview hn fun _ _ hij _ hj => pathKey_ne_of_ne (Nat.lt_of_succ_le hij).ne hi hj

end Turn

end Maeto.ControlPlane
