import Mathlib.Tactic.NormNum
import Maeto.ControlPlane.CostGraph
import Maeto.Foundation.Result

/-!
# Costs that are measured

The path search needs costs that are not negative, and an infinite cost is meant for links
that cannot be used. The cost graph starts with such costs (`newCostGraph_measured`) and keeps
them when what is written is of that kind (`Costs.Measured.updateCost`). The static utilization
is the one dimension in which a cost may be infinite.
-/

namespace Maeto.ControlPlane

open Foundation GoMap

/-- No cost of the link is negative, and only its static utilization may be infinite. -/
def Cost.Measured (cost : Cost) : Prop :=
  ∀ dim c, cost.lookup dim = some c → 0 ≤ c ∧ (dim ≠ .staticUtilization → c ≠ ⊤)

def Costs.Measured (costs : Costs) : Prop :=
  ∀ key cost, costs.lookup key = some cost → Cost.Measured cost

theorem Cost.measured_empty : Cost.Measured ∅ :=
  forall_lookup_empty _

theorem Costs.measured_empty : Costs.Measured ∅ :=
  forall_lookup_empty _

variable {cost : Cost} {dim : CostDimension}

theorem Cost.Measured.insert (h : cost.Measured) {c : ExtCost}
    (hnonneg : 0 ≤ c) (hfinite : dim ≠ .staticUtilization → c ≠ ⊤) :
    Cost.Measured (AList.insert dim c cost) :=
  forall_lookup_insert
    (P := fun dim c => 0 ≤ c ∧ (dim ≠ CostDimension.staticUtilization → c ≠ ⊤)) h
    ⟨hnonneg, hfinite⟩

theorem Cost.Measured.getD_nonneg (h : cost.Measured) (dim : CostDimension) :
    0 ≤ cost.getD dim 0 := by
  rw [GoMap.getD]
  cases hc : cost.lookup dim with
  | none => exact le_rfl
  | some c => exact (h dim c hc).1

theorem Cost.Measured.getD_ne_top (h : cost.Measured)
    (hdim : dim ≠ .staticUtilization) : cost.getD dim 0 ≠ ⊤ := by
  rw [GoMap.getD]
  cases hc : cost.lookup dim with
  | none => exact WithTop.zero_ne_top
  | some c => exact (h dim c hc).2 hdim

theorem Costs.Measured.updateCost {cg : CostGraph} (h : cg.costs.Measured) (id : EdgeID)
    {c : ExtCost} (hnonneg : 0 ≤ c)
    (hfinite : dim ≠ .staticUtilization → c ≠ ⊤) : (cg.updateCost id dim c).costs.Measured := by
  unfold CostGraph.updateCost
  split
  · exact h
  · next key _ =>
      refine forall_lookup_insert h (Cost.Measured.insert ?_ hnonneg hfinite)
      rw [GoMap.getD]
      cases hold : cg.graph.lookup key with
      | none => exact Cost.measured_empty
      | some cost => exact h key cost hold

theorem staticUtilizationCost_nonneg {f : ℚ} (hf : 0 ≤ f) : 0 ≤ staticUtilizationCost f := by
  unfold staticUtilizationCost
  split_ifs with hfull
  · exact le_top
  · have hfree : 0 ≤ 1 - f := sub_nonneg.mpr (not_le.mp hfull).le
    have href : 0 ≤ convexUtilization staticUtilizationRef := by
      norm_num [convexUtilization, staticUtilizationRef]
    exact WithTop.coe_nonneg.mpr (div_nonneg (div_nonneg hf hfree) href)

theorem initialCost_measured {e : Edge} (hdelay : 0 ≤ e.delay) :
    (CostGraph.initialCost e).Measured := by
  have hlatency : (0 : ℚ) ≤ (e.delay : ℚ) / 1000 / costDelayReferenceMs := by
    have hrat : (0 : ℚ) ≤ e.delay := Int.cast_nonneg hdelay
    have href : (0 : ℚ) ≤ costDelayReferenceMs := by norm_num [costDelayReferenceMs]
    exact div_nonneg (div_nonneg hrat (by norm_num)) href
  unfold CostGraph.initialCost
  refine (((Cost.measured_empty.insert zero_le_one ?_).insert ?_ ?_).insert zero_le_one ?_).insert
    (staticUtilizationCost_nonneg le_rfl) (fun h => absurd rfl h)
  · exact fun _ => WithTop.one_ne_top
  · exact WithTop.coe_nonneg.mpr hlatency
  · exact fun _ => WithTop.coe_ne_top
  · exact fun _ => WithTop.one_ne_top

theorem newCostGraph_measured {ord : RangeOrder} {g : Graph} {startedAt : Time} {cg : CostGraph}
    (hdelay : ∀ id e, g.edges.lookup id = some e → 0 ≤ e.delay)
    (hok : CostGraph.newCostGraph ord g startedAt = .ok cg) : cg.costs.Measured := by
  refine @Result.foldlM_induction _ _ _ _ (fun _ cg => cg.costs.Measured) _ _ _ ?_ ?_ hok
  · exact Costs.measured_empty
  · intro _ n cg cg' _ h hok
    refine @Result.foldlM_induction _ _ _ _ (fun _ cg => cg.costs.Measured) _ _ _ h ?_ hok
    intro _ id cg cg' _ h hok
    unfold CostGraph.addEdge at hok
    split at hok
    · cases hok
    · next edge hedge =>
        split at hok
        · cases hok
          exact h
        · cases hok
          exact forall_lookup_insert h (initialCost_measured (hdelay id edge hedge))

end Maeto.ControlPlane
