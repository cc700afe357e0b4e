import Mathlib.Data.String.Basic
import Maeto.ControlPlane.Demand
import Maeto.Foundation.Sort

/-!
# The order of the demands

Demands are sorted by `Demand.cmp`, which puts the named classes before the default one and
better tiers before worse ones. What a repository demands does not depend on the orders in
which its maps are visited (`mem_buildDemands_iff`).

When tenants of lower tiers join a repository, its named demands stay where they are, at the
start of the list (`buildDemands_named`).
-/

namespace Maeto.ControlPlane

open Foundation

namespace Demand

instance : Std.TransCmp cmp :=
  inferInstanceAs (Std.TransCmp
    (compareLex (compareOn fun d : Demand => isLabelDefault d.trafficClass.label)
      (compareLex (fun a b => compareOn (fun d : Demand => d.tenant.tierIndex) b a)
        (compareLex (fun a b => compareOn (fun d : Demand => d.trafficClass.index) b a)
          (compareLex (compareOn fun d : Demand => d.tenant.id)
            (compareLex (compareOn fun d : Demand => d.fromNode)
              (compareOn fun d : Demand => d.toNode)))))))

instance : IsTrans Demand fun a b => cmp a b ≠ .gt where
  trans a b c hab hbc := by
    have hle := Std.TransCmp.isLE_trans (Ordering.ne_gt_iff_isLE.mp hab)
      (Ordering.ne_gt_iff_isLE.mp hbc)
    exact Ordering.ne_gt_iff_isLE.mpr hle

instance : Std.Total fun a b : Demand => cmp a b ≠ .gt where
  total a b := by
    by_cases h : cmp a b = .gt
    · right
      rw [Std.OrientedCmp.gt_iff_lt] at h
      simp [h]
    · exact Or.inl h

theorem named_of_cmp {i : ℤ} {a b : Demand} (h : cmp a b ≠ .gt)
    (hb : b.trafficClass.label ≠ defaultClassLabel ∧ i < b.tenant.tierIndex) :
    a.trafficClass.label ≠ defaultClassLabel ∧ i < a.tenant.tierIndex := by
  have hnamed : a.trafficClass.label ≠ defaultClassLabel := by
    intro ha
    have hgt : compare (1 : ℤ) 0 = .gt := rfl
    apply h
    simp [cmp, isLabelDefault, ha, hb.1, hgt]
  refine ⟨hnamed, ?_⟩
  by_contra hlow
  have hlt : a.tenant.tierIndex < b.tenant.tierIndex := lt_of_le_of_lt (not_lt.mp hlow) hb.2
  apply h
  simp [cmp, isLabelDefault, hnamed, hb.1, compare_gt_iff_gt.mpr hlt]

/-- Demands that compare equal differ in their class at most, and their classes have the
same index. -/
theorem cmp_eq_eq {a b : Demand} (h : cmp a b = .eq) :
    isLabelDefault a.trafficClass.label = isLabelDefault b.trafficClass.label ∧
      a.tenant.id = b.tenant.id ∧ a.trafficClass.index = b.trafficClass.index ∧
      a.fromNode = b.fromNode ∧ a.toNode = b.toNode := by
  simp only [cmp, Ordering.then_eq_eq] at h
  obtain ⟨hdefault, -, hindex, hid, hfrom, hto⟩ := h
  exact ⟨compare_eq_iff_eq.mp hdefault, compare_eq_iff_eq.mp hid,
    (compare_eq_iff_eq.mp hindex).symm, compare_eq_iff_eq.mp hfrom, compare_eq_iff_eq.mp hto⟩

end Demand

variable {r : TenantRepository} {t : Tenant} {d : Demand}

theorem demandFor_eq_some_iff {fromNode toNode : NodeID}
    {toClasses : GoMap Label ℚ} {e : Label × ℚ} :
    demandFor r t fromNode toNode toClasses e = some d ↔
      0 < e.2 ∧ 0 < toClasses.getD e.1 0 ∧ ∃ c, r.trafficClass e.1 = some c ∧
        d = ⟨t, c, fromNode, toNode, e.2, toClasses.getD e.1 0⟩ := by
  unfold demandFor
  split_ifs with hpos
  · rw [or_iff_not_imp_left, not_le] at hpos
    simp only [false_iff, not_and]
    intro hfrom hto
    exact absurd (hpos hfrom) (not_le.mpr hto)
  · rw [not_or, not_le, not_le] at hpos
    rw [Option.map_eq_some_iff]
    simp only [hpos.1, hpos.2, true_and, eq_comm (a := d)]

theorem popMbps_of_pos (ords : Site → RangeOrder) {pop : NodeID} {label : Label}
    (h : 0 < popMbps t pop label) :
    ∃ classes, (popsWithLabels ords t).lookup pop = some classes ∧
      classes.lookup label = some (popMbps t pop label) := by
  rw [← rate_eq_popMbps ords] at h ⊢
  unfold PopRates.rate GoMap.getD at h ⊢
  cases hpop : (popsWithLabels ords t).lookup pop with
  | none => simp [hpop] at h
  | some classes =>
    refine ⟨classes, rfl, ?_⟩
    rw [hpop, Option.getD_some] at h
    rw [Option.getD_some]
    cases hlabel : classes.lookup label with
    | none => simp [hlabel] at h
    | some mbps => rfl

theorem mem_tenantDemands_iff {ords : DemandOrders} :
    d ∈ tenantDemands r ords t ↔
      d.tenant = t ∧ r.trafficClass d.trafficClass.label = some d.trafficClass ∧
        d.fromNode ≠ d.toNode ∧
        d.fromMbps = popMbps t d.fromNode d.trafficClass.label ∧
        d.toMbps = popMbps t d.toNode d.trafficClass.label ∧ 0 < d.fromMbps ∧ 0 < d.toMbps := by
  constructor
  · intro h
    obtain ⟨htenant, hne, hfrom, hto, hpos⟩ := mem_tenantDemands h
    refine ⟨htenant, ?_, hne, hfrom, hto, hpos⟩
    simp only [tenantDemands, demandsBetween, List.mem_flatMap] at h
    obtain ⟨src, -, dst, -, hd⟩ := h
    split_ifs at hd
    · cases hd
    · obtain ⟨e, -, hdemand⟩ := List.mem_filterMap.mp hd
      obtain ⟨-, -, c, hc, rfl⟩ := demandFor_eq_some_iff.mp hdemand
      rw [← r.classes_label e.1 c hc] at hc
      exact hc
  · rintro ⟨rfl, hclass, hne, hfrom, hto, hfromPos, htoPos⟩
    obtain ⟨fromClasses, hfromPop, hfromLabel⟩ := popMbps_of_pos ords.classes (hfrom ▸ hfromPos)
    obtain ⟨toClasses, htoPop, htoLabel⟩ := popMbps_of_pos ords.classes (hto ▸ htoPos)
    simp only [tenantDemands, List.mem_flatMap, GoMap.mem_range, Prod.exists]
    refine ⟨d.fromNode, fromClasses, hfromPop, d.toNode, toClasses, htoPop, ?_⟩
    have hrate : toClasses.getD d.trafficClass.label 0 = d.toMbps := by
      rw [GoMap.getD, htoLabel, Option.getD_some, hto]
    rw [demandsBetween, if_neg hne, List.mem_filterMap]
    refine ⟨(d.trafficClass.label, d.fromMbps), ?_, ?_⟩
    · rw [GoMap.mem_range, hfromLabel, hfrom]
    · rw [demandFor_eq_some_iff, hrate]
      exact ⟨hfromPos, htoPos, d.trafficClass, hclass, rfl⟩

theorem mem_buildDemands_iff {ords : DemandOrders} :
    d ∈ buildDemands r ords ↔
      r.tenant d.tenant.id = some d.tenant ∧
        r.trafficClass d.trafficClass.label = some d.trafficClass ∧ d.fromNode ≠ d.toNode ∧
        d.fromMbps = popMbps d.tenant d.fromNode d.trafficClass.label ∧
        d.toMbps = popMbps d.tenant d.toNode d.trafficClass.label ∧
        0 < d.fromMbps ∧ 0 < d.toMbps := by
  rw [(buildDemands_perm r ords).mem_iff, List.mem_flatMap]
  simp only [mem_tenantDemands_iff, r.mem_tenantsByPriority]
  constructor
  · rintro ⟨t, ht, rfl, hrest⟩
    exact ⟨ht, hrest⟩
  · rintro ⟨ht, hrest⟩
    exact ⟨d.tenant, ht, rfl, hrest⟩

theorem buildDemands_nodup (r : TenantRepository) (ords : DemandOrders) :
    (buildDemands r ords).Nodup :=
  (buildDemands_pathKeys_nodup r ords).of_map _

theorem buildDemands_pairwise (r : TenantRepository) (ords : DemandOrders) :
    (buildDemands r ords).Pairwise fun a b => Demand.cmp a b ≠ .gt :=
  List.pairwise_insertionSort _ _

section Tiers

def Demand.namedAbove (i : ℤ) (d : Demand) : Bool :=
  decide (d.trafficClass.label ≠ defaultClassLabel ∧ i < d.tenant.tierIndex)

theorem buildDemands_named_first (i : ℤ) (r : TenantRepository) (ords : DemandOrders) :
    buildDemands r ords = (buildDemands r ords).filter (Demand.namedAbove i) ++
      (buildDemands r ords).filter fun d => !d.namedAbove i := by
  apply filter_append_filter_of_pairwise _ (buildDemands_pairwise r ords)
  intro a _ b _ hab hb
  exact decide_eq_true (Demand.named_of_cmp hab (of_decide_eq_true hb))

/-- `r'` adds to `r` tenants of tier index at most `i`, and all tenants of `r` rank above
`i`. -/
structure TenantRepository.ExtendsBelow (i : ℤ) (r r' : TenantRepository) : Prop where
  classes : ∀ label, r'.trafficClass label = r.trafficClass label
  above : ∀ id t, r.tenant id = some t → i < t.tierIndex
  kept : ∀ id t, r.tenant id = some t → r'.tenant id = some t
  added : ∀ id t, r'.tenant id = some t → r.tenant id = some t ∨ t.tierIndex ≤ i

/-- The loader refuses a class whose index is taken. -/
def TenantRepository.IndexesDistinct (r : TenantRepository) : Prop :=
  ∀ l l' c c', r.trafficClass l = some c → r.trafficClass l' = some c' →
    l ≠ defaultClassLabel → l' ≠ defaultClassLabel → c.index = c'.index → l = l'

variable {i : ℤ} {r r' : TenantRepository}

theorem TenantRepository.ExtendsBelow.tenant_iff (h : r.ExtendsBelow i r') {id : TenantID}
    {t : Tenant} (ht : i < t.tierIndex) : r'.tenant id = some t ↔ r.tenant id = some t := by
  constructor
  · intro h'
    exact (h.added id t h').resolve_right (not_le.mpr ht)
  · exact h.kept id t

theorem TenantRepository.ExtendsBelow.mem_filter_iff (h : r.ExtendsBelow i r')
    (ords ords' : DemandOrders) (d : Demand) :
    d ∈ (buildDemands r' ords').filter (Demand.namedAbove i) ↔
      d ∈ (buildDemands r ords).filter (Demand.namedAbove i) := by
  rw [List.mem_filter, List.mem_filter, and_congr_left_iff]
  intro hnamed
  rw [mem_buildDemands_iff, mem_buildDemands_iff, h.classes,
    h.tenant_iff (of_decide_eq_true hnamed).2]

theorem TenantRepository.ExtendsBelow.perm (h : r.ExtendsBelow i r') (ords ords' : DemandOrders) :
    ((buildDemands r' ords').filter (Demand.namedAbove i)).Perm
      ((buildDemands r ords).filter (Demand.namedAbove i)) :=
  (List.perm_ext_iff_of_nodup ((buildDemands_nodup r' ords').filter _)
    ((buildDemands_nodup r ords).filter _)).mpr (h.mem_filter_iff ords ords')

theorem TenantRepository.IndexesDistinct.eq_of_cmp (h : r.IndexesDistinct) {ords : DemandOrders}
    {a b : Demand} (ha : a ∈ buildDemands r ords) (hb : b ∈ buildDemands r ords)
    (hab : Demand.cmp a b ≠ .gt) (hba : Demand.cmp b a ≠ .gt) : a = b := by
  have heq : Demand.cmp a b = .eq := by
    cases hcmp : Demand.cmp a b with
    | eq => rfl
    | gt => exact absurd hcmp hab
    | lt => exact absurd (Std.OrientedCmp.gt_iff_lt.mpr hcmp) hba
  obtain ⟨hdefault, hid, hindex, hfrom, hto⟩ := Demand.cmp_eq_eq heq
  have hlabel : a.trafficClass.label = b.trafficClass.label := by
    unfold Demand.isLabelDefault at hdefault
    split_ifs at hdefault with hna hnb hnb
    · rw [hna, hnb]
    · exact absurd hdefault one_ne_zero
    · exact absurd hdefault zero_ne_one
    · exact h _ _ _ _ (mem_buildDemands_iff.mp ha).2.1 (mem_buildDemands_iff.mp hb).2.1 hna hnb
        hindex
  have hkey : a.pathKey = b.pathKey := by
    simp [Demand.pathKey, hid, hfrom, hto, hlabel]
  exact List.inj_on_of_nodup_map (buildDemands_pathKeys_nodup r ords) ha hb hkey

instance : IsTrans Tenant TenantRepository.PriorityLE where
  trans a b c hab hbc := by
    unfold TenantRepository.PriorityLE at *
    grind

instance : Std.Total TenantRepository.PriorityLE where
  total a b := by
    unfold TenantRepository.PriorityLE
    grind

theorem TenantRepository.ExtendsBelow.tenantsByPriority_filter (h : r.ExtendsBelow i r')
    (ord : RangeOrder) :
    (r'.tenantsByPriority ord).filter (fun t => decide (i < t.tierIndex)) =
      r.tenantsByPriority ord := by
  have hmem : ∀ t, t ∈ (r'.tenantsByPriority ord).filter (fun t => decide (i < t.tierIndex)) ↔
      t ∈ r.tenantsByPriority ord := by
    intro t
    rw [List.mem_filter, r'.mem_tenantsByPriority, r.mem_tenantsByPriority, decide_eq_true_eq]
    constructor
    · rintro ⟨ht, habove⟩
      exact (h.tenant_iff habove).mp ht
    · intro ht
      exact ⟨h.kept _ t ht, h.above _ t ht⟩
  have hperm := (List.perm_ext_iff_of_nodup
    (((r'.tenantsByPriority_ids_nodup ord).of_map _).filter _)
    ((r.tenantsByPriority_ids_nodup ord).of_map _)).mpr hmem
  refine hperm.eq_of_pairwise ?_ ((List.pairwise_insertionSort _ _).filter _)
    (List.pairwise_insertionSort _ _)
  intro a b ha hb hab hba
  have hid : a.id = b.id := by
    unfold PriorityLE at hab hba
    grind
  have hta := (r.mem_tenantsByPriority ord a).mp ((hmem a).mp ha)
  have htb := (r.mem_tenantsByPriority ord b).mp hb
  rw [hid, htb] at hta
  exact (Option.some.inj hta).symm

theorem TenantRepository.ExtendsBelow.flatMap_filter (h : r.ExtendsBelow i r')
    (ords : DemandOrders) :
    ((r'.tenantsByPriority ords.tenants).flatMap (tenantDemands r' ords)).filter
        (Demand.namedAbove i) =
      ((r.tenantsByPriority ords.tenants).flatMap (tenantDemands r ords)).filter
        (Demand.namedAbove i) := by
  have hdemands : tenantDemands r' ords = tenantDemands r ords := by
    funext t
    unfold tenantDemands demandsBetween demandFor
    simp only [h.classes]
  rw [List.filter_flatMap, List.filter_flatMap, ← h.tenantsByPriority_filter ords.tenants, hdemands]
  induction r'.tenantsByPriority ords.tenants with
  | nil => rfl
  | cons t ts ih =>
    rw [List.flatMap_cons, List.filter_cons, ih]
    split_ifs with ht
    · rw [List.flatMap_cons]
    · -- a tenant of a lower tier has no demand among them
      have hnone : (tenantDemands r ords t).filter (Demand.namedAbove i) = [] := by
        rw [List.filter_eq_nil_iff]
        intro d hd hnamed
        rw [← (mem_tenantDemands hd).1] at ht
        exact ht (decide_eq_true (of_decide_eq_true hnamed).2)
      rw [hnone, List.nil_append]

/-- The named demands of a repository keep their order when tenants of lower tiers join it,
if no two classes have the same index or ties are broken alike. -/
theorem buildDemands_named (h : r.ExtendsBelow i r') {ords ords' : DemandOrders}
    (hties : r.IndexesDistinct ∨ ords' = ords) :
    (buildDemands r' ords').filter (Demand.namedAbove i) =
      (buildDemands r ords).filter (Demand.namedAbove i) := by
  rcases hties with hdistinct | rfl
  · refine (h.perm ords ords').eq_of_pairwise ?_ ((buildDemands_pairwise r' ords').filter _)
      ((buildDemands_pairwise r ords).filter _)
    intro a b ha hb hab hba
    obtain ⟨ha, -⟩ := List.mem_filter.mp ((h.mem_filter_iff ords ords' a).mp ha)
    obtain ⟨hb, -⟩ := List.mem_filter.mp hb
    exact hdistinct.eq_of_cmp ha hb hab hba
  · unfold buildDemands
    rw [filter_insertionSort, filter_insertionSort, h.flatMap_filter]

end Tiers

end Maeto.ControlPlane
