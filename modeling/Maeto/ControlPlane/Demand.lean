import Maeto.ControlPlane.Tenants
import Maeto.Foundation.Rounding

/-!
# The demands of a tenant repository

A demand asks for bandwidth of one class between two pops of one tenant. The
sites of a tenant at one pop are taken together: the rate of a pop in a class
is the sum over its sites, and a demand exists between any two pops where both
rates are positive and the class is known.

Two facts carry the reservation invariants. The rates of a demand are the rates
of its two pops, so two demands that share a pop and a class agree on the rate
there (`mem_buildDemands`); and no two demands have the same path key
(`buildDemands_pathKeys_nodup`).
-/

namespace Maeto.ControlPlane

open Foundation GoMap

structure PathKey where
  tenant : TenantID
  fromNode : NodeID
  toNode : NodeID
  label : Label
  deriving DecidableEq, Repr

structure BandwidthReservationKey where
  sourcePop : NodeID
  sinkPop : NodeID
  label : Label
  deriving DecidableEq, Repr

structure BandwidthReservation where
  key : BandwidthReservationKey
  sourceBandwidth : ℚ
  sinkBandwidth : ℚ
  deriving DecidableEq

structure Demand where
  tenant : Tenant
  trafficClass : TrafficClass
  fromNode : NodeID
  toNode : NodeID
  fromMbps : ℚ
  toMbps : ℚ

namespace Demand

def pathKey (d : Demand) : PathKey :=
  { tenant := d.tenant.id, fromNode := d.fromNode, toNode := d.toNode,
    label := d.trafficClass.label }

def bandwidthReservation (d : Demand) : BandwidthReservation :=
  { key := { sourcePop := d.fromNode, sinkPop := d.toNode, label := d.trafficClass.label }
    sourceBandwidth := d.fromMbps
    sinkBandwidth := d.toMbps }

def isLabelDefault (l : Label) : ℤ := if l = defaultClassLabel then 1 else 0

def cmp (a b : Demand) : Ordering :=
  (compare (isLabelDefault a.trafficClass.label) (isLabelDefault b.trafficClass.label)).then <|
  (compare b.tenant.tierIndex a.tenant.tierIndex).then <|
  (compare b.trafficClass.index a.trafficClass.index).then <|
  (compare a.tenant.id b.tenant.id).then <|
  (compare a.fromNode b.fromNode).then <|
  compare a.toNode b.toNode

end Demand

abbrev PopRates := GoMap NodeID (GoMap Label ℚ)

def addRate [Rounding] (pop : NodeID) (rates : PopRates) (e : Label × ℚ) : PopRates :=
  rates.insert pop
    ((rates.getD pop ∅).insert e.1 (Rounding.add ((rates.getD pop ∅).getD e.1 0) e.2))

def addSite [Rounding] (ords : Site → RangeOrder) (rates : PopRates) (site : Site) : PopRates :=
  let rates := match rates.lookup site.attach with
    | some _ => rates
    | none => rates.insert site.attach ∅
  (site.classMbps.range (ords site)).foldl (addRate site.attach) rates

def popsWithLabels [Rounding] (ords : Site → RangeOrder) (t : Tenant) : PopRates :=
  t.sites.foldl (addSite ords) ∅

def PopRates.rate (rates : PopRates) (pop : NodeID) (label : Label) : ℚ :=
  (rates.getD pop ∅).getD label 0

def popMbps (t : Tenant) (pop : NodeID) (label : Label) : ℚ :=
  (popsWithLabels (fun _ => .listed) t).rate pop label

structure DemandOrders where
  tenants : RangeOrder
  classes : Site → RangeOrder
  fromPops : TenantID → RangeOrder
  toPops : TenantID → NodeID → RangeOrder
  labels : TenantID → NodeID → NodeID → RangeOrder

def demandFor (r : TenantRepository) (t : Tenant) (fromNode toNode : NodeID)
    (toClasses : GoMap Label ℚ) (e : Label × ℚ) : Option Demand :=
  if e.2 ≤ 0 ∨ toClasses.getD e.1 0 ≤ 0 then none
  else (r.trafficClass e.1).map fun c =>
    { tenant := t, trafficClass := c, fromNode, toNode,
      fromMbps := e.2, toMbps := toClasses.getD e.1 0 }

def demandsBetween (r : TenantRepository) (ords : DemandOrders) (t : Tenant)
    (src dst : NodeID × GoMap Label ℚ) : List Demand :=
  if src.1 = dst.1 then []
  else (src.2.range (ords.labels t.id src.1 dst.1)).filterMap
    (demandFor r t src.1 dst.1 dst.2)

def tenantDemands [Rounding] (r : TenantRepository) (ords : DemandOrders) (t : Tenant) : List Demand
    :=
  ((popsWithLabels ords.classes t).range (ords.fromPops t.id)).flatMap fun src =>
    ((popsWithLabels ords.classes t).range (ords.toPops t.id src.1)).flatMap fun dst =>
      demandsBetween r ords t src dst

def buildDemands [Rounding] (r : TenantRepository) (ords : DemandOrders) : List Demand :=
  ((r.tenantsByPriority ords.tenants).flatMap (tenantDemands r ords)).insertionSort
    fun a b => Demand.cmp a b ≠ .gt

section Rates

theorem rate_addRate (rates : PopRates) (pop pop' : NodeID) (e : Label × ℚ) (label : Label) :
    (addRate pop rates e).rate pop' label =
      rates.rate pop' label + if pop' = pop ∧ label = e.1 then e.2 else 0 := by
  unfold addRate PopRates.rate
  by_cases hpop : pop' = pop
  · subst hpop
    rw [getD_insert, if_pos rfl, getD_insert]
    split_ifs <;> simp_all
  · rw [getD_insert, if_neg hpop]
    simp [hpop]

theorem rate_foldl_addRate (pop pop' : NodeID) (label : Label) (l : List (Label × ℚ))
    (rates : PopRates) :
    (l.foldl (addRate pop) rates).rate pop' label = rates.rate pop' label +
      (l.map fun e => if pop' = pop ∧ label = e.1 then e.2 else 0).sum := by
  induction l generalizing rates with
  | nil => simp
  | cons e l ih =>
    rw [List.foldl_cons, ih, rate_addRate, List.map_cons, List.sum_cons, add_assoc]

theorem sum_range_eq_getD (ord : RangeOrder) (m : GoMap Label ℚ) (label : Label) :
    ((m.range ord).map fun e => if label = e.1 then e.2 else 0).sum = m.getD label 0 := by
  have hlist : ∀ l : List (Σ _ : Label, ℚ), l.NodupKeys →
      (l.map fun e => if label = e.1 then e.2 else 0).sum = (l.dlookup label).getD 0 := by
    intro l hl
    induction l with
    | nil => rfl
    | cons e l ih =>
      obtain ⟨hnew, hl⟩ := List.nodupKeys_cons.mp hl
      rw [List.map_cons, List.sum_cons, ih hl]
      by_cases hlabel : label = e.1
      · have hnone : l.dlookup label = none := List.dlookup_eq_none.mpr (hlabel ▸ hnew)
        subst hlabel
        rw [hnone, List.dlookup_cons_eq]
        simp
      · obtain ⟨k, v⟩ := e
        rw [List.dlookup_cons_ne _ _ hlabel, if_neg hlabel, zero_add]
  rw [((range_perm ord m).map _).sum_eq, List.map_map]
  exact hlist m.entries m.nodupKeys

theorem rate_addSite (ords : Site → RangeOrder) (rates : PopRates) (site : Site) (pop : NodeID)
    (label : Label) :
    (addSite ords rates site).rate pop label = rates.rate pop label +
      if site.attach = pop then site.classMbps.getD label 0 else 0 := by
  have hsum : ((site.classMbps.range (ords site)).map fun e =>
      if pop = site.attach ∧ label = e.1 then e.2 else 0).sum =
        if site.attach = pop then site.classMbps.getD label 0 else 0 := by
    rw [← sum_range_eq_getD (ords site)]
    by_cases hpop : pop = site.attach
    · simp [hpop]
    · simp [hpop, Ne.symm hpop]
  unfold addSite
  cases hlookup : rates.lookup site.attach with
  | some _ => exact (rate_foldl_addRate _ _ _ _ _).trans (by rw [hsum])
  | none =>
    have hfresh : PopRates.rate (rates.insert site.attach ∅) pop label =
        rates.rate pop label := by
      unfold PopRates.rate
      rw [getD_insert]
      split_ifs with hpop
      · have habsent : rates.getD pop ∅ = ∅ := by rw [hpop, GoMap.getD, hlookup]; rfl
        rw [habsent]
      · rfl
    exact (rate_foldl_addRate _ _ _ _ _).trans (by rw [hsum, hfresh])

theorem rate_popsWithLabels (ords : Site → RangeOrder) (t : Tenant) (pop : NodeID) (label : Label) :
    (popsWithLabels ords t).rate pop label =
      (t.sites.map fun s => if s.attach = pop then s.classMbps.getD label 0 else 0).sum := by
  have hfold : ∀ (l : List Site) (rates : PopRates),
      (l.foldl (addSite ords) rates).rate pop label = rates.rate pop label +
        (l.map fun s => if s.attach = pop then s.classMbps.getD label 0 else 0).sum := by
    intro l
    induction l with
    | nil => simp
    | cons s l ih =>
      intro rates
      rw [List.foldl_cons, ih, rate_addSite, List.map_cons, List.sum_cons, add_assoc]
  have hempty : PopRates.rate ∅ pop label = 0 := by
    rw [PopRates.rate, getD_empty, getD_empty]
  exact (hfold t.sites ∅).trans (by rw [hempty, zero_add])

theorem popMbps_eq_sum (t : Tenant) (pop : NodeID) (label : Label) :
    popMbps t pop label =
      (t.sites.map fun s => if s.attach = pop then s.classMbps.getD label 0 else 0).sum :=
  rate_popsWithLabels _ t pop label

theorem rate_eq_popMbps (ords : Site → RangeOrder) (t : Tenant) (pop : NodeID) (label : Label) :
    (popsWithLabels ords t).rate pop label = popMbps t pop label := by
  rw [popMbps_eq_sum, rate_popsWithLabels]

end Rates

variable {r : TenantRepository} {d : Demand}

theorem demandFor_eq_some {t : Tenant} {fromNode toNode : NodeID}
    {toClasses : GoMap Label ℚ} {e : Label × ℚ}
    (h : demandFor r t fromNode toNode toClasses e = some d) :
    d.tenant = t ∧ d.fromNode = fromNode ∧ d.toNode = toNode ∧ d.trafficClass.label = e.1 ∧
      d.fromMbps = e.2 ∧ d.toMbps = toClasses.getD e.1 0 ∧ 0 < d.fromMbps ∧ 0 < d.toMbps := by
  unfold demandFor at h
  split_ifs at h with hpos
  obtain ⟨c, hc, rfl⟩ := Option.map_eq_some_iff.mp h
  rw [not_or, not_le, not_le] at hpos
  exact ⟨rfl, rfl, rfl, r.classes_label e.1 c hc, rfl, rfl, hpos⟩

theorem mem_tenantDemands {ords : DemandOrders} {t : Tenant} (h : d ∈ tenantDemands r ords t) :
    d.tenant = t ∧ d.fromNode ≠ d.toNode ∧
      d.fromMbps = popMbps t d.fromNode d.trafficClass.label ∧
      d.toMbps = popMbps t d.toNode d.trafficClass.label ∧ 0 < d.fromMbps ∧ 0 < d.toMbps := by
  simp only [tenantDemands, demandsBetween, List.mem_flatMap] at h
  obtain ⟨⟨src, fromClasses⟩, hsrc, ⟨dst, toClasses⟩, hdst, hd⟩ := h
  split_ifs at hd with hne
  · cases hd
  · obtain ⟨⟨label, fromMbps⟩, hlabel, hdemand⟩ := List.mem_filterMap.mp hd
    rw [mem_range] at hsrc hdst hlabel
    obtain ⟨ht, hf, hto, hl, hfm, htm, hpos⟩ := demandFor_eq_some hdemand
    have hfrom : (popsWithLabels ords.classes t).getD src ∅ = fromClasses := by
      simp [GoMap.getD, hsrc]
    have hto' : (popsWithLabels ords.classes t).getD dst ∅ = toClasses := by
      simp [GoMap.getD, hdst]
    refine ⟨ht, by rw [hf, hto]; exact hne, ?_, ?_, hpos⟩
    · rw [← rate_eq_popMbps ords.classes, PopRates.rate, hf, hl, hfrom, hfm]
      simp [GoMap.getD, hlabel]
    · rw [← rate_eq_popMbps ords.classes, PopRates.rate, hto, hl, hto', htm]

theorem buildDemands_perm (r : TenantRepository) (ords : DemandOrders) :
    (buildDemands r ords).Perm
      ((r.tenantsByPriority ords.tenants).flatMap (tenantDemands r ords)) :=
  List.perm_insertionSort _ _

theorem mem_buildDemands {ords : DemandOrders} (h : d ∈ buildDemands r ords) :
    r.tenant d.tenant.id = some d.tenant ∧ d.fromNode ≠ d.toNode ∧
      d.fromMbps = popMbps d.tenant d.fromNode d.trafficClass.label ∧
      d.toMbps = popMbps d.tenant d.toNode d.trafficClass.label ∧
      0 < d.fromMbps ∧ 0 < d.toMbps := by
  rw [(buildDemands_perm r ords).mem_iff, List.mem_flatMap] at h
  obtain ⟨t, ht, hd⟩ := h
  obtain ⟨rfl, hrest⟩ := mem_tenantDemands hd
  exact ⟨(r.mem_tenantsByPriority ords.tenants d.tenant).mp ht, hrest⟩

section PathKeys

variable (r : TenantRepository) (ords : DemandOrders) (t : Tenant)

theorem demandsBetween_pathKeys (src dst : NodeID × GoMap Label ℚ) {k : PathKey}
    (h : k ∈ (demandsBetween r ords t src dst).map Demand.pathKey) :
    k.tenant = t.id ∧ k.fromNode = src.1 ∧ k.toNode = dst.1 := by
  obtain ⟨d, hd, rfl⟩ := List.mem_map.mp h
  unfold demandsBetween at hd
  split_ifs at hd with hne
  · cases hd
  · obtain ⟨e, _, hdemand⟩ := List.mem_filterMap.mp hd
    obtain ⟨ht, hf, hto, _⟩ := demandFor_eq_some hdemand
    exact ⟨by rw [Demand.pathKey, ht], hf, hto⟩

theorem demandsBetween_pathKeys_nodup (src dst : NodeID × GoMap Label ℚ) :
    ((demandsBetween r ords t src dst).map Demand.pathKey).Nodup := by
  unfold demandsBetween
  split_ifs with hne
  · simp
  · have hkeys := range_keys_nodup (ords.labels t.id src.1 dst.1) src.2
    generalize GoMap.range (ords.labels t.id src.1 dst.1) src.2 = l at hkeys
    induction l with
    | nil => simp
    | cons e l ih =>
      rw [List.map_cons, List.nodup_cons] at hkeys
      rw [List.filterMap_cons]
      cases hdemand : demandFor r t src.1 dst.1 dst.2 e with
      | none => exact ih hkeys.2
      | some d =>
        rw [List.map_cons, List.nodup_cons]
        refine ⟨?_, ih hkeys.2⟩
        intro hmem
        obtain ⟨d', hd', hkey⟩ := List.mem_map.mp hmem
        obtain ⟨e', he', hdemand'⟩ := List.mem_filterMap.mp hd'
        have hlabel : e'.1 = e.1 := by
          rw [← (demandFor_eq_some hdemand').2.2.2.1, ← (demandFor_eq_some hdemand).2.2.2.1]
          exact congrArg PathKey.label hkey
        exact hkeys.1 (List.mem_map.mpr ⟨e', he', hlabel⟩)

/-- The path keys of demands built in a loop over entries with distinct keys are
distinct when the keys of each round tell its entry. -/
theorem flatMap_pathKeys_nodup {α β : Type} (l : List α) (key : α → β)
    (f : α → List Demand) (read : PathKey → β) (hl : (l.map key).Nodup)
    (hread : ∀ a ∈ l, ∀ k ∈ (f a).map Demand.pathKey, read k = key a)
    (hf : ∀ a ∈ l, ((f a).map Demand.pathKey).Nodup) :
    ((l.flatMap f).map Demand.pathKey).Nodup := by
  rw [List.map_flatMap, List.nodup_flatMap]
  refine ⟨hf, ?_⟩
  rw [List.Nodup, List.pairwise_map] at hl
  refine hl.imp_of_mem ?_
  intro a b ha hb hne k hka hkb
  exact hne ((hread a ha k hka).symm.trans (hread b hb k hkb))

theorem tenantDemands_pathKeys {k : PathKey}
    (h : k ∈ (tenantDemands r ords t).map Demand.pathKey) : k.tenant = t.id := by
  obtain ⟨d, hd, rfl⟩ := List.mem_map.mp h
  rw [Demand.pathKey, (mem_tenantDemands hd).1]

theorem tenantDemands_pathKeys_nodup :
    ((tenantDemands r ords t).map Demand.pathKey).Nodup := by
  apply flatMap_pathKeys_nodup _ Prod.fst _ PathKey.fromNode
    (range_keys_nodup (ords.fromPops t.id) (popsWithLabels ords.classes t))
  · intro src _ k hk
    rw [List.map_flatMap, List.mem_flatMap] at hk
    obtain ⟨dst, _, hk⟩ := hk
    exact (demandsBetween_pathKeys r ords t src dst hk).2.1
  · intro src _
    apply flatMap_pathKeys_nodup _ Prod.fst _ PathKey.toNode
      (range_keys_nodup (ords.toPops t.id src.1) (popsWithLabels ords.classes t))
    · intro dst _ k hk
      exact (demandsBetween_pathKeys r ords t src dst hk).2.2
    · intro dst _
      exact demandsBetween_pathKeys_nodup r ords t src dst

end PathKeys

theorem buildDemands_pathKeys_nodup (r : TenantRepository) (ords : DemandOrders) :
    ((buildDemands r ords).map Demand.pathKey).Nodup := by
  rw [((buildDemands_perm r ords).map Demand.pathKey).nodup_iff]
  apply flatMap_pathKeys_nodup _ Tenant.id _ PathKey.tenant
    (r.tenantsByPriority_ids_nodup ords.tenants)
  · intro t _ k hk
    exact tenantDemands_pathKeys r ords t hk
  · intro t _
    exact tenantDemands_pathKeys_nodup r ords t

end Maeto.ControlPlane
