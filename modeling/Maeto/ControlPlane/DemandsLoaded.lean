import Maeto.ControlPlane.TenantLoaded

/-!
# The demands of a loaded repository

`BuildDemands` goes through four maps in any order and sorts what it finds by a comparison
that does not read the label of a class. The loader refuses two classes with one index, so
no two demands of a repository that was loaded compare equal, and the list is the same for
every order of the maps and every way of sorting. It has one demand for each path between
pops where the sites of a tenant ask for a known class on both sides (`Demanded`).
-/

namespace Maeto.ControlPlane

open Foundation Netip

def reservedMbps (t : Tenant) (pop : NodeID) (label : Label) : ℚ :=
  ((t.sites.filter fun s => s.attach = pop).map fun s => s.classMbps.getD label 0).sum

theorem popMbps_eq_reservedMbps (t : Tenant) (pop : NodeID) (label : Label) :
    popMbps t pop label = reservedMbps t pop label := by
  rw [popMbps_eq_sum, reservedMbps]
  induction t.sites with
  | nil => rfl
  | cons s sites ih =>
    rw [List.map_cons, List.sum_cons, ih, List.filter_cons]
    split_ifs with hpop hpop' hpop'
    · rw [List.map_cons, List.sum_cons]
    · simp [hpop] at hpop'
    · simp [hpop] at hpop'
    · rw [zero_add]

/-- The tenant asks for the class on both sides. -/
def TenantRepository.Demanded (r : TenantRepository) (k : PathKey) : Prop :=
  k.fromNode ≠ k.toNode ∧ (∃ c, r.trafficClass k.label = some c) ∧
    ∃ t, r.tenant k.tenant = some t ∧ 0 < reservedMbps t k.fromNode k.label ∧
      0 < reservedMbps t k.toNode k.label

namespace Demand

/-- Named classes come before the default one, then higher tiers, then higher classes, and
then the ids of the tenant and of the pops count. -/
def Before (a b : Demand) : Prop :=
  isLabelDefault a.trafficClass.label < isLabelDefault b.trafficClass.label ∨
  isLabelDefault a.trafficClass.label = isLabelDefault b.trafficClass.label ∧
  (b.tenant.tierIndex < a.tenant.tierIndex ∨ a.tenant.tierIndex = b.tenant.tierIndex ∧
  (b.trafficClass.index < a.trafficClass.index ∨ a.trafficClass.index = b.trafficClass.index ∧
  (a.tenant.id < b.tenant.id ∨ a.tenant.id = b.tenant.id ∧
  (a.fromNode < b.fromNode ∨ a.fromNode = b.fromNode ∧ a.toNode < b.toNode))))

theorem cmp_eq_lt_iff {a b : Demand} : cmp a b = .lt ↔ Before a b := by
  unfold cmp Before
  simp only [Ordering.then_eq_lt, compare_lt_iff_lt, compare_eq_iff_eq,
    eq_comm (a := b.tenant.tierIndex), eq_comm (a := b.trafficClass.index)]

end Demand

section Lists

variable {r : TenantRepository}

/-- What the sort may return: the demands that were found, in an order that the comparison
allows. -/
def MayReturn [Rounding] (r : TenantRepository) (ords : DemandOrders) (out : List Demand) : Prop :=
  out.Perm ((r.tenantsByPriority ords.tenants).flatMap (tenantDemands r ords)) ∧
    out.Pairwise fun a b => Demand.cmp a b ≠ .gt

theorem buildDemands_mayReturn (r : TenantRepository) (ords : DemandOrders) :
    MayReturn r ords (buildDemands r ords) :=
  ⟨buildDemands_perm r ords, buildDemands_pairwise r ords⟩

theorem TenantRepository.IndexesDistinct.eq_of_mayReturn (h : r.IndexesDistinct)
    {ords ords' : DemandOrders} {out : List Demand} (hout : MayReturn r ords out) :
    out = buildDemands r ords' := by
  have hmem : ∀ d, d ∈ out ↔ d ∈ buildDemands r ords' := by
    intro d
    rw [hout.1.mem_iff, ← (buildDemands_perm r ords).mem_iff, mem_buildDemands_iff,
      mem_buildDemands_iff]
  have hnodup : out.Nodup :=
    (hout.1.trans (buildDemands_perm r ords).symm).nodup_iff.mpr (buildDemands_nodup r ords)
  have hperm := (List.perm_ext_iff_of_nodup hnodup (buildDemands_nodup r ords')).mpr hmem
  refine hperm.eq_of_pairwise ?_ hout.2 (buildDemands_pairwise r ords')
  intro a b ha hb hab hba
  exact h.eq_of_cmp ((hmem a).mp ha) hb hab hba

theorem TenantRepository.IndexesDistinct.pairwise_before (h : r.IndexesDistinct)
    (ords : DemandOrders) : (buildDemands r ords).Pairwise Demand.Before := by
  have hsorted := (buildDemands_pairwise r ords).and (buildDemands_nodup r ords)
  refine hsorted.imp_of_mem ?_
  rintro a b ha hb ⟨hle, hne⟩
  rw [← Demand.cmp_eq_lt_iff]
  cases hcmp : Demand.cmp a b with
  | lt => rfl
  | gt => exact absurd hcmp hle
  | eq =>
    have hge : Demand.cmp b a ≠ .gt := by
      rw [Std.OrientedCmp.eq_comm.mp hcmp]
      decide
    exact absurd (h.eq_of_cmp ha hb hle hge) hne

theorem mem_pathKeys_iff (r : TenantRepository) (ords : DemandOrders) (k : PathKey) :
    k ∈ (buildDemands r ords).map Demand.pathKey ↔ r.Demanded k := by
  rw [List.mem_map]
  constructor
  · rintro ⟨d, hd, rfl⟩
    obtain ⟨htenant, hclass, hne, hfrom, hto, hfromPos, htoPos⟩ := mem_buildDemands_iff.mp hd
    rw [hfrom, popMbps_eq_reservedMbps] at hfromPos
    rw [hto, popMbps_eq_reservedMbps] at htoPos
    exact ⟨hne, ⟨d.trafficClass, hclass⟩, d.tenant, htenant, hfromPos, htoPos⟩
  · rintro ⟨hne, ⟨c, hc⟩, t, ht, hfrom, hto⟩
    have hid : t.id = k.tenant := r.byID_id _ t ht
    have hlabel : c.label = k.label := r.classes_label _ c hc
    refine ⟨⟨t, c, k.fromNode, k.toNode, popMbps t k.fromNode k.label,
      popMbps t k.toNode k.label⟩, mem_buildDemands_iff.mpr ?_, ?_⟩
    · simp only [hid, hlabel, popMbps_eq_reservedMbps]
      exact ⟨ht, hc, hne, trivial, trivial, hfrom, hto⟩
    · simp only [Demand.pathKey, hid, hlabel]

end Lists

/-- A repository that was loaded has one list of demands, in whatever order its maps are
visited and however ties are sorted. -/
theorem buildDemands_of_load (parsePrefix : String → Option Prefix) (lords : LoadOrders)
    (raw : RawTenantDB) (r : TenantRepository) (hload : load parsePrefix lords raw = .ok r) :
    ∃ demands : List Demand,
      (∀ ords, buildDemands r ords = demands) ∧
      (∀ ords out, MayReturn r ords out → out = demands) ∧
      (demands.map Demand.pathKey).Nodup ∧
      (∀ k, k ∈ demands.map Demand.pathKey ↔ r.Demanded k) ∧
      (∀ d ∈ demands, r.tenant d.tenant.id = some d.tenant ∧
        r.trafficClass d.trafficClass.label = some d.trafficClass ∧
        d.fromMbps = reservedMbps d.tenant d.fromNode d.trafficClass.label ∧
        d.toMbps = reservedMbps d.tenant d.toNode d.trafficClass.label) ∧
      demands.Pairwise Demand.Before ∧ demands.Pairwise fun a b => Demand.cmp a b ≠ .eq := by
  obtain ⟨sites, hloaded⟩ := load_loaded hload
  have hdistinct := hloaded.indexes_distinct
  have hords : DemandOrders := ⟨.listed, fun _ => .listed, fun _ => .listed,
    fun _ _ => .listed, fun _ _ _ => .listed⟩
  have hbefore := hdistinct.pairwise_before hords
  refine ⟨buildDemands r hords, ?_, ?_, buildDemands_pathKeys_nodup r hords,
    mem_pathKeys_iff r hords, ?_, hbefore, ?_⟩
  · intro ords
    exact hdistinct.eq_of_mayReturn (buildDemands_mayReturn r ords)
  · intro ords out hout
    exact hdistinct.eq_of_mayReturn hout
  · intro d hd
    obtain ⟨htenant, hclass, -, hfrom, hto, -, -⟩ := mem_buildDemands_iff.mp hd
    rw [popMbps_eq_reservedMbps] at hfrom hto
    exact ⟨htenant, hclass, hfrom, hto⟩
  · refine hbefore.imp ?_
    intro a b hab heq
    rw [← Demand.cmp_eq_lt_iff, heq] at hab
    cases hab

/-- The two sites of one tenant ask for voice in both directions. -/
theorem smallTenantDB_demands : ∃ r, load smallPrefix .listed smallTenantDB = .ok r ∧
    ∃ demands, (∀ ords, buildDemands r ords = demands) ∧
      ∀ k, k ∈ demands.map Demand.pathKey ↔ r.Demanded k := by
  have hok : (load smallPrefix .listed smallTenantDB).isOk = true := by decide +kernel
  cases hload : load smallPrefix .listed smallTenantDB with
  | error err =>
    rw [hload] at hok
    cases hok
  | ok r =>
    obtain ⟨demands, hall, -, -, hkeys, -⟩ := buildDemands_of_load _ _ _ r hload
    exact ⟨r, rfl, demands, hall, hkeys⟩

end Maeto.ControlPlane
