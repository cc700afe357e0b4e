import Maeto.ControlPlane.CostGraph

/-!
# Tenants, sites and traffic classes

The repository holds the traffic classes by label and the tenants by id, with
indexes of the sites by identity, portal and pop. It is filled by the loader
only, which stores every class under its own label, every tenant under its own
id, every site under its own portal id, and refuses an objective weight that is
not positive; these are fields of the structures.
-/

namespace Maeto.ControlPlane

open Foundation Netip GoMap

abbrev TenantID := ℤ

abbrev Label := UInt64

def defaultClassLabel : Label := 0

structure TrafficClass where
  name : String
  label : Label
  index : ℤ
  dscp : List ℤ
  objective : GoMap CostDimension ℚ
  objective_pos : ∀ dim w, objective.lookup dim = some w → 0 < w

structure Site where
  tenantID : TenantID
  cpe : String
  portalID : String
  node : String
  sitePrefix : Prefix
  attach : String
  attachNode : String
  ifID : UInt32
  identity : String
  reservationMbps : ℚ
  classMbps : GoMap Label ℚ

structure Tenant where
  id : TenantID
  allocation : Prefix
  tier : String
  tierIndex : ℤ
  vrfTable : ℤ
  sites : List Site

structure TenantRepository where
  classes : GoMap Label TrafficClass
  byID : GoMap TenantID Tenant
  byIdentity : GoMap String Site
  byPortalID : GoMap String Site
  byPop : GoMap String (List Site)
  classes_label : ∀ l c, classes.lookup l = some c → c.label = l
  byID_id : ∀ id t, byID.lookup id = some t → t.id = id
  byPortalID_portalID : ∀ p s, byPortalID.lookup p = some s → s.portalID = p

namespace TenantRepository

def tenant (r : TenantRepository) (id : TenantID) : Option Tenant := r.byID.lookup id

def trafficClass (r : TenantRepository) (label : Label) : Option TrafficClass :=
  r.classes.lookup label

def siteByPortalID (r : TenantRepository) (portalID : String) : Option Site :=
  r.byPortalID.lookup portalID

def tenants (r : TenantRepository) (ord : RangeOrder) : List Tenant :=
  ((r.byID.range ord).map Prod.snd).insertionSort fun a b => a.id ≤ b.id

def PriorityLE (a b : Tenant) : Prop :=
  b.tierIndex < a.tierIndex ∨ a.tierIndex = b.tierIndex ∧ a.id ≤ b.id

instance : DecidableRel PriorityLE := fun _ _ => inferInstanceAs (Decidable (_ ∨ _))

def tenantsByPriority (r : TenantRepository) (ord : RangeOrder) : List Tenant :=
  (r.tenants ord).insertionSort PriorityLE

theorem tenantsByPriority_perm (r : TenantRepository) (ord : RangeOrder) :
    (r.tenantsByPriority ord).Perm ((r.byID.range ord).map Prod.snd) :=
  (List.perm_insertionSort _ _).trans (List.perm_insertionSort _ _)

theorem mem_tenantsByPriority (r : TenantRepository) (ord : RangeOrder) (t : Tenant) :
    t ∈ r.tenantsByPriority ord ↔ r.tenant t.id = some t := by
  rw [(r.tenantsByPriority_perm ord).mem_iff, List.mem_map]
  constructor
  · rintro ⟨⟨id, t'⟩, hmem, rfl⟩
    rw [mem_range] at hmem
    rw [tenant, r.byID_id id t' hmem, hmem]
  · intro h
    exact ⟨(t.id, t), (mem_range ord r.byID t.id t).mpr h, rfl⟩

theorem tenantsByPriority_ids_nodup (r : TenantRepository) (ord : RangeOrder) :
    ((r.tenantsByPriority ord).map Tenant.id).Nodup := by
  rw [((r.tenantsByPriority_perm ord).map Tenant.id).nodup_iff, List.map_map]
  have hkeys : (r.byID.range ord).map (Tenant.id ∘ Prod.snd) =
      (r.byID.range ord).map Prod.fst := by
    apply List.map_congr_left
    rintro ⟨id, t⟩ hmem
    exact r.byID_id id t ((mem_range ord r.byID id t).mp hmem)
  rw [hkeys]
  exact range_keys_nodup ord r.byID

end TenantRepository

end Maeto.ControlPlane
