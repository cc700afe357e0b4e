import Mathlib.Algebra.Order.BigOperators.Group.List
import Mathlib.Data.Multiset.Filter
import Mathlib.Algebra.BigOperators.Group.Multiset.Basic
import Maeto.ControlPlane.TenantLoaded

/-!
# What a repository holds, whatever the order

Two repositories hold the same when they agree up to the order of the sites of a tenant and
of a pop, and up to the order in which maps happen to be listed. The view of a repository is
what remains: maps are functions and lists of sites are multisets. The demands of a
repository depend on its view only (`buildDemands_view`).
-/

namespace Maeto.ControlPlane

open Foundation Netip GoMap

@[ext] structure SiteView where
  tenantID : TenantID
  cpe : String
  portalID : String
  node : String
  sitePrefix : Prefix
  attach : String
  attachNode : String
  ifID : UInt32
  identity : String
  reservationMbps : ℚ
  classMbps : Label → Option ℚ

def Site.view (s : Site) : SiteView :=
  { tenantID := s.tenantID, cpe := s.cpe, portalID := s.portalID, node := s.node,
    sitePrefix := s.sitePrefix, attach := s.attach, attachNode := s.attachNode, ifID := s.ifID,
    identity := s.identity, reservationMbps := s.reservationMbps,
    classMbps := fun label => s.classMbps.lookup label }

@[ext] structure ClassView where
  name : String
  label : Label
  index : ℤ
  dscp : List ℤ
  objective : CostDimension → Option ℚ

def TrafficClass.view (c : TrafficClass) : ClassView :=
  { name := c.name, label := c.label, index := c.index, dscp := c.dscp,
    objective := fun dim => c.objective.lookup dim }

@[ext] structure TenantView where
  id : TenantID
  allocation : Prefix
  tier : String
  tierIndex : ℤ
  vrfTable : ℤ
  sites : Multiset SiteView

def Tenant.view (t : Tenant) : TenantView :=
  { id := t.id, allocation := t.allocation, tier := t.tier, tierIndex := t.tierIndex,
    vrfTable := t.vrfTable, sites := t.sites.map Site.view }

@[ext] structure RepositoryView where
  classes : Label → Option ClassView
  byID : TenantID → Option TenantView
  byIdentity : String → Option SiteView
  byPortalID : String → Option SiteView
  byPop : String → Option (Multiset SiteView)

def TenantRepository.view (r : TenantRepository) : RepositoryView :=
  { classes := fun label => (r.classes.lookup label).map TrafficClass.view,
    byID := fun id => (r.byID.lookup id).map Tenant.view,
    byIdentity := fun identity => (r.byIdentity.lookup identity).map Site.view,
    byPortalID := fun portalID => (r.byPortalID.lookup portalID).map Site.view,
    byPop := fun pop => (r.byPop.lookup pop).map fun sites => (sites.map Site.view : Multiset _) }

/-! ### Indexes of the same sites -/

section Indexes

variable {sites sites' : List Site}

theorem filter_view {κ : Type} [DecidableEq κ] (key : Site → κ) (viewKey : SiteView → κ)
    (hkey : ∀ s : Site, viewKey s.view = key s) (k : κ) (l : List Site) :
    (l.filter fun s => key s = k).map Site.view =
      (l.map Site.view).filter fun v => viewKey v = k := by
  rw [List.filter_map]
  congr 1
  exact List.filter_congr fun s _ => by rw [Function.comp_apply, hkey]

theorem lookup_group_view (hsites : (sites.map Site.view).Perm (sites'.map Site.view))
    (pop : String) :
    ((GoMap.group Site.attach sites).lookup pop).map
        (fun l => (l.map Site.view : Multiset SiteView)) =
      ((GoMap.group Site.attach sites').lookup pop).map
        fun l => (l.map Site.view : Multiset SiteView) := by
  have hfilter := hsites.filter fun v => v.attach = pop
  rw [← filter_view Site.attach SiteView.attach (fun _ => rfl),
    ← filter_view Site.attach SiteView.attach (fun _ => rfl)] at hfilter
  have hnil : sites.filter (fun s => s.attach = pop) = [] ↔
      sites'.filter (fun s => s.attach = pop) = [] := by
    rw [← List.length_eq_zero_iff, ← List.length_eq_zero_iff]
    simpa using iff_of_eq (congrArg (· = 0) hfilter.length_eq)
  rw [lookup_group, lookup_group]
  split_ifs with h h' h'
  · rfl
  · exact absurd (hnil.mp h) h'
  · exact absurd (hnil.mpr h') h
  · rw [Option.map_some, Option.map_some, Multiset.coe_eq_coe.mpr hfilter]

def Tenant.head (t : Tenant) : Tenant := { t with sites := [] }

theorem view_eq {r r' : TenantRepository}
    (hclasses : ∀ label, (r.classes.lookup label).map TrafficClass.view =
      (r'.classes.lookup label).map TrafficClass.view)
    (hheads : ∀ id, (r.byID.lookup id).map Tenant.head = (r'.byID.lookup id).map Tenant.head)
    (hsites : (sites.map Site.view).Perm (sites'.map Site.view))
    (hindexes : SiteIndexes r.byIdentity r.byPortalID r.byPop sites)
    (hindexes' : SiteIndexes r'.byIdentity r'.byPortalID r'.byPop sites')
    (htenants : SitesOf r.byID sites) (htenants' : SitesOf r'.byID sites') :
    r.view = r'.view := by
  refine RepositoryView.ext (funext hclasses) (funext fun id => ?_) (funext fun identity => ?_)
    (funext fun portalID => ?_) (funext fun pop => ?_)
  · have hview : ∀ (r : TenantRepository) (l : List Site), SitesOf r.byID l →
        (r.byID.lookup id).map Tenant.view =
          ((r.byID.lookup id).map Tenant.head).map fun t => { t.view with
            sites := ((l.map Site.view).filter fun v => v.tenantID = id : List _) } := by
      intro r l hl
      cases hlookup : r.byID.lookup id with
      | none => rfl
      | some t =>
        rw [Option.map_some, Option.map_some, Option.map_some,
          ← filter_view Site.tenantID SiteView.tenantID (fun _ => rfl),
          ← hl.sites_eq id t hlookup]
        rfl
    have hfilter := hsites.filter fun v => v.tenantID = id
    change (r.byID.lookup id).map Tenant.view = (r'.byID.lookup id).map Tenant.view
    rw [hview r sites htenants, hview r' sites' htenants', hheads,
      Multiset.coe_eq_coe.mpr hfilter]
  · change (r.byIdentity.lookup identity).map _ = (r'.byIdentity.lookup identity).map _
    rw [hindexes.byIdentity_eq, hindexes'.byIdentity_eq]
    exact lookup_collect_view SiteView.identity (fun _ => rfl) hindexes.identities hsites
      identity
  · change (r.byPortalID.lookup portalID).map _ = (r'.byPortalID.lookup portalID).map _
    rw [hindexes.byPortalID_eq, hindexes'.byPortalID_eq]
    exact lookup_collect_view SiteView.portalID (fun _ => rfl) hindexes.portals hsites
      portalID
  · change (r.byPop.lookup pop).map _ = (r'.byPop.lookup pop).map _
    rw [hindexes.byPop_eq, hindexes'.byPop_eq]
    exact lookup_group_view hsites pop

end Indexes

/-! ### Demands -/

section Rates

theorem popMbps_view {t t' : Tenant} (h : t.view = t'.view) (pop : NodeID) (label : Label) :
    popMbps t pop label = popMbps t' pop label := by
  have hsum : ∀ t : Tenant, popMbps t pop label = (t.view.sites.map fun v =>
      if v.attach = pop then (v.classMbps label).getD 0 else 0).sum := by
    intro t
    rw [popMbps_eq_sum, Tenant.view, Multiset.map_coe, Multiset.sum_coe, List.map_map]
    rfl
  rw [hsum, hsum, h]

end Rates

@[ext] structure DemandView where
  tenant : TenantView
  trafficClass : ClassView
  fromNode : NodeID
  toNode : NodeID
  fromMbps : ℚ
  toMbps : ℚ

namespace Demand

def view (d : Demand) : DemandView :=
  { tenant := d.tenant.view, trafficClass := d.trafficClass.view, fromNode := d.fromNode,
    toNode := d.toNode, fromMbps := d.fromMbps, toMbps := d.toMbps }

theorem cmp_view {a b a' b' : Demand} (ha : a.view = a'.view) (hb : b.view = b'.view) :
    cmp a b = cmp a' b' := by
  have hread : ∀ {d d' : Demand}, d.view = d'.view → d.trafficClass.label = d'.trafficClass.label ∧
      d.tenant.tierIndex = d'.tenant.tierIndex ∧ d.trafficClass.index = d'.trafficClass.index ∧
      d.tenant.id = d'.tenant.id ∧ d.fromNode = d'.fromNode ∧ d.toNode = d'.toNode := by
    intro d d' h
    exact ⟨congrArg (fun v => v.trafficClass.label) h, congrArg (fun v => v.tenant.tierIndex) h,
      congrArg (fun v => v.trafficClass.index) h, congrArg (fun v => v.tenant.id) h,
      congrArg DemandView.fromNode h, congrArg DemandView.toNode h⟩
  obtain ⟨hl, ht, hi, hid, hf, hto⟩ := hread ha
  obtain ⟨hl', ht', hi', hid', hf', hto'⟩ := hread hb
  unfold cmp
  rw [hl, ht, hi, hid, hf, hto, hl', ht', hi', hid', hf', hto']

end Demand

section Demands

variable {r r' : TenantRepository}

theorem exists_demand_view (h : r.view = r'.view) {ords ords' : DemandOrders} {d : Demand}
    (hd : d ∈ buildDemands r ords) : ∃ d' ∈ buildDemands r' ords', d'.view = d.view := by
  obtain ⟨htenant, hclass, hne, hfrom, hto, hpos⟩ := mem_buildDemands_iff.mp hd
  have hbyID := congrFun (congrArg RepositoryView.byID h) d.tenant.id
  have hclasses := congrFun (congrArg RepositoryView.classes h) d.trafficClass.label
  simp only [TenantRepository.view] at hbyID hclasses
  rw [show r.byID.lookup d.tenant.id = some d.tenant from htenant, Option.map_some] at hbyID
  rw [show r.classes.lookup d.trafficClass.label = some d.trafficClass from hclass,
    Option.map_some] at hclasses
  obtain ⟨t', ht', htview⟩ := Option.map_eq_some_iff.mp hbyID.symm
  obtain ⟨c', hc', hcview⟩ := Option.map_eq_some_iff.mp hclasses.symm
  have hid : t'.id = d.tenant.id := congrArg TenantView.id htview
  have hlabel : c'.label = d.trafficClass.label := congrArg ClassView.label hcview
  refine ⟨{ d with tenant := t', trafficClass := c' }, mem_buildDemands_iff.mpr ?_, ?_⟩
  · refine ⟨hid ▸ ht', hlabel ▸ hc', hne, ?_, ?_, hpos⟩
    · dsimp only
      rw [hlabel, popMbps_view htview]
      exact hfrom
    · dsimp only
      rw [hlabel, popMbps_view htview]
      exact hto
  · simp only [Demand.view, htview, hcview]

theorem buildDemands_view (h : r.view = r'.view) (hdistinct : r.IndexesDistinct)
    (ords ords' : DemandOrders) :
    (buildDemands r ords).map Demand.view = (buildDemands r' ords').map Demand.view := by
  have hnodup : ∀ (r : TenantRepository) (ords : DemandOrders),
      ((buildDemands r ords).map Demand.view).Nodup := by
    intro r ords
    refine List.Nodup.of_map (fun v : DemandView => (⟨v.tenant.id, v.fromNode, v.toNode,
      v.trafficClass.label⟩ : PathKey)) ?_
    rw [List.map_map]
    exact buildDemands_pathKeys_nodup r ords
  have hmem : ∀ v, v ∈ (buildDemands r ords).map Demand.view ↔
      v ∈ (buildDemands r' ords').map Demand.view := by
    intro v
    rw [List.mem_map, List.mem_map]
    constructor
    · rintro ⟨d, hd, rfl⟩
      exact exists_demand_view h hd
    · rintro ⟨d, hd, rfl⟩
      exact exists_demand_view h.symm hd
  have hsorted : ∀ (r : TenantRepository) (ords : DemandOrders),
      ((buildDemands r ords).map Demand.view).Pairwise fun v w =>
        ∃ a b : Demand, a.view = v ∧ b.view = w ∧ Demand.cmp a b ≠ .gt := by
    intro r ords
    exact List.pairwise_map.mpr ((buildDemands_pairwise r ords).imp fun {a b} hab =>
      ⟨a, b, rfl, rfl, hab⟩)
  refine ((List.perm_ext_iff_of_nodup (hnodup r ords) (hnodup r' ords')).mpr hmem).eq_of_pairwise
    ?_ (hsorted r ords) (hsorted r' ords')
  rintro v w hv hw ⟨a, b, hav, hbw, hab⟩ ⟨b', a', hbw', hav', hba⟩
  obtain ⟨d, hd, rfl⟩ := List.mem_map.mp hv
  obtain ⟨e, he, rfl⟩ := List.mem_map.mp ((hmem w).mpr hw)
  rw [Demand.cmp_view hav hbw] at hab
  rw [Demand.cmp_view hbw' hav'] at hba
  rw [hdistinct.eq_of_cmp hd he hab hba]

end Demands

end Maeto.ControlPlane
