import Maeto.Foundation.Result
import Maeto.Dataplane.Render

/-!
# What is rendered

The resources that the intent of a provider edge is rendered to, one tenant at a
time. The rounds of the tenants only share the map of the tables that hold SR
routes, so each tenant is rendered from its own part of the intent and some state
of that map (`mem_renderTenants`). Within a round, a colour gets a rule when it
has a segment list with a prefix (`mem_uniqueColors`), whether or not a route of
it could be stored.
-/

namespace Maeto.Dataplane

open Foundation Netip Nodesync GoMap Result

section Install

variable {tenantID : String} {t : TenantIntent} {collisions : GoMap ℤ String}

@[elab_as_elim]
theorem installPaths_induction {motive : InstallState → Prop}
    (hinit : motive ⟨collisions, ∅, []⟩)
    (hstep : ∀ st path p, path ∈ t.installPaths → p ∈ path.prefixRoutes → motive st →
      motive (installPrefix (stringToID tenantID).toNat path st p)) :
    motive (installPaths tenantID t collisions) := by
  apply List.foldlRecOn t.installPaths (installPath _) hinit
  intro st hst path hpath
  apply List.foldlRecOn path.prefixRoutes (installPrefix _ path) hst
  intro st hst p hp
  exact hstep st path p hpath hp hst

theorem installPrefix_uniqueColors (tableID : ℤ) (path : PESIDInstallIntent) (st : InstallState)
    (p : Prefix) :
    (installPrefix tableID path st p).uniqueColors = st.uniqueColors.insert path.color () := by
  unfold installPrefix
  dsimp only
  split
  · split_ifs <;> rfl
  · rfl

theorem installPrefix_srRoutes (tableID : ℤ) (path : PESIDInstallIntent) (st : InstallState)
    (p : Prefix) :
    (installPrefix tableID path st p).srRoutes = st.srRoutes ∨
      (installPrefix tableID path st p).srRoutes = st.srRoutes ++
        [.srRoute
          { routePrefix := p, segments := path.segments.reverse,
            table := colorTableID tableID path.color, color := path.color }] := by
  unfold installPrefix
  dsimp only
  split
  · split_ifs
    · exact Or.inl rfl
    · exact Or.inr rfl
  · exact Or.inr rfl

theorem mem_srRoutes {r : Resource} (h : r ∈ (installPaths tenantID t collisions).srRoutes) :
    ∃ path ∈ t.installPaths, ∃ p ∈ path.prefixRoutes,
      r = .srRoute
        { routePrefix := p, segments := path.segments.reverse,
          table := colorTableID (stringToID tenantID).toNat path.color, color := path.color } := by
  revert h
  refine installPaths_induction ?_ ?_
  · intro h
    cases h
  · intro st path p hpath hp ih hr
    rcases installPrefix_srRoutes _ path st p with heq | heq <;> rw [heq] at hr
    · exact ih hr
    · rcases List.mem_append.mp hr with hr | hr
      · exact ih hr
      · exact ⟨path, hpath, p, hp, List.mem_singleton.mp hr⟩

theorem mem_uniqueColors (c : UInt64) :
    c ∈ (installPaths tenantID t collisions).uniqueColors ↔
      ∃ path ∈ t.installPaths, path.color = c ∧ path.prefixRoutes ≠ [] := by
  have hprefixes : ∀ (path : PESIDInstallIntent) (ps : List Prefix) (st : InstallState),
      c ∈ (ps.foldl (installPrefix (stringToID tenantID).toNat path) st).uniqueColors ↔
        c ∈ st.uniqueColors ∨ (path.color = c ∧ ps ≠ []) := by
    intro path ps
    induction ps with
    | nil => simp
    | cons p ps ih =>
      intro st
      rw [List.foldl_cons, ih, installPrefix_uniqueColors, AList.mem_insert]
      simp only [ne_eq, reduceCtorEq, not_false_eq_true, and_true]
      grind
  have hpaths : ∀ (paths : List PESIDInstallIntent) (st : InstallState),
      c ∈ (paths.foldl (installPath (stringToID tenantID).toNat) st).uniqueColors ↔
        c ∈ st.uniqueColors ∨ ∃ path ∈ paths, path.color = c ∧ path.prefixRoutes ≠ [] := by
    intro paths
    induction paths with
    | nil => simp
    | cons path paths ih =>
      intro st
      rw [List.foldl_cons, ih, installPath, hprefixes, List.exists_mem_cons_iff, or_assoc]
  rw [installPaths, hpaths]
  simp

end Install

section Tenants

inductive TenantResource (tenantID : String) (t : TenantIntent) : Resource → Prop
  | vrf :
      TenantResource tenantID t
        (.vrf { name := vrfTableName tenantID, tableID := stringToID tenantID, index := 0 })
  | sid (h : t.dt46SID.isValid) :
      TenantResource tenantID t
        (.sid
          { sidType := .dt46, sid := t.dt46SID, tableID := (stringToID tenantID).toNat,
            metric := 0, vrfTableID := 0 })
  | portal (id : String) (p : PEPortalIntent) (h : t.portalIntents.lookup id = some p)
      (r : Resource) (hr : r ∈ renderPortal tenantID p) : TenantResource tenantID t r
  | srRoute (path : PESIDInstallIntent) (h : path ∈ t.installPaths) (p : Prefix)
      (hp : p ∈ path.prefixRoutes) :
      TenantResource tenantID t
        (.srRoute
          { routePrefix := p, segments := path.segments.reverse,
            table := colorTableID (stringToID tenantID).toNat path.color, color := path.color })
  | rule (path : PESIDInstallIntent) (h : path ∈ t.installPaths) (hp : path.prefixRoutes ≠ []) :
      TenantResource tenantID t (colorRule tenantID path.color)

variable {ords : RenderOrders} {tenantID : String} {t : TenantIntent}
  {collisions : GoMap ℤ String}

theorem tenantResource_of_mem {r : Resource} (h : r ∈ tenantResources ords tenantID t collisions) :
    TenantResource tenantID t r := by
  unfold tenantResources at h
  simp only [List.cons_append, List.mem_cons, List.mem_append, List.mem_flatMap,
    List.mem_map] at h
  rcases h with rfl | ((h | ⟨⟨id, p⟩, hp, hr⟩) | h) | ⟨⟨c, _⟩, hc, rfl⟩
  · exact .vrf
  · split_ifs at h with hvalid
    · rw [List.mem_singleton.mp h]
      exact .sid hvalid
    · cases h
  · exact .portal id p ((mem_range _ _ _ _).mp hp) r hr
  · obtain ⟨path, hpath, p, hp, rfl⟩ := mem_srRoutes h
    exact .srRoute path hpath p hp
  · have hmem := mem_iff.mpr ⟨_, (mem_range _ _ _ _).mp hc⟩
    obtain ⟨path, hpath, rfl, hp⟩ := (mem_uniqueColors c).mp hmem
    exact .rule path hpath hp

theorem vrf_mem_tenantResources :
    .vrf { name := vrfTableName tenantID, tableID := stringToID tenantID, index := 0 } ∈
      tenantResources ords tenantID t collisions := by
  simp [tenantResources]

theorem colorRule_mem_tenantResources {path : PESIDInstallIntent} (h : path ∈ t.installPaths)
    (hp : path.prefixRoutes ≠ []) :
    colorRule tenantID path.color ∈ tenantResources ords tenantID t collisions := by
  have hmem : path.color ∈ (installPaths tenantID t collisions).uniqueColors :=
    (mem_uniqueColors _).mpr ⟨path, h, rfl, hp⟩
  obtain ⟨u, hu⟩ := mem_iff.mp hmem
  refine List.mem_append.mpr (Or.inr (List.mem_map.mpr ⟨(path.color, u), ?_, rfl⟩))
  exact (mem_range _ _ _ _).mpr hu

theorem TenantResource.eq_vrf {v : VRF} (h : TenantResource tenantID t (.vrf v)) :
    v = { name := vrfTableName tenantID, tableID := stringToID tenantID, index := 0 } := by
  generalize hr : Resource.vrf v = r at h
  cases h with
  | vrf => exact Resource.vrf.inj hr
  | portal id p hid r hmem => simp [renderPortal, ← hr] at hmem
  | _ => cases hr

theorem TenantResource.eq_colorRule {r : Rule} (h : TenantResource tenantID t (.rule r)) :
    ∃ path ∈ t.installPaths, path.prefixRoutes ≠ [] ∧
      Resource.rule r = colorRule tenantID path.color := by
  generalize hr : Resource.rule r = r' at h
  cases h with
  | rule path h hp => exact ⟨path, h, hp, rfl⟩
  | portal id p hid r hmem => simp [renderPortal, ← hr] at hmem
  | _ => cases hr

theorem TenantResource.eq_route {r : Route} (h : TenantResource tenantID t (.route r)) :
    ∃ id p, t.portalIntents.lookup id = some p ∧
      r = { table := (stringToID tenantID).toNat, dst := p.sitePrefix,
            dev := xfrmName tenantID p.tunnelInterfaceID, via := .invalid, metric := 0 } := by
  generalize hr : Resource.route r = r' at h
  cases h with
  | portal id p hid r hmem =>
    simp only [renderPortal, ← hr, List.mem_pair, reduceCtorEq, Resource.route.injEq,
      false_or] at hmem
    exact ⟨id, p, hid, hmem⟩
  | _ => cases hr

/-- Every tenant is rendered in one round, from some state of the tables that hold
SR routes. -/
theorem exists_collisions_foldl_tenantRound (ords : RenderOrders) (l : List (String × TenantIntent))
    (hl : (l.map Prod.fst).Nodup) (st : GoMap ℤ String × List (String × Resource)) :
    ∃ collisions : String → GoMap ℤ String, ∀ tenantID r,
      (tenantID, r) ∈ (l.foldl (tenantRound ords) st).2 ↔
        (tenantID, r) ∈ st.2 ∨
          ∃ t, (tenantID, t) ∈ l ∧
            r ∈ tenantResources ords tenantID t (collisions tenantID) := by
  induction l generalizing st with
  | nil => exact ⟨fun _ => ∅, by simp⟩
  | cons e l ih =>
    obtain ⟨id, t⟩ := e
    rw [List.map_cons, List.nodup_cons] at hl
    obtain ⟨collisions, hmem⟩ := ih hl.2 (tenantRound ords st (id, t))
    refine ⟨Function.update collisions id st.1, ?_⟩
    intro tenantID r
    rw [List.foldl_cons, hmem, tenantRound, List.mem_append, or_assoc]
    refine or_congr_right ?_
    by_cases hid : tenantID = id
    · subst hid
      have hnot : ∀ t', (tenantID, t') ∉ l := fun t' h =>
        hl.1 (List.mem_map.mpr ⟨_, h, rfl⟩)
      simp [hnot]
    · simp [hid, Ne.symm hid]

theorem mem_renderTenants (ords : RenderOrders) (pe : PEIntent) :
    ∃ collisions : String → GoMap ℤ String, ∀ tenantID r,
      (tenantID, r) ∈ renderTenants ords pe ↔
        ∃ t, pe.tenants.lookup tenantID = some t ∧
          r ∈ tenantResources ords tenantID t (collisions tenantID) := by
  obtain ⟨collisions, hmem⟩ := exists_collisions_foldl_tenantRound ords
    (pe.tenants.range ords.tenants) (range_keys_nodup _ _) (∅, [])
  refine ⟨collisions, ?_⟩
  intro tenantID r
  rw [renderTenants, hmem]
  simp [mem_range]

end Tenants

section Classes

theorem mem_of_renderClass {c : PETrafficClassIntent} {dscps : List ℤ} {rs : List Resource}
    (h : renderClass c dscps = .ok rs) {r : Resource} (hr : r ∈ rs) :
    ∃ dscp ∈ dscps,
      r = .classification { classifier := uint32OfInt dscp, mark := c.color.toUInt32 } := by
  induction dscps generalizing rs with
  | nil =>
    cases h
    cases hr
  | cons dscp dscps ih =>
    rw [renderClass] at h
    split_ifs at h
    obtain ⟨rest, hrest, rfl⟩ := map_eq_ok.mp h
    rcases List.mem_cons.mp hr with rfl | hr
    · exact ⟨dscp, List.mem_cons_self, rfl⟩
    · obtain ⟨dscp', hdscp', rfl⟩ := ih hrest hr
      exact ⟨dscp', List.mem_cons_of_mem _ hdscp', rfl⟩

theorem mem_of_renderClasses {cs : List PETrafficClassIntent} {rs : List Resource}
    (h : renderClasses cs = .ok rs) {r : Resource} (hr : r ∈ rs) :
    ∃ c ∈ cs, ∃ dscp ∈ c.dscp,
      r = .classification { classifier := uint32OfInt dscp, mark := c.color.toUInt32 } := by
  induction cs generalizing rs with
  | nil =>
    cases h
    cases hr
  | cons c cs ih =>
    rw [renderClasses] at h
    split at h
    · cases h
    · obtain ⟨rest, hrest, rfl⟩ := map_eq_ok.mp h
      rcases List.mem_append.mp hr with hr | hr
      · exact ⟨c, List.mem_cons_self, mem_of_renderClass ‹_› hr⟩
      · obtain ⟨c', hc', hform⟩ := ih hrest hr
        exact ⟨c', List.mem_cons_of_mem _ hc', hform⟩

/-- What `RenderPEIntent` returns: the classifications of the classes and the
resources of the tenants, under their keys. -/
theorem renderPEIntent_eq_ok {ords : RenderOrders} {pe : PEIntent} {m : ResourceMap}
    (h : renderPEIntent ords pe = .ok m) :
    ∃ classes : List Resource, (∀ r ∈ classes, r.kind = .classification) ∧
      m = storeAll (classes ++ (renderTenants ords pe).map Prod.snd) := by
  obtain ⟨classes, hclasses, rfl⟩ := map_eq_ok.mp h
  refine ⟨classes, fun r hr => ?_, rfl⟩
  obtain ⟨c, -, dscp, -, rfl⟩ := mem_of_renderClasses hclasses hr
  rfl

end Classes

section Intents

inductive IntentResource : Intent → Resource → Prop
  | classification (pe : PEIntent) (c : Classification) :
      IntentResource (.pe pe) (.classification c)
  | tenant (pe : PEIntent) (tenantID : String) (t : TenantIntent)
      (ht : pe.tenants.lookup tenantID = some t) (r : Resource) (h : TenantResource tenantID t r) :
      IntentResource (.pe pe) r
  | tunnel (cpe : CPEIntent) :
      IntentResource (.cpe cpe)
        (.xfrm
          { name := xfrmTunnelName cpe.tenantID, ifID := cpe.tunnelInterfaceID, parent := "lo",
            masterVRF := "", index := 0 })
  | tunnelDefault (cpe : CPEIntent) :
      IntentResource (.cpe cpe)
        (.route
          { table := cpeTunnelTable, dst := Prefix.default6, dev := xfrmTunnelName cpe.tenantID,
            via := .invalid, metric := 0 })
  | siteRule (cpe : CPEIntent) :
      IntentResource (.cpe cpe)
        (.rule
          { priority := cpeRulePriority, src := some cpe.sitePrefix, table := cpeTunnelTable,
            mark := 0, iif := "" })

variable {ords : RenderOrders} {i : Intent} {m : ResourceMap}

theorem renderIntent_eq_ok (h : renderIntent ords i = .ok m) :
    ∃ rs, m = storeAll rs ∧ ∀ r ∈ rs, IntentResource i r := by
  cases i with
  | pe pe =>
    obtain ⟨classes, hclasses, rfl⟩ := renderPEIntent_eq_ok h
    refine ⟨_, rfl, ?_⟩
    intro r hr
    rcases List.mem_append.mp hr with hr | hr
    · have hkind := hclasses r hr
      cases r with
      | classification c => exact .classification pe c
      | _ => cases hkind
    · obtain ⟨⟨tenantID, r⟩, hlog, rfl⟩ := List.mem_map.mp hr
      obtain ⟨collisions, hmem⟩ := mem_renderTenants ords pe
      obtain ⟨t, ht, hround⟩ := (hmem tenantID r).mp hlog
      exact .tenant pe tenantID t ht r (tenantResource_of_mem hround)
  | cpe cpe =>
    have h : renderCPEIntent cpe = .ok m := h
    unfold renderCPEIntent at h
    split_ifs at h
    · cases h
      exact ⟨[], rfl, by simp⟩
    · cases h
      refine ⟨_, rfl, ?_⟩
      intro r hr
      simp only [List.mem_cons, List.not_mem_nil, or_false] at hr
      rcases hr with rfl | rfl | rfl
      · exact .tunnel cpe
      · exact .tunnelDefault cpe
      · exact .siteRule cpe

theorem renderIntent_lookup (h : renderIntent ords i = .ok m) {k : String} {r : Resource}
    (hr : m.lookup k = some r) : r.key = k ∧ IntentResource i r := by
  obtain ⟨rs, rfl, hrs⟩ := renderIntent_eq_ok h
  obtain ⟨hmem, hkey⟩ := of_lookup_collect hr
  exact ⟨hkey, hrs r hmem⟩

theorem IntentResource.dev_ne_lo {r : Route} (h : IntentResource i (.route r)) : r.dev ≠ "lo" := by
  generalize hr : Resource.route r = r' at h
  cases h with
  | tenant pe tenantID t ht r' hr' =>
    subst hr
    obtain ⟨id, p, -, rfl⟩ := hr'.eq_route
    intro heq
    have := congrArg String.toList heq
    simp [xfrmName] at this
  | tunnelDefault cpe =>
    cases hr
    intro heq
    have := congrArg String.toList heq
    simp [xfrmTunnelName] at this
  | _ => cases hr

end Intents

end Maeto.Dataplane
