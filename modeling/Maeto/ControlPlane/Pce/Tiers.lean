import Maeto.ControlPlane.DemandOrder
import Maeto.ControlPlane.Pce.Orders

/-!
# Lower tiers do not disturb named classes

The named demands of the high tiers come first, and a demand sees what was booked before its
turn only. So in the first tick they find the same room and the same costs whether or not
tenants of lower tiers come after them, and take the same paths (`firstTick_named_paths`). The
two ticks are compared for the same telemetry and clock readings; the orders in which they
visit their maps need not be the same.
-/

namespace Maeto.ControlPlane

open Foundation GoMap BandwidthReservationRegistry AList

/-- What happens is the same in two ticks, though the iteration orders may differ. -/
structure TickInput.SameEvents (input input' : TickInput) : Prop where
  telemetry : input.telemetry = input'.telemetry
  readyAt : input.readyAt = input'.readyAt
  linksAt : input.linksAt = input'.linksAt
  snapshotTelemetry : input.snapshotTelemetry = input'.snapshotTelemetry
  env : ∀ n, (input.env n).telemetry = (input'.env n).telemetry

section FirstTick

variable {holdDown : Time} {r r' : TenantRepository} {topo : Graph} {cg : CostGraph}
  {input input' : TickInput}

theorem TickInput.SameEvents.graph (h : input.SameEvents input') (s : PCEState) :
    newPCEGraph (input.graph s) = newPCEGraph (input'.graph s) := by
  refine newPCEGraph_congr rfl fun id => ?_
  unfold TickInput.graph updateLinkStates
  rw [lookup_copyInto, lookup_copyInto, h.telemetry, h.linksAt]

theorem TickInput.SameEvents.begin_alike (h : input.SameEvents input') (hcg : cg.Keyed)
    (rates : Rates) :
    (input.begin (.initial topo cg)).Alike rates (input'.begin (.initial topo cg)) := by
  have hcarries := carries_empty rates
  have hkeyed : (input.telemetry.foldl CostGraph.observe cg).Keyed :=
    hcg.of_byID (CostGraph.foldl_observe_byID _ _)
  refine ⟨BandwidthReservationRegistry.Alike.refl _, hcarries, hcarries, ?_, ?_⟩
  · unfold TickInput.begin TickInput.costGraph
    rw [h.snapshotTelemetry, h.graph, h.telemetry]
    refine CostGraph.Alike.foldl_observe ?_ _
    exact (CostGraph.Alike.refl _).updateStatic (h.telemetry ▸ hkeyed) hcarries hcarries
      (BandwidthReservationRegistry.Alike.refl _) _ _ _
  · refine hkeyed.of_byID ?_
    unfold TickInput.begin TickInput.costGraph
    rw [CostGraph.foldl_observe_byID, updateStaticBandwidthUtilizationCost_byID]
    rfl

variable {n : ℕ}

theorem firstTick_lookup {d : Demand} (hn : (buildDemands r input.orders)[n]? = some d)
    (hready : (input.telemetry.foldl CostGraph.observe cg).isReady input.readyAt = true) :
    (tick holdDown r input (.initial topo cg)).pathStore.lookup d.pathKey =
      (candidatePath (input.context holdDown (.initial topo cg)) (input.env n)
        ((midTick holdDown r input (.initial topo cg) n).observe (input.env n)) d).map
          Prod.fst := by
  have hview : ∀ env st (d' : Demand), d.pathKey ≠ d'.pathKey →
      (demandStep (input.context holdDown (.initial topo cg)) env st d').paths.lookup d.pathKey =
        st.paths.lookup d.pathKey :=
    fun env st d' hne => demandStep_paths_of_ne _ env st hne
  have hafter := midTick_after (V := fun st => st.paths.lookup d.pathKey) hn hview
    (List.getElem?_eq_some_iff.mp hn).1
  have hbefore := midTick_before (V := fun st => st.paths.lookup d.pathKey) hn hview
  unfold tick
  rw [if_pos (by exact hready)]
  refine hafter.trans ?_
  rcases demandStep_of_new (Admissible.admitsPruned (s := .initial topo cg)
      topo.sameBandwidths_refl (admissible_empty topo r) holdDown input hn)
      (lookup_empty d.pathKey) with
    ⟨hnone, hstep⟩ | ⟨path, edges, reg, hsome, -, hstep⟩
  · rw [hstep, hnone]
    exact hbefore
  · rw [hstep, hsome]
    simp [bookPath]

theorem getElem?_of_named {i : ℤ} {ords : DemandOrders} {d : Demand}
    (h : ((buildDemands r ords).filter (Demand.namedAbove i))[n]? = some d) :
    (buildDemands r ords)[n]? = some d := by
  rw [buildDemands_named_first i r ords,
    List.getElem?_append_left (List.getElem?_eq_some_iff.mp h).1]
  exact h

/-- The named demands of the high tiers meet alike states, with and without the lower
tiers. -/
theorem midTick_alike (holdDown : Time) (topo : Graph) {i : ℤ} (hcg : cg.Keyed)
    (h : input.SameEvents input')
    (hnamed : (buildDemands r' input'.orders).filter (Demand.namedAbove i) =
      (buildDemands r input.orders).filter (Demand.namedAbove i))
    (hn : n ≤ ((buildDemands r input.orders).filter (Demand.namedAbove i)).length) :
    (midTick holdDown r input (.initial topo cg) n).Alike r'.rates
      (midTick holdDown r' input' (.initial topo cg) n) := by
  induction n with
  | zero => exact h.begin_alike hcg r'.rates
  | succ n ih =>
    obtain ⟨d, hd⟩ : ∃ d, ((buildDemands r input.orders).filter (Demand.namedAbove i))[n]? =
        some d := ⟨_, List.getElem?_eq_getElem hn⟩
    have hplace := getElem?_of_named hd
    have hplace' := getElem?_of_named (hnamed ▸ hd)
    rw [midTick_succ hplace, midTick_succ hplace']
    refine (ih (Nat.le_of_succ_le hn)).demandStep_of_new rfl (h.graph _).symm
      (Demand.carriesRates (List.mem_of_getElem? hplace')) (h.env n) ?_ ?_
      (lookup_empty _) (lookup_empty _)
    · exact (admissible_empty topo r).admitsPruned topo.sameBandwidths_refl holdDown input hplace
    · exact (admissible_empty topo r').admitsPruned topo.sameBandwidths_refl holdDown input'
        hplace'

/-- In the first tick, a named demand gets the same path whether or not tenants of lower
tiers have demands too. -/
theorem firstTick_named_paths (holdDown : Time) (topo : Graph) {ord : RangeOrder}
    {startedAt : Time} {cg : CostGraph} (hcg : CostGraph.newCostGraph ord topo startedAt = .ok cg)
    {i : ℤ} {r r' : TenantRepository} (hext : r.ExtendsBelow i r') {input input' : TickInput}
    (hevents : input.SameEvents input')
    (hties : r.IndexesDistinct ∨ input'.orders = input.orders) {d : Demand}
    (hd : d ∈ buildDemands r input.orders) (hnamed : d.trafficClass.label ≠ defaultClassLabel) :
    (tick holdDown r' input' (.initial topo cg)).pathStore.lookup d.pathKey =
      (tick holdDown r input (.initial topo cg)).pathStore.lookup d.pathKey := by
  have hkeyed := CostGraph.newCostGraph_keyed hcg
  have hlist := buildDemands_named hext hties
  have habove : d.namedAbove i = true :=
    decide_eq_true ⟨hnamed, hext.above _ _ (mem_buildDemands_iff.mp hd).1⟩
  obtain ⟨n, hn⟩ := List.getElem?_of_mem (List.mem_filter.mpr ⟨hd, habove⟩)
  have hplace := getElem?_of_named hn
  have hplace' := getElem?_of_named (hlist ▸ hn)
  by_cases hready : (input.telemetry.foldl CostGraph.observe cg).isReady input.readyAt = true
  · have hready' := hready
    rw [hevents.telemetry, hevents.readyAt] at hready'
    rw [firstTick_lookup hplace hready, firstTick_lookup hplace' hready']
    have halike := midTick_alike holdDown topo hkeyed hevents hlist
      (List.getElem?_eq_some_iff.mp hn).1.le
    have hgraph : (input.context holdDown (.initial topo cg)).pceGraph =
        newPCEGraph (input.graph (.initial topo cg)) := rfl
    have hgraph' : (input'.context holdDown (.initial topo cg)).pceGraph =
        newPCEGraph (input.graph (.initial topo cg)) := (hevents.graph _).symm
    rw [(halike.observe (hevents.env n)).candidatePath hgraph hgraph'
      (Demand.carriesRates (List.mem_of_getElem? hplace')) (input.env n) (input'.env n)]
  · have hready' := hready
    rw [hevents.telemetry, hevents.readyAt] at hready'
    unfold tick
    rw [if_neg (by exact hready'), if_neg (by exact hready)]

end FirstTick

section Examples

def voiceClass : TrafficClass where
  name := "voice"
  label := 1
  index := 1
  dscp := [46]
  objective := (∅ : GoMap CostDimension ℚ).insert .latency 1
  objective_pos := by
    intro dim w h
    rw [lookup_insert_eq] at h
    split_ifs at h
    · cases h
      exact one_pos
    · simp at h

def voiceTenant (e : TenantID × ℤ) : Tenant where
  id := e.1
  allocation := .invalid
  tier := ""
  tierIndex := e.2
  vrfTable := 0
  sites := ["A", "B"].map fun attach =>
    { siteAt e.1 attach 60 with classMbps := (∅ : GoMap Label ℚ).insert 1 60 }

def voiceTenants (tiers : List (TenantID × ℤ)) : TenantRepository :=
  { tenantsAB [] with
    classes := GoMap.collect TrafficClass.label [voiceClass]
    byID := GoMap.collect Tenant.id (tiers.map voiceTenant)
    classes_label := fun _ _ h => (of_lookup_collect h).2
    byID_id := fun _ _ h => (of_lookup_collect h).2 }

theorem extendsBelow_tenant_two :
    (voiceTenants [(1, 2)]).ExtendsBelow 1 (voiceTenants [(1, 2), (2, 1)]) := by
  have hone : ∀ id t, (voiceTenants [(1, 2)]).tenant id = some t →
      id = 1 ∧ t = voiceTenant (1, 2) := by
    intro id t h
    obtain ⟨hmem, rfl⟩ := of_lookup_collect h
    rw [List.map_singleton, List.mem_singleton] at hmem
    exact ⟨congrArg Tenant.id hmem, hmem⟩
  refine ⟨fun _ => rfl, ?_, ?_, ?_⟩
  · intro id t h
    obtain ⟨rfl, rfl⟩ := hone id t h
    decide
  · intro id t h
    obtain ⟨rfl, rfl⟩ := hone id t h
    rfl
  · intro id t h
    obtain ⟨hmem, rfl⟩ := of_lookup_collect h
    rcases List.mem_pair.mp hmem with rfl | rfl
    · exact Or.inl rfl
    · exact Or.inr (by decide)

def voiceKey : PathKey := ⟨1, "A", "B", 1⟩

def firstTick : TickInput := quietTick [.converged "x", .converged "y"] 0

theorem named_paths_voice :
    ∃ cg path, CostGraph.newCostGraph .listed parallelLinks 0 = .ok cg ∧
      (tick 0 (voiceTenants [(1, 2)]) firstTick (.initial parallelLinks cg)).pathStore.lookup
        voiceKey = some path ∧
      (tick 0 (voiceTenants [(1, 2), (2, 1)]) firstTick
        (.initial parallelLinks cg)).pathStore.lookup voiceKey = some path := by
  have hrun : (CostGraph.newCostGraph .listed parallelLinks 0).map (fun cg =>
      ((tick 0 (voiceTenants [(1, 2)]) firstTick (.initial parallelLinks cg)).pathStore.lookup
        voiceKey).isSome) = .ok true := by
    decide +kernel
  obtain ⟨cg, hcg, hsome⟩ := Result.map_eq_ok.mp hrun
  obtain ⟨path, hpath⟩ := Option.isSome_iff_exists.mp hsome
  have hdemand : (buildDemands (voiceTenants [(1, 2)]) firstTick.orders).any (fun d =>
      decide (d.pathKey = voiceKey ∧ d.trafficClass.label ≠ defaultClassLabel)) = true := by
    decide +kernel
  obtain ⟨d, hd, hkey⟩ := List.any_eq_true.mp hdemand
  obtain ⟨hkey, hnamed⟩ := of_decide_eq_true hkey
  refine ⟨cg, path, hcg, hpath, ?_⟩
  rw [← hpath, ← hkey]
  exact firstTick_named_paths 0 parallelLinks hcg extendsBelow_tenant_two
    ⟨rfl, rfl, rfl, rfl, fun _ => rfl⟩ (Or.inr rfl) hd hnamed

end Examples

end Maeto.ControlPlane
