import Maeto.ControlPlane.Pce.Capacity
import Maeto.ControlPlane.Pce.Hysteresis
import Maeto.ControlPlane.Pce.Turn

/-!
# Failover

At the turn of a demand the graph is pruned to the edges that have room for it, a path is
computed on what is left, and the demand is moved onto the path. The path is in the whole
graph, and the move is admitted (`admitsPruned`): the check of the move counts what the
check of the pruning has counted. So a demand that stays on a path with a missing edge is one
for which the search failed, and by the completeness of the search there was no path of
finite cost for it (`midTick_failover`).
-/

namespace Maeto.ControlPlane

open Foundation GoMap Result BandwidthReservationRegistry AList

def prunedGraph [Rounding] (ctx : TickContext) (env : DemandEnv) (st : TickState) (d : Demand) :
    PCEGraph :=
  st.registry.pruneGraph env.prune ctx.pceGraph d.tenant.id d.bandwidthReservation

def AdmitsPruned [Rounding] (ctx : TickContext) (env : DemandEnv) (st : TickState) (d : Demand) :
    Prop :=
  ∀ path, computePath (prunedGraph ctx env st d) st.costGraph.costs d.objective d.fromNode
      d.toNode = .ok path →
    ∃ edges, lookupEdges ctx.pceGraph path.edges = some edges ∧
      ∀ src, ∃ reg, st.registry.move env.admission src edges d.tenant.id
        d.bandwidthReservation = .ok reg

def NoFinitePath [Rounding] (ctx : TickContext) (env : DemandEnv) (st : TickState) (d : Demand) :
    Prop :=
  ∀ ids, (prunedGraph ctx env st d).Walk d.fromNode ids d.toNode →
    (ids.map (edgeCost (prunedGraph ctx env st d) st.costGraph.costs d.objective)).sum = ⊤

theorem lookupEdges_of_mem {g : PCEGraph} {ids : List PCEEdgeID} (h : ∀ id ∈ ids, id ∈ g.edges) :
    ∃ edges, lookupEdges g ids = some edges := by
  induction ids with
  | nil => exact ⟨[], rfl⟩
  | cons id ids ih =>
    obtain ⟨e, he⟩ := mem_iff.mp (h id List.mem_cons_self)
    obtain ⟨edges, hedges⟩ := ih fun id' hid' => h id' (List.mem_cons_of_mem id hid')
    exact ⟨e :: edges, by simp [lookupEdges, he, hedges]⟩

theorem lookupEdges_mem {g : PCEGraph} {ids : List PCEEdgeID} {edges : List PCEEdge}
    (h : lookupEdges g ids = some edges) : ∀ id ∈ ids, id ∈ g.edges := by
  induction ids generalizing edges with
  | nil => simp
  | cons id ids ih =>
    unfold lookupEdges at h
    cases he : g.edges.lookup id with
    | none => simp [he] at h
    | some e =>
      simp only [he] at h
      obtain ⟨rest, hrest, rfl⟩ := Option.map_eq_some_iff.mp h
      intro id' hid'
      rcases List.mem_cons.mp hid' with rfl | hid'
      · exact mem_iff.mpr ⟨e, he⟩
      · exact ih hrest id' hid'

section Step

variable {ctx : TickContext} {env : DemandEnv} {st : TickState} {d : Demand}

theorem admitsPruned {rates : Rates} (hkeyed : ctx.pceGraph.Keyed)
    (hadj : ctx.pceGraph.AdjFrom) (hcarries : st.registry.Carries rates)
    (hd : CarriesRates rates d.tenant.id d.bandwidthReservation.key
      d.bandwidthReservation) :
    AdmitsPruned ctx env st d := by
  intro path hpath
  have hpruned := (computePath_walk (pruneGraph_adjFrom hadj) hpath).mem_edges
  have hmem : ∀ id ∈ path.edges, id ∈ ctx.pceGraph.edges := by
    intro id hid
    obtain ⟨e, he⟩ := mem_iff.mp (hpruned id hid)
    exact mem_iff.mpr ⟨e, (of_lookup_pruneGraph he).1⟩
  obtain ⟨edges, hedges⟩ := lookupEdges_of_mem hmem
  obtain ⟨hids, hlookup⟩ := lookupEdges_eq_some hkeyed hedges
  refine ⟨edges, hedges, fun src => ⟨_, move_of_room src ?_⟩⟩
  intro e he
  have hid : e.id ∈ path.edges := by
    rw [← hids]
    exact List.mem_map_of_mem he
  obtain ⟨e', he'⟩ := mem_iff.mp (hpruned e.id hid)
  obtain ⟨hsame, hroom⟩ := of_lookup_pruneGraph he'
  rw [hlookup e he] at hsame
  cases hsame
  rw [(BandwidthReservationRegistry.Alike.refl _).checkCapacity hcarries hcarries hd
    env.admission env.prune]
  exact hroom

theorem noFinitePath_of_candidatePath (hadj : ctx.pceGraph.AdjFrom)
    (hlisted : ctx.pceGraph.Listed) (hadmits : AdmitsPruned ctx env st d)
    (h : candidatePath ctx env st d = none) : NoFinitePath ctx env st d := by
  intro ids hwalk
  by_contra hfinite
  obtain ⟨path, hpath⟩ := computePath_complete (pruneGraph_adjFrom hadj)
    (pruneGraph_listed hlisted) hwalk hfinite
  obtain ⟨edges, hedges, -⟩ := hadmits path hpath
  simp [candidatePath, hpath, hedges] at h

/-- After its turn a demand is on a path with an absent edge only when the search found
none. -/
theorem candidatePath_of_absent (hadmits : AdmitsPruned ctx env (st.observe env) d) {p : Path}
    (hp : (demandStep ctx env st d).paths.lookup d.pathKey = some p) {id : PCEEdgeID}
    (hid : id ∈ p.edges) (habsent : id ∉ ctx.pceGraph.edges) :
    candidatePath ctx env (st.observe env) d = none := by
  by_contra hne
  obtain ⟨⟨path, edges⟩, hcandidate⟩ := Option.ne_none_iff_exists'.mp hne
  obtain ⟨⟨found, hfound, rfl⟩, hedges⟩ := candidatePath_eq_some hcandidate
  obtain ⟨edges', hedges', hmove⟩ := hadmits found hfound
  have hpresent : id ∉ found.edges := fun hmem =>
    habsent (lookupEdges_mem hedges id hmem)
  rw [hedges] at hedges'
  cases hedges'
  unfold demandStep at hp
  rw [hcandidate] at hp
  cases hstored : ctx.previous.lookup d.pathKey with
  | none =>
    obtain ⟨reg, hreg⟩ := hmove []
    simp only [hstored, placeDemand, hreg, bookPath, lookup_insert] at hp
    cases hp
    exact hpresent hid
  | some stored =>
    have hkept : p = rescored ctx d stored → previousCost ctx d stored = ⊤ := by
      rintro rfl
      rw [rescored_edges] at hid
      exact rescorePath_of_absent hid habsent
    simp only [hstored, replacePath] at hp
    split_ifs at hp with hequal hgated hheld
    · simp only [lookup_insert] at hp
      cases hp
      exact hpresent hid
    · simp only [keepPath, lookup_insert] at hp
      cases hp
      simp [hkept rfl] at hgated
    · simp only [keepPath, lookup_insert] at hp
      cases hp
      simp [hkept rfl] at hheld
    · obtain ⟨reg, hreg⟩ := hmove (rescored ctx d stored).edges
      simp only [moveDemand, hreg, bookPath, lookup_insert] at hp
      cases hp
      exact hpresent hid

end Step

theorem Admissible.admitsPruned {topo : Graph} {r : TenantRepository} {s : PCEState}
    (hgraph : topo.SameBandwidths s.graph) (hreg : Admissible topo r s.registry) (holdDown : Time)
    (input : TickInput) {i : ℕ} {d : Demand} (hi : (buildDemands r input.orders)[i]? = some d) :
    AdmitsPruned (input.context holdDown s) (input.env i)
      ((ControlPlane.midTick holdDown r input s i).observe (input.env i)) d :=
  ControlPlane.admitsPruned (fun _ _ hpe => newPCEGraph_id _ hpe) (newPCEGraph_adjFrom _)
    (hreg.midTick hgraph holdDown input i).carries
    (Demand.carriesRates (List.mem_of_getElem? hi))

/-- Failover happens in the tick that sees the failure. At the turn of every demand, a path
that the search returns can be taken. After the tick, a demand whose path has an edge that
is not in the graph of the tick had no path of finite cost when its turn came. -/
theorem midTick_failover (holdDown : Time) (r : TenantRepository) (topo : Graph)
    (cg : CostGraph) (inputs : List TickInput) (input : TickInput) (i : ℕ) (d : Demand)
    (hi : (buildDemands r input.orders)[i]? = some d) :
    let s := run holdDown (inputs.map (r, ·)) (PCEState.initial topo cg)
    let ctx := input.context holdDown s
    let st := (midTick holdDown r input s i).observe (input.env i)
    AdmitsPruned ctx (input.env i) st d ∧
      ((input.telemetry.foldl CostGraph.observe s.costGraph).isReady input.readyAt = true →
        ∀ p, (tick holdDown r input s).pathStore.lookup d.pathKey = some p →
          (∃ id ∈ p.edges, id ∉ ctx.pceGraph.edges) → NoFinitePath ctx (input.env i) st d) := by
  intro s ctx st
  obtain ⟨hgraph, hreg⟩ := Admissible.run holdDown r topo cg inputs
  have hadmits : AdmitsPruned ctx (input.env i) st d := hreg.admitsPruned hgraph holdDown input hi
  refine ⟨hadmits, ?_⟩
  rintro hready p hp ⟨id, hid, habsent⟩
  have hview : ∀ env st (d' : Demand), d.pathKey ≠ d'.pathKey →
      (demandStep ctx env st d').paths.lookup d.pathKey = st.paths.lookup d.pathKey :=
    fun env st d' hne => demandStep_paths_of_ne ctx env st hne
  have hlt : i < (buildDemands r input.orders).length := (List.getElem?_eq_some_iff.mp hi).1
  rw [tick, if_pos hready] at hp
  simp only [midTick_after (V := fun st => st.paths.lookup d.pathKey) hi hview hlt] at hp
  have hnone := candidatePath_of_absent hadmits hp hid habsent
  exact noFinitePath_of_candidatePath (newPCEGraph_adjFrom _) (newPCEGraph_listed _) hadmits hnone

def xGoesDown : TickInput := quietTick [.seen "x" 0] linkStaleAfter

/-- Link `x` goes down under the only path of tenant 1, which had no other. -/
theorem failover_without_path :
    ∃ cg d p, CostGraph.newCostGraph .listed parallelLinks 0 = .ok cg ∧
      (buildDemands (tenantsAB [(1, 30)]) xGoesDown.orders)[0]? = some d ∧
      let s := run 0 ([quietTick [.converged "x", .converged "y"] 0].map (tenantsAB [(1, 30)], ·))
        (PCEState.initial parallelLinks cg)
      (tick 0 (tenantsAB [(1, 30)]) xGoesDown s).pathStore.lookup d.pathKey = some p ∧
        p.links = ["x"] ∧
        NoFinitePath (xGoesDown.context 0 s) (xGoesDown.env 0)
          ((midTick 0 (tenantsAB [(1, 30)]) xGoesDown s 0).observe (xGoesDown.env 0)) d := by
  have hrun : (CostGraph.newCostGraph .listed parallelLinks 0).map (fun cg =>
      let s := run 0 ([quietTick [.converged "x", .converged "y"] 0].map (tenantsAB [(1, 30)], ·))
        (PCEState.initial parallelLinks cg)
      (buildDemands (tenantsAB [(1, 30)]) xGoesDown.orders)[0]?.any fun d =>
        (xGoesDown.telemetry.foldl CostGraph.observe s.costGraph).isReady xGoesDown.readyAt &&
        ((tick 0 (tenantsAB [(1, 30)]) xGoesDown s).pathStore.lookup d.pathKey).any fun p =>
          decide (p.links = ["x"] ∧
            ∃ id ∈ p.edges, id ∉ (xGoesDown.context 0 s).pceGraph.edges)) = .ok true := by
    decide +kernel
  obtain ⟨cg, hcg, hdemand⟩ := map_eq_ok.mp hrun
  obtain ⟨d, hd, htick⟩ := (Option.any_eq_true _ _).mp hdemand
  obtain ⟨hready, hstored⟩ := Bool.and_eq_true_iff.mp htick
  obtain ⟨p, hp, hpath⟩ := (Option.any_eq_true _ _).mp hstored
  obtain ⟨hlinks, habsent⟩ := of_decide_eq_true hpath
  refine ⟨cg, d, p, hcg, hd, hp, hlinks, ?_⟩
  exact (midTick_failover 0 (tenantsAB [(1, 30)]) parallelLinks cg _ xGoesDown 0 d hd).2 hready p
    hp habsent

def fullLink : TenantRepository :=
  tenantsAB ([(1, 392 / 10), (2, 69 / 10), (3, 292 / 10), (4, 197 / 10)].map fun e =>
    (e.1, Rounding.float64.round e.2))

def laterPruning : TickInput :=
  { quietTick [.converged "x", .converged "y"] 0 with
    env := fun _ => ⟨[], .rotated 1, .listed, .listed, .listed⟩ }

/-- With rounded sums the load of the four tenants is 95 Mbps in one order of the bookings and
more in another, so that the pruning keeps the link and the admission refuses it. -/
theorem admission_refused_rounded :
    letI := Rounding.float64
    ∃ cg d, CostGraph.newCostGraph .listed parallelLinks 0 = .ok cg ∧
      (buildDemands fullLink laterPruning.orders)[6]? = some d ∧
      let s := run 0 [] (PCEState.initial parallelLinks cg)
      ¬ AdmitsPruned (laterPruning.context 0 s) (laterPruning.env 6)
        ((midTick 0 fullLink laterPruning s 6).observe (laterPruning.env 6)) d := by
  let _ := Rounding.float64
  have hrun : (CostGraph.newCostGraph .listed parallelLinks 0).map (fun cg =>
      let s := run 0 [] (PCEState.initial parallelLinks cg)
      let ctx := laterPruning.context 0 s
      let st := (midTick 0 fullLink laterPruning s 6).observe (laterPruning.env 6)
      (buildDemands fullLink laterPruning.orders)[6]?.any fun d =>
        decide ((computePath (prunedGraph ctx (laterPruning.env 6) st d) st.costGraph.costs
          d.objective d.fromNode d.toNode).map (fun path =>
            (lookupEdges ctx.pceGraph path.edges).any fun edges =>
              !(st.registry.move (laterPruning.env 6).admission [] edges d.tenant.id
                d.bandwidthReservation).isOk) = .ok true)) = .ok true := by
    decide +kernel
  obtain ⟨cg, hcg, hdemand⟩ := map_eq_ok.mp hrun
  obtain ⟨d, hd, hcomputed⟩ := (Option.any_eq_true _ _).mp hdemand
  obtain ⟨path, hpath, hedges⟩ := map_eq_ok.mp (of_decide_eq_true hcomputed)
  obtain ⟨edges, hedges, hrefused⟩ := (Option.any_eq_true _ _).mp hedges
  refine ⟨cg, d, hcg, hd, ?_⟩
  intro s hadmits
  obtain ⟨edges', hedges', hmove⟩ := hadmits path hpath
  cases hedges.symm.trans hedges'
  obtain ⟨reg, hreg⟩ := hmove []
  rw [hreg] at hrefused
  cases hrefused

end Maeto.ControlPlane
