import Maeto.ControlPlane.DemandsLoaded
import Maeto.ControlPlane.Pce.OwnLoad
import Maeto.ControlPlane.Pce.Tiers

/-!
# Runs that do not depend on the iteration orders

The loops of a tick visit maps, and Go visits a map in another order each time. Two runs that meet
the same telemetry at the same times may so leave maps behind that were filled in different orders.
They hold the same reservations and the same costs (`Alike`), and these decide everything else: at
every demand the candidate path, the cost of the path it has, and whether it moves. So the runs
have the same paths and the same times of their last reroutes (`run_orderFree`). The orders are
those of all loops, of the demands and of the links, in every tick of their own.
-/

namespace Maeto.ControlPlane

open Foundation BandwidthReservationRegistry

section Clock

def CostGraph.clock (cg : CostGraph) : GoMap EdgeID Time × Finset EdgeID × Time :=
  (cg.lastSeen, cg.convergedEdges, cg.startedAt)

theorem CostGraph.clock_updateCost (cg : CostGraph) (id : EdgeID) (dim : CostDimension)
    (cost : ExtCost) : (cg.updateCost id dim cost).clock = cg.clock := by
  unfold updateCost
  split <;> rfl

theorem CostGraph.clock_foldl_observe {cg cg' : CostGraph} (h : cg.clock = cg'.clock)
    (events : List TelemetryEvent) :
    (events.foldl observe cg).clock = (events.foldl observe cg').clock := by
  induction events generalizing cg cg' with
  | nil => exact h
  | cons event events ih =>
    refine ih ?_
    cases event with
    | cost id dim cost => simp only [observe, clock_updateCost, h]
    | seen id time =>
      simp only [clock, Prod.mk.injEq] at h
      simp [observe, markSeen, clock, h]
    | converged id =>
      simp only [clock, Prod.mk.injEq] at h
      simp [observe, markEdgeConverged, clock, h]

theorem clock_updateStatic (ord : RangeOrder) (reg : BandwidthReservationRegistry) (g : PCEGraph)
    (cg : CostGraph) : (updateStaticBandwidthUtilizationCost ord reg g cg).clock = cg.clock := by
  rw [updateStaticBandwidthUtilizationCost_eq]
  exact List.foldlRecOn (motive := fun cg' : CostGraph => cg'.clock = cg.clock) _ _ rfl
    fun cg' h w _ => (cg'.clock_updateCost _ _ _).trans h

theorem CostGraph.Alike.isReady {cg cg' : CostGraph} (h : cg.Alike cg')
    (hclock : cg.clock = cg'.clock) (now : Time) : cg.isReady now = cg'.isReady now := by
  simp only [clock, Prod.mk.injEq] at hclock
  rw [CostGraph.isReady, CostGraph.isReady, convergedCount, convergedCount, h.byID, hclock.2.1,
    hclock.2.2]

end Clock

section Demands

variable {rates : Rates} {g : Graph} {ctx ctx' : TickContext}
  {env env' : DemandEnv} {st st' : TickState} {d : Demand}

structure TickState.SamePaths (rates : Rates) (st st' : TickState) :
    Prop extends st.Alike rates st' where
  clock : st.costGraph.clock = st'.costGraph.clock
  lastReroute : st.lastReroute = st'.lastReroute
  paths : st.paths = st'.paths

/-- Ticks at the same time, on the same links and paths, to which the paths cost the same. -/
structure TickContext.Same (g : Graph) (ctx ctx' : TickContext) : Prop where
  timestamp : ctx.timestamp = ctx'.timestamp
  holdDown : ctx.holdDown = ctx'.holdDown
  pceGraph : ctx.pceGraph = newPCEGraph g
  pceGraph' : ctx'.pceGraph = newPCEGraph g
  cost : ∀ d stored, previousCost ctx d stored = previousCost ctx' d stored
  previous : ctx.previous = ctx'.previous

theorem TickState.SamePaths.observe (h : st.SamePaths rates st')
    (htelemetry : env.telemetry = env'.telemetry) :
    (st.observe env).SamePaths rates (st'.observe env') := by
  refine ⟨h.toAlike.observe htelemetry, ?_, h.lastReroute, h.paths⟩
  unfold TickState.observe
  rw [htelemetry]
  exact CostGraph.clock_foldl_observe h.clock _

theorem TickState.SamePaths.setPath (h : st.SamePaths rates st') (key : PathKey) (path : Path)
    (gated gated' : List PCETickReportReroute) :
    { st with gatedReroutes := gated, paths := st.paths.insert key path : TickState }.SamePaths
      rates { st' with gatedReroutes := gated', paths := st'.paths.insert key path } :=
  ⟨⟨h.registry, h.carries, h.carries', h.costs, h.keyed⟩, h.clock, h.lastReroute,
    congrArg (AList.insert key path) h.paths⟩

section Booking

variable (hctx : ctx.Same g ctx') (hd : CarriesRates rates d.tenant.id
  d.bandwidthReservation.key d.bandwidthReservation)

include hctx hd

/-- The demand is booked in both states, or in neither since there is no room. -/
theorem TickState.SamePaths.book (h : st.SamePaths rates st') (src : List PCEEdgeID)
    (edges : List PCEEdge) (path : Path) (report report' : PCETickReportReroute)
    (f : GoMap PathKey Time → GoMap PathKey Time) :
    TickState.SamePaths rates
      (match st.registry.move env.admission src edges d.tenant.id d.bandwidthReservation with
      | .error _ => st
      | .ok reg => { bookPath ctx env st d reg path report with lastReroute := f st.lastReroute })
      (match st'.registry.move env'.admission src edges d.tenant.id d.bandwidthReservation with
      | .error _ => st'
      | .ok reg =>
        { bookPath ctx' env' st' d reg path report' with lastReroute := f st'.lastReroute }) := by
  have hcheck := h.registry.checkCapacity h.carries h.carries' hd env.admission env'.admission
  cases hroom : edges.find? fun e => !st'.registry.checkCapacity env'.admission e d.tenant.id
      d.bandwidthReservation with
  | some e =>
    simp only [BandwidthReservationRegistry.move, hcheck, hroom]
    exact h
  | none =>
    have hroom : ∀ e ∈ edges, st'.registry.checkCapacity env'.admission e d.tenant.id
        d.bandwidthReservation = true := by
      simpa using hroom
    have hm := move_of_room src
      fun e he => (hcheck e).trans (hroom e he)
    have hm' := move_of_room src hroom
    rw [hm, hm', h.lastReroute]
    have halike : (bookPath ctx env st d _ path report).Alike rates
        (bookPath ctx' env' st' d _ path report') :=
      h.toAlike.bookPath hctx.pceGraph hctx.pceGraph' hd hm hm'
    refine ⟨{ halike with }, ?_, rfl, ?_⟩
    · simp only [bookPath, clock_updateStatic, h.clock]
    · simp only [bookPath, h.paths]

/-- A demand that has a path keeps it, or moves, in both states alike. -/
theorem TickState.SamePaths.replacePath (h : st.SamePaths rates st') (stored path : Path)
    (edges : List PCEEdge) :
    (replacePath ctx env st d stored path edges).SamePaths rates
      (replacePath ctx' env' st' d stored path edges) := by
  have hrescored : rescored ctx d stored = rescored ctx' d stored := by
    rw [rescored, rescored, hctx.cost d stored]
  have hheld : heldDown ctx st d.pathKey = heldDown ctx' st' d.pathKey := by
    rw [heldDown, heldDown, h.lastReroute, hctx.holdDown, hctx.timestamp]
  unfold ControlPlane.replacePath
  simp only [hrescored, hheld, hctx.cost d stored]
  split_ifs
  · exact h.setPath _ _ st.gatedReroutes st'.gatedReroutes
  · exact h.setPath _ _ _ _
  · exact h.setPath _ _ _ _
  · unfold moveDemand
    rw [hctx.timestamp]
    exact h.book hctx hd _ edges path _ _ fun times => times.insert d.pathKey ctx'.timestamp

theorem TickState.SamePaths.demandStep (h : st.SamePaths rates st')
    (htelemetry : env.telemetry = env'.telemetry) :
    (demandStep ctx env st d).SamePaths rates (demandStep ctx' env' st' d) := by
  have hobserved := h.observe htelemetry
  unfold ControlPlane.demandStep
  rw [hobserved.toAlike.candidatePath hctx.pceGraph hctx.pceGraph' hd env env', hctx.previous]
  cases candidatePath ctx' env' (st'.observe env') d with
  | none => exact hobserved
  | some found =>
    cases ctx'.previous.lookup d.pathKey with
    | some stored => exact hobserved.replacePath hctx hd stored found.1 found.2
    | none => exact hobserved.book hctx hd [] found.2 found.1 _ _ id

end Booking

end Demands

section Runs

variable {r : TenantRepository} {input input' : TickInput} {s s' : PCEState} {holdDown : Time}

/-- The same telemetry at the same times. The orders may be any. -/
structure TickInput.SameTimes (input input' : TickInput) : Prop extends
    TickInput.SameEvents input input' where
  timestamp : input.timestamp = input'.timestamp

def PCEState.atRest (s : PCEState) : TickState where
  registry := s.registry
  costGraph := s.costGraph
  lastReroute := s.lastReroute
  paths := s.pathStore
  reroutes := []
  gatedReroutes := []

structure PCEState.SamePaths (rates : Rates) (s s' : PCEState) :
    Prop where
  nodes : s.graph.nodes = s'.graph.nodes
  edges : ∀ id, s.graph.edges.lookup id = s'.graph.edges.lookup id
  rest : s.atRest.SamePaths rates s'.atRest

theorem PCEState.SamePaths.observed (h : s.SamePaths r.rates s') (events : List TelemetryEvent) :
    (events.foldl CostGraph.observe s.costGraph).Alike
        (events.foldl CostGraph.observe s'.costGraph) ∧
      (events.foldl CostGraph.observe s.costGraph).clock =
        (events.foldl CostGraph.observe s'.costGraph).clock :=
  ⟨h.rest.costs.foldl_observe events, CostGraph.clock_foldl_observe h.rest.clock events⟩

theorem PCEState.SamePaths.graph (h : s.SamePaths r.rates s') (hinput : input.SameTimes input')
    (id : EdgeID) : (input.graph s).edges.lookup id = (input'.graph s').edges.lookup id := by
  have hclock := (h.observed input'.telemetry).2
  simp only [CostGraph.clock, Prod.mk.injEq] at hclock
  simp only [TickInput.graph, updateLinkStates, GoMap.lookup_copyInto, h.edges, hinput.telemetry,
    hinput.linksAt, hclock.1]

theorem PCEState.SamePaths.pceGraph (h : s.SamePaths r.rates s')
    (hinput : input.SameTimes input') :
    newPCEGraph (input.graph s) = newPCEGraph (input'.graph s') :=
  newPCEGraph_congr h.nodes (h.graph hinput)

theorem PCEState.SamePaths.begin (h : s.SamePaths r.rates s') (hinput : input.SameTimes input') :
    (input.begin s).SamePaths r.rates (input'.begin s') := by
  have hkeyed : (input'.telemetry.foldl CostGraph.observe s.costGraph).Keyed :=
    h.rest.keyed.of_byID (CostGraph.foldl_observe_byID _ _)
  obtain ⟨halike, hclock⟩ := h.observed input'.telemetry
  have hstatic := halike.updateStatic hkeyed h.rest.carries h.rest.carries' h.rest.registry
    (input'.graph s') input.utilization input'.utilization
  refine ⟨⟨h.rest.registry, h.rest.carries, h.rest.carries', ?_, ?_⟩, ?_, h.rest.lastReroute,
    h.rest.paths⟩
  · simp only [TickInput.begin, TickInput.costGraph, h.pceGraph hinput, hinput.telemetry,
      hinput.snapshotTelemetry]
    exact hstatic.foldl_observe _
  · refine h.rest.keyed.of_byID ?_
    simp only [TickInput.begin, TickInput.costGraph, CostGraph.foldl_observe_byID,
      updateStaticBandwidthUtilizationCost_byID, PCEState.atRest]
  · simp only [TickInput.begin, TickInput.costGraph, hinput.telemetry, hinput.snapshotTelemetry]
    refine CostGraph.clock_foldl_observe ?_ _
    rw [clock_updateStatic, clock_updateStatic, hclock]

theorem PCEState.SamePaths.context (h : s.SamePaths r.rates s') (hinput : input.SameTimes input') :
    (input.context holdDown s).Same (input'.graph s') (input'.context holdDown s') where
  timestamp := hinput.timestamp
  holdDown := rfl
  pceGraph := h.pceGraph hinput
  pceGraph' := rfl
  cost := by
    intro d stored
    simp only [previousCost, TickInput.context, h.pceGraph hinput]
    exact rescorePath_congr (newPCEGraph_agrees ((h.begin hinput).costs.seenBy _) _) stored
  previous := h.rest.paths

/-- A tick keeps the paths the same, whatever orders its loops visit the maps in. -/
theorem PCEState.SamePaths.tick (h : s.SamePaths r.rates s') (hinput : input.SameTimes input')
    (hdemands : buildDemands r input.orders = buildDemands r input'.orders) :
    (tick holdDown r input s).SamePaths r.rates (tick holdDown r input' s') := by
  obtain ⟨halike, hclock⟩ := h.observed input'.telemetry
  unfold ControlPlane.tick
  rw [hinput.telemetry, hinput.readyAt, halike.isReady hclock]
  split_ifs
  · have hmid : ∀ n, (midTick holdDown r input s n).SamePaths r.rates
        (midTick holdDown r input' s' n) := by
      intro n
      unfold midTick
      rw [hdemands]
      refine List.foldl_rel (h.begin hinput) ?_
      intro d hd st st' hst
      have hmem := List.fst_mem_of_mem_zipIdx (List.mem_of_mem_take hd)
      exact hst.demandStep (h.context hinput) (Demand.carriesRates hmem) (hinput.env d.2)
    have hlast := hmid (buildDemands r input'.orders).length
    rw [hdemands]
    exact ⟨h.nodes, h.graph hinput, { hlast with }⟩
  · have hkeyed := h.rest.keyed.of_byID (CostGraph.foldl_observe_byID _ input'.telemetry)
    exact ⟨h.nodes, h.edges, { h.rest with costs := halike, clock := hclock, keyed := hkeyed }⟩

variable (holdDown) in
theorem PCEState.SamePaths.run (hdistinct : r.IndexesDistinct) {inputs inputs' : List TickInput}
    (hinputs : List.Forall₂ TickInput.SameTimes inputs inputs') (h : s.SamePaths r.rates s') :
    (run holdDown (inputs.map (r, ·)) s).SamePaths r.rates
      (run holdDown (inputs'.map (r, ·)) s') := by
  induction hinputs generalizing s s' with
  | nil => exact h
  | @cons input input' _ _ hinput _ ih =>
    exact ih (h.tick hinput (hdistinct.eq_of_mayReturn (buildDemands_mayReturn r input.orders)))

/-- Two runs of a repository that was loaded, from the same start and with the same telemetry at
the same times: in whatever orders the loops of the ticks visit the maps, at every demand of every
tick, both runs have the same paths, the same times of the last reroutes, the same reservations
and the same costs at the end. -/
theorem run_orderFree (holdDown : Time) {parsePrefix : String → Option Netip.Prefix}
    {lords : LoadOrders} {raw : RawTenantDB} (hload : load parsePrefix lords raw = .ok r)
    (topo : Graph) {ord : RangeOrder} {startedAt : Time} {cg : CostGraph}
    (hcg : CostGraph.newCostGraph ord topo startedAt = .ok cg) {inputs inputs' : List TickInput}
    (hinputs : List.Forall₂ TickInput.SameTimes inputs inputs') :
    let s := run holdDown (inputs.map (r, ·)) (.initial topo cg)
    let s' := run holdDown (inputs'.map (r, ·)) (.initial topo cg)
    s.pathStore = s'.pathStore ∧ s.lastReroute = s'.lastReroute ∧
      s.registry.Alike s'.registry ∧ s.costGraph.Alike s'.costGraph := by
  obtain ⟨sites, hloaded⟩ := load_loaded hload
  have hcarries := carries_empty r.rates
  have hstart : (PCEState.initial topo cg).SamePaths r.rates (.initial topo cg) :=
    ⟨rfl, fun _ => rfl, ⟨.refl _, hcarries, hcarries, .refl cg, CostGraph.newCostGraph_keyed hcg⟩,
      rfl, rfl, rfl⟩
  have hrun := hstart.run holdDown hloaded.indexes_distinct hinputs
  exact ⟨hrun.rest.paths, hrun.rest.lastReroute, hrun.rest.registry, hrun.rest.costs⟩

def popLinks : Graph where
  nodes := ((∅ : GoMap NodeID Node).insert "a" ⟨"a", .invalid⟩).insert "b" ⟨"b", .invalid⟩
  edges := GoMap.collect Edge.id
    (["x", "y"].map fun id => { linkAB id true with localNode := "a", remote := "b" })
  adj := (∅ : GoMap NodeID (List EdgeID)).insert "a" ["x", "y"]
  edges_id := fun _ _ h => (GoMap.of_lookup_collect h).2

def otherOrders (input : TickInput) : TickInput :=
  { input with
    links := .rotated 1
    utilization := .rotated 1
    env := fun i => ⟨(input.env i).telemetry, .rotated 1, .rotated 1, .rotated 1, .rotated 1⟩ }

theorem run_orderFree_popLinks :
    ∃ r cg, load smallPrefix .listed smallTenantDB = .ok r ∧
      CostGraph.newCostGraph .listed popLinks 0 = .ok cg ∧
      (run 0 (constantTicks.map (r, ·)) (.initial popLinks cg)).pathStore =
        (run 0 ((constantTicks.map otherOrders).map (r, ·)) (.initial popLinks cg)).pathStore := by
  have hload : (load smallPrefix .listed smallTenantDB).isOk = true := by decide +kernel
  have hgraph : (CostGraph.newCostGraph .listed popLinks 0).isOk = true := by decide +kernel
  have hsame : ∀ input, TickInput.SameTimes input (otherOrders input) :=
    fun _ => ⟨⟨rfl, rfl, rfl, rfl, fun _ => rfl⟩, rfl⟩
  cases hr : load smallPrefix .listed smallTenantDB with
  | error err => simp [hr, Except.isOk, Except.toBool] at hload
  | ok r =>
    cases hcg : CostGraph.newCostGraph .listed popLinks 0 with
    | error err => simp [hcg, Except.isOk, Except.toBool] at hgraph
    | ok cg =>
      exact ⟨r, cg, rfl, rfl, (run_orderFree 0 hr popLinks hcg
        (.cons (hsame _) (.cons (hsame _) .nil))).1⟩

end Runs

end Maeto.ControlPlane
