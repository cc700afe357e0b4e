import Maeto.ControlPlane.Cspf.Sound
import Maeto.ControlPlane.Pce.Report
import Maeto.ControlPlane.Reservation.Registry

/-!
# The tick of the path computation element

Once per tick the PCE brings the link states up to date, takes a snapshot of the
costs and goes through the demands in their order. For each one it prunes the
edges without room, computes a path with the live costs, and decides whether to
place the demand, keep its path or move it. Moves change the registry, and with
it the static utilization costs that later demands of the tick see.

What the PCE does not control is input: the telemetry that arrives between two
demands, the clock readings and the iteration orders. Telemetry may write any
cost of any edge and may mark any edge as seen at any time, so every history of
links that go down and come back is an input.

`demandStep_outcome` lists everything the step of one demand can do.
-/

namespace Maeto.ControlPlane

open Foundation

inductive TelemetryEvent where
  | cost (id : EdgeID) (dim : CostDimension) (cost : ExtCost)
  | seen (id : EdgeID) (time : Time)
  | converged (id : EdgeID)

def CostGraph.observe (cg : CostGraph) : TelemetryEvent → CostGraph
  | .cost id dim cost => cg.updateCost id dim cost
  | .seen id time => cg.markSeen id time
  | .converged id => cg.markEdgeConverged id

def defaultClassObjective : GoMap CostDimension ℚ :=
  (∅ : GoMap CostDimension ℚ).insert .staticUtilization 1

def classObjective (c : TrafficClass) : GoMap CostDimension ℚ :=
  if c.label = defaultClassLabel then defaultClassObjective else c.objective

def linkUtilizationCost (r : ℚ) (e : Edge) : ExtCost :=
  if 0 < e.bandwidth * (1 - capacityHeadroom) then
    staticUtilizationCost (r / (e.bandwidth * (1 - capacityHeadroom)))
  else ⊤

def updateStaticBandwidthUtilizationCost [Rounding] (ord : RangeOrder)
    (reg : BandwidthReservationRegistry) (g : PCEGraph) (cg : CostGraph) : CostGraph :=
  let reserved := reg.reservedMap ord
  (g.edges.range ord).foldl
    (fun cg e => e.2.realEdges.foldl
      (fun cg real =>
        cg.updateCost real.id .staticUtilization (linkUtilizationCost (reserved.getD e.1 0) real))
      cg)
    cg

def linkStaleAfter : Time := 15 * 1000000000

def linkState (lastSeen : GoMap EdgeID Time) (now : Time) (e : Edge) : Edge :=
  match lastSeen.lookup e.id with
  | none => e
  | some seenAt => { e with up := decide (now - seenAt < linkStaleAfter) }

@[simp] theorem linkState_id (lastSeen : GoMap EdgeID Time) (now : Time) (e : Edge) :
    (linkState lastSeen now e).id = e.id := by
  unfold linkState
  split <;> rfl

@[simp] theorem linkState_bandwidth (lastSeen : GoMap EdgeID Time) (now : Time) (e : Edge) :
    (linkState lastSeen now e).bandwidth = e.bandwidth := by
  unfold linkState
  split <;> rfl

def updateLinkStates (ord : RangeOrder) (lastSeen : GoMap EdgeID Time) (now : Time) (g : Graph) :
    Graph where
  nodes := g.nodes
  edges := g.edges.copyInto ord (fun _ e => some (linkState lastSeen now e)) g.edges
  adj := g.adj
  edges_id := by
    intro id e h
    rw [GoMap.lookup_copyInto] at h
    cases hold : g.edges.lookup id with
    | none => simp [hold] at h
    | some e' =>
      rw [hold, Option.bind_some, Option.some_or] at h
      cases h
      rw [linkState_id, g.edges_id id e' hold]

structure TickContext where
  timestamp : Time
  holdDown : Time
  pceGraph : PCEGraph
  costSnapshot : Costs
  previousCosts : Costs
  previous : PathSet

structure TickState where
  registry : BandwidthReservationRegistry
  costGraph : CostGraph
  lastReroute : GoMap PathKey Time
  paths : PathSet
  reroutes : List PCETickReportReroute
  gatedReroutes : List PCETickReportReroute

structure DemandEnv where
  telemetry : List TelemetryEvent
  prune : RangeOrder
  admission : RangeOrder
  utilization : RangeOrder
  causes : RangeOrder

def Demand.objective (d : Demand) : Objective := weightedCost (classObjective d.trafficClass)

def lookupEdges (g : PCEGraph) : List PCEEdgeID → Option (List PCEEdge)
  | [] => some []
  | id :: ids =>
    match g.edges.lookup id with
    | none => none
    | some e => (lookupEdges g ids).map (e :: ·)

def PCEGraph.Keyed (g : PCEGraph) : Prop :=
  ∀ id pe, g.edges.lookup id = some pe → pe.id = id

variable {edges : List PCEEdge}

theorem lookupEdges_eq_some {g : PCEGraph} (hg : g.Keyed) {ids : List PCEEdgeID}
    (h : lookupEdges g ids = some edges) :
    edges.map PCEEdge.id = ids ∧ ∀ e ∈ edges, g.edges.lookup e.id = some e := by
  induction ids generalizing edges with
  | nil =>
    cases h
    simp
  | cons id ids ih =>
    unfold lookupEdges at h
    cases he : g.edges.lookup id with
    | none => simp [he] at h
    | some e =>
      simp only [he] at h
      obtain ⟨rest, hrest, rfl⟩ := Option.map_eq_some_iff.mp h
      obtain ⟨hids, hmem⟩ := ih hrest
      have hid := hg id e he
      refine ⟨by rw [List.map_cons, hids, hid], ?_⟩
      intro e' he'
      rcases List.mem_cons.mp he' with rfl | he'
      · rw [hid, he]
      · exact hmem e' he'

def candidatePath [Rounding] (ctx : TickContext) (env : DemandEnv) (st : TickState) (d : Demand) :
    Option (Path × List PCEEdge) :=
  match computePath (st.registry.pruneGraph env.prune ctx.pceGraph d.tenant.id
      d.bandwidthReservation) st.costGraph.costs d.objective d.fromNode d.toNode with
  | .error _ => none
  | .ok path => (lookupEdges ctx.pceGraph path.edges).map fun edges =>
      ({ path with label := d.trafficClass.label }, edges)

def costRatioBelow (previous computed : ExtCost) : Bool :=
  match previous, computed with
  | some p, some c => if c = 0 then decide (p < 0) else decide (p / c < 11 / 10)
  | some _, none => true
  | none, _ => false

def rerouteReport (ctx : TickContext) (d : Demand) (kind : PathChangeKind) (fromPath toPath : Path)
    (causes : List PathChangeCause) : PCETickReportReroute where
  time := ctx.timestamp
  tenant := d.tenant.id
  label := d.pathKey.label
  src := d.fromNode
  dst := d.toNode
  kind := kind
  fromPath := fromPath
  toPath := toPath
  causes := causes

def emptyPath : Path := { nodes := [], edges := [], links := [], cost := 0, label := 0 }

def bookPath [Rounding] (ctx : TickContext) (env : DemandEnv) (st : TickState) (d : Demand)
    (reg : BandwidthReservationRegistry) (path : Path) (report : PCETickReportReroute) :
    TickState :=
  { st with
    registry := reg
    costGraph := updateStaticBandwidthUtilizationCost env.utilization reg ctx.pceGraph
      st.costGraph
    reroutes := st.reroutes ++ [report]
    paths := st.paths.insert d.pathKey path }

def placeDemand [Rounding] (ctx : TickContext) (env : DemandEnv) (st : TickState) (d : Demand)
    (path : Path) (edges : List PCEEdge) : TickState :=
  match st.registry.move env.admission [] edges d.tenant.id d.bandwidthReservation with
  | .error _ => st
  | .ok reg => bookPath ctx env st d reg path (rerouteReport ctx d .new emptyPath path [])

def moveDemand [Rounding] (ctx : TickContext) (env : DemandEnv) (st : TickState) (d : Demand)
    (previousPath : Path) (broken : Bool) (path : Path) (edges : List PCEEdge) : TickState :=
  match st.registry.move env.admission previousPath.edges edges d.tenant.id
      d.bandwidthReservation with
  | .error _ => st
  | .ok reg =>
    { bookPath ctx env st d reg path
        (rerouteReport ctx d (if broken then .linkDown else .rerouted) previousPath path
          (attributeCauses env.causes previousPath .latency ctx.previousCosts
            ctx.costSnapshot)) with
      lastReroute := st.lastReroute.insert d.pathKey ctx.timestamp }

def keepPath (ctx : TickContext) (env : DemandEnv) (st : TickState) (d : Demand)
    (kind : PathChangeKind) (previousPath path : Path) : TickState :=
  { st with
    gatedReroutes := st.gatedReroutes ++
      [rerouteReport ctx d kind previousPath path
        (attributeCauses env.causes previousPath .latency ctx.previousCosts ctx.costSnapshot)]
    paths := st.paths.insert d.pathKey previousPath }

def heldDown (ctx : TickContext) (st : TickState) (key : PathKey) : Bool :=
  match st.lastReroute.lookup key with
  | none => false
  | some since => decide (ctx.holdDown > ctx.timestamp - since)

def previousCost (ctx : TickContext) (d : Demand) (stored : Path) : ExtCost :=
  rescorePath ctx.pceGraph ctx.costSnapshot d.objective stored

def rescored (ctx : TickContext) (d : Demand) (stored : Path) : Path :=
  if previousCost ctx d stored = ⊤ then stored
  else { stored with cost := previousCost ctx d stored }

def replacePath [Rounding] (ctx : TickContext) (env : DemandEnv) (st : TickState) (d : Demand)
    (stored : Path) (path : Path) (edges : List PCEEdge) : TickState :=
  let broken := decide (previousCost ctx d stored = ⊤)
  let previousPath := rescored ctx d stored
  if previousPath.equal path then { st with paths := st.paths.insert d.pathKey path }
  else if !broken && costRatioBelow previousPath.cost path.cost then
    keepPath ctx env st d .gated previousPath path
  else if !broken && heldDown ctx st d.pathKey then
    keepPath ctx env st d .heldDown previousPath path
  else moveDemand ctx env st d previousPath broken path edges

def TickState.observe (st : TickState) (env : DemandEnv) : TickState :=
  { st with costGraph := env.telemetry.foldl CostGraph.observe st.costGraph }

@[simp] theorem TickState.observe_paths (st : TickState) (env : DemandEnv) :
    (st.observe env).paths = st.paths := rfl

def demandStep [Rounding] (ctx : TickContext) (env : DemandEnv) (st : TickState) (d : Demand) :
    TickState :=
  match candidatePath ctx env (st.observe env) d with
  | none => st.observe env
  | some (path, edges) =>
    match ctx.previous.lookup d.pathKey with
    | none => placeDemand ctx env (st.observe env) d path edges
    | some stored => replacePath ctx env (st.observe env) d stored path edges

@[simp] theorem rescored_edges (ctx : TickContext) (d : Demand) (stored : Path) :
    (rescored ctx d stored).edges = stored.edges := by
  unfold rescored
  split <;> rfl

/-- A candidate path comes from the search on the pruned graph, and its edges are
in the graph of the tick. -/
theorem candidatePath_eq_some {ctx : TickContext} {env : DemandEnv} {st : TickState} {d : Demand}
    {path : Path} (h : candidatePath ctx env st d = some (path, edges)) :
    (∃ found, computePath (st.registry.pruneGraph env.prune ctx.pceGraph d.tenant.id
        d.bandwidthReservation) st.costGraph.costs d.objective d.fromNode d.toNode = .ok found ∧
      path = { found with label := d.trafficClass.label }) ∧
      lookupEdges ctx.pceGraph path.edges = some edges := by
  unfold candidatePath at h
  split at h
  · cases h
  · rename_i found hfound
    obtain ⟨es, hes, heq⟩ := Option.map_eq_some_iff.mp h
    obtain ⟨rfl, rfl⟩ := Prod.mk.inj heq
    exact ⟨⟨found, hfound, rfl⟩, hes⟩

inductive DemandOutcome (ctx : TickContext) (env : DemandEnv) (d : Demand) (st : TickState) :
    TickState → Prop
  | skipped : DemandOutcome ctx env d st st
  | placed {path : Path} {edges : List PCEEdge} {reg : BandwidthReservationRegistry}
      (hcandidate : candidatePath ctx env st d = some (path, edges))
      (hprevious : ctx.previous.lookup d.pathKey = none)
      (hmove : st.registry.move env.admission [] edges d.tenant.id d.bandwidthReservation =
        .ok reg) :
      DemandOutcome ctx env d st
        (bookPath ctx env st d reg path (rerouteReport ctx d .new emptyPath path []))
  | unchanged {path : Path} {edges : List PCEEdge} {stored : Path}
      (hcandidate : candidatePath ctx env st d = some (path, edges))
      (hprevious : ctx.previous.lookup d.pathKey = some stored)
      (hequal : stored.edges = path.edges) :
      DemandOutcome ctx env d st { st with paths := st.paths.insert d.pathKey path }
  | kept {path : Path} {edges : List PCEEdge} {stored : Path} (kind : PathChangeKind)
      (hcandidate : candidatePath ctx env st d = some (path, edges))
      (hprevious : ctx.previous.lookup d.pathKey = some stored)
      (hkind : kind = .gated ∨ kind = .heldDown) :
      DemandOutcome ctx env d st (keepPath ctx env st d kind (rescored ctx d stored) path)
  | moved {path : Path} {edges : List PCEEdge} {stored : Path}
      {reg : BandwidthReservationRegistry}
      (hcandidate : candidatePath ctx env st d = some (path, edges))
      (hprevious : ctx.previous.lookup d.pathKey = some stored)
      (hworth : previousCost ctx d stored = ⊤ ∨
        costRatioBelow (previousCost ctx d stored) path.cost = false ∧
          heldDown ctx st d.pathKey = false)
      (hmove : st.registry.move env.admission stored.edges edges d.tenant.id
        d.bandwidthReservation = .ok reg) :
      DemandOutcome ctx env d st
        { bookPath ctx env st d reg path
            (rerouteReport ctx d
              (if previousCost ctx d stored = ⊤ then .linkDown else .rerouted)
              (rescored ctx d stored) path
              (attributeCauses env.causes (rescored ctx d stored) .latency ctx.previousCosts
                ctx.costSnapshot)) with
          lastReroute := st.lastReroute.insert d.pathKey ctx.timestamp }

theorem Path.equal_edges {p q : Path} (h : p.equal q = true) : p.edges = q.edges := by
  simp only [Path.equal, Bool.and_eq_true, beq_iff_eq] at h
  exact h.2

theorem replacePath_outcome {ctx : TickContext} {env : DemandEnv} {st : TickState} {d : Demand}
    {stored path : Path}
    (hcandidate : candidatePath ctx env st d = some (path, edges))
    (hprevious : ctx.previous.lookup d.pathKey = some stored) :
    DemandOutcome ctx env d st (replacePath ctx env st d stored path edges) := by
  unfold replacePath
  simp only
  split_ifs with hequal hgated hheld
  · refine .unchanged hcandidate hprevious ?_
    rw [← rescored_edges ctx d stored]
    exact Path.equal_edges hequal
  · exact .kept .gated hcandidate hprevious (Or.inl rfl)
  · exact .kept .heldDown hcandidate hprevious (Or.inr rfl)
  · unfold moveDemand
    rw [rescored_edges]
    cases hmove : st.registry.move env.admission stored.edges edges d.tenant.id
        d.bandwidthReservation with
    | error msg => exact .skipped
    | ok reg =>
      have hworth : previousCost ctx d stored = ⊤ ∨
          costRatioBelow (previousCost ctx d stored) path.cost = false ∧
            heldDown ctx st d.pathKey = false := by
        by_cases hbroken : previousCost ctx d stored = ⊤
        · exact Or.inl hbroken
        · simp only [hbroken, decide_false, Bool.not_false, Bool.true_and,
            Bool.not_eq_true, rescored, if_false] at hgated hheld
          exact Or.inr ⟨hgated, hheld⟩
      simpa using DemandOutcome.moved hcandidate hprevious hworth hmove

theorem demandStep_outcome (ctx : TickContext) (env : DemandEnv) (st : TickState) (d : Demand) :
    DemandOutcome ctx env d (st.observe env) (demandStep ctx env st d) := by
  unfold demandStep
  cases hcandidate : candidatePath ctx env (st.observe env) d with
  | none => exact .skipped
  | some found =>
    obtain ⟨path, edges⟩ := found
    cases hprevious : ctx.previous.lookup d.pathKey with
    | some stored => exact replacePath_outcome hcandidate hprevious
    | none =>
      simp only
      unfold placeDemand
      cases hmove : (st.observe env).registry.move env.admission [] edges d.tenant.id
          d.bandwidthReservation with
      | error msg => exact .skipped
      | ok reg => exact .placed hcandidate hprevious hmove

structure PCEState where
  graph : Graph
  costGraph : CostGraph
  registry : BandwidthReservationRegistry
  pathStore : PathSet
  changes : List PCETickReportReroute
  previousCosts : Costs
  lastReroute : GoMap PathKey Time

def PCEState.initial (graph : Graph) (costGraph : CostGraph) : PCEState where
  graph := graph
  costGraph := costGraph
  registry := ∅
  pathStore := ∅
  changes := []
  previousCosts := ∅
  lastReroute := ∅

structure TickInput where
  telemetry : List TelemetryEvent
  readyAt : Time
  timestamp : Time
  linksAt : Time
  links : RangeOrder
  utilization : RangeOrder
  snapshotTelemetry : List TelemetryEvent
  orders : DemandOrders
  env : ℕ → DemandEnv

def TickInput.graph (input : TickInput) (s : PCEState) : Graph :=
  updateLinkStates input.links (input.telemetry.foldl CostGraph.observe s.costGraph).lastSeen
    input.linksAt s.graph

def TickInput.costGraph [Rounding] (input : TickInput) (s : PCEState) : CostGraph :=
  input.snapshotTelemetry.foldl CostGraph.observe
    (updateStaticBandwidthUtilizationCost input.utilization s.registry
      (newPCEGraph (input.graph s))
      (input.telemetry.foldl CostGraph.observe s.costGraph))

def TickInput.context [Rounding] (input : TickInput) (holdDown : Time) (s : PCEState) : TickContext
    where
  timestamp := input.timestamp
  holdDown := holdDown
  pceGraph := newPCEGraph (input.graph s)
  costSnapshot := (input.costGraph s).costs
  previousCosts := s.previousCosts
  previous := s.pathStore

def TickInput.begin [Rounding] (input : TickInput) (s : PCEState) : TickState where
  registry := s.registry
  costGraph := input.costGraph s
  lastReroute := s.lastReroute
  paths := s.pathStore
  reroutes := []
  gatedReroutes := []

def midTick [Rounding] (holdDown : Time) (r : TenantRepository) (input : TickInput) (s : PCEState)
    (n : ℕ) : TickState :=
  ((buildDemands r input.orders).zipIdx.take n).foldl
    (fun st d => demandStep (input.context holdDown s) (input.env d.2) st d.1) (input.begin s)

theorem midTick_induction {P : TickState → Prop} {holdDown : Time} {r : TenantRepository}
    {input : TickInput} {s : PCEState} (hbegin : P (input.begin s))
    (hstep : ∀ i st, ∀ d ∈ buildDemands r input.orders, P st →
      P (demandStep (input.context holdDown s) (input.env i) st d)) (n : ℕ) :
    P (midTick holdDown r input s n) := by
  unfold midTick
  apply List.foldlRecOn _ _ hbegin
  intro st hst d hd
  have hmem := List.fst_mem_of_mem_zipIdx (List.mem_of_mem_take hd)
  exact hstep d.2 st d.1 hmem hst

def tick [Rounding] (holdDown : Time) (r : TenantRepository) (input : TickInput) (s : PCEState) :
    PCEState :=
  if (input.telemetry.foldl CostGraph.observe s.costGraph).isReady input.readyAt then
    let st := midTick holdDown r input s (buildDemands r input.orders).length
    { graph := input.graph s
      costGraph := st.costGraph
      registry := st.registry
      pathStore := st.paths
      changes := recordChanges st.gatedReroutes (recordChanges st.reroutes s.changes)
      previousCosts := (input.costGraph s).costs
      lastReroute := st.lastReroute }
  else { s with costGraph := input.telemetry.foldl CostGraph.observe s.costGraph }

def run [Rounding] (holdDown : Time) (ticks : List (TenantRepository × TickInput)) (s : PCEState) :
    PCEState :=
  ticks.foldl (fun s t => tick holdDown t.1 t.2 s) s

theorem run_induction {P : PCEState → Prop} {holdDown : Time}
    {ticks : List (TenantRepository × TickInput)} {s : PCEState} (hstart : P s)
    (htick : ∀ t ∈ ticks, ∀ s, P s → P (tick holdDown t.1 t.2 s)) :
    P (run holdDown ticks s) :=
  List.foldlRecOn ticks _ hstart fun s hs t ht => htick t ht s hs

end Maeto.ControlPlane
