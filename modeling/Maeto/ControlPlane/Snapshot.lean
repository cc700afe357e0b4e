import Maeto.ControlPlane.Pce.Tick
import Maeto.ControlPlane.Service.Dispatcher
import Maeto.ControlPlane.Telemetry.Collector

/-!
# The control snapshot

The control plane publishes a snapshot of what it knows as JSON: the topology
with the costs and the bookings of its edges, the weights of the classes, the
paths in use and the recent changes of paths. JSON has no infinite number, and
one infinite number anywhere makes the whole snapshot fail to encode.

The costs of edges go through `finiteCosts`, which leaves out the infinite ones.
The costs of paths and of changes do not, so the snapshot can be encoded when
those are finite, whatever the topology, the costs and the bookings are at the
moment it is taken (`SnapshotPublisher.snapshot_finite`).

The parts of the snapshot that hold texts and whole numbers only are left out:
they can always be encoded.
-/

namespace Maeto.ControlPlane

open Foundation Netip

section Costs

def finiteCosts (ord : RangeOrder) (costs : Cost) : Cost :=
  costs.copyInto ord (fun _ c => if c = ⊤ then none else some c) ∅

theorem lookup_finiteCosts {ord : RangeOrder} {costs : Cost} {dim : CostDimension} {c : ExtCost} :
    (finiteCosts ord costs).lookup dim = some c ↔ costs.lookup dim = some c ∧ c ≠ ⊤ := by
  rw [finiteCosts, GoMap.lookup_copyInto, AList.lookup_empty, Option.or_none,
    Option.bind_eq_some_iff]
  constructor
  · rintro ⟨c', hc', hkept⟩
    split_ifs at hkept with htop
    cases hkept
    exact ⟨hc', htop⟩
  · rintro ⟨hc, htop⟩
    exact ⟨c, hc, if_neg htop⟩

end Costs

section Edges

structure BandwidthReservationState where
  edge : PCEEdgeID
  bookable : ℚ
  booked : ℚ
  free : ℚ
  bookings : ℕ
  deriving DecidableEq

def BandwidthReservationRegistry.stateOf [Rounding] (ord : RangeOrder)
    (reg : BandwidthReservationRegistry) (id : PCEEdgeID) (edge : PCEEdge) :
    BandwidthReservationState :=
  let bookable := edge.capacity * (1 - capacityHeadroom)
  let booked := (reg.lookup id).elim 0 (BandwidthReservationEdge.loadAndCapacity ord)
  { edge := id
    bookable := bookable
    booked := booked
    free := bookable - booked
    bookings := (reg.lookup id).elim 0 fun b =>
      ((b.bookings.range ord).map fun e => e.2.reservations.entries.length).sum }

def BandwidthReservationRegistry.snapshot [Rounding] (ord : RangeOrder)
    (bookings : PCEEdgeID → RangeOrder) (reg : BandwidthReservationRegistry) (graph : PCEGraph) :
    GoMap PCEEdgeID BandwidthReservationState :=
  graph.edges.copyInto ord (fun id edge => some (reg.stateOf (bookings id) id edge)) ∅

structure TopologyEdgeSnapshot where
  id : EdgeID
  localNode : NodeID
  remote : NodeID
  localIface : String
  remoteIface : String
  bandwidth : ℚ
  delayMS : ℚ
  costs : Option Cost
  up : Bool
  endX : Addr

structure PCEEdgeSnapshot where
  id : PCEEdgeID
  kind : String
  fromNode : NodeID
  toNode : NodeID
  members : List EdgeID
  capacity : ℚ
  costs : Option Cost
  reservation : Option BandwidthReservationState

def PCEEdgeKind.text : PCEEdgeKind → String
  | bundle => "bundle"
  | link => "link"

def Edge.localEnd (e : Edge) : String := e.localNode ++ ":" ++ e.localIface

def Edge.remoteEnd (e : Edge) : String := e.remote ++ ":" ++ e.remoteIface

def Edge.linkText (e : Edge) : String :=
  if e.remoteEnd < e.localEnd then e.remoteEnd ++ "|" ++ e.localEnd
  else e.localEnd ++ "|" ++ e.remoteEnd

def dedupeRound (kept : GoMap String Edge) (e : Edge) : GoMap String Edge :=
  match kept.lookup e.linkText with
  | none => kept.insert e.linkText e
  | some existing =>
    if e.localEnd < existing.localEnd then kept.insert e.linkText e else kept

def dedupeEdges (ord out : RangeOrder) (edges : GoMap EdgeID Edge) : List Edge :=
  ((((edges.range ord).map Prod.snd).foldl dedupeRound ∅).range out).map Prod.snd

structure SnapshotOrders where
  edges : RangeOrder
  deduped : RangeOrder
  edgeCosts : EdgeID → RangeOrder
  reservations : RangeOrder
  bookings : PCEEdgeID → RangeOrder
  pceEdgeCosts : PCEEdgeID → RangeOrder
  classes : RangeOrder

def snapshotEdge (ords : SnapshotOrders) (costs : Costs) (edge : Edge) : TopologyEdgeSnapshot where
  id := edge.id
  localNode := edge.localNode
  remote := edge.remote
  localIface := edge.localIface
  remoteIface := edge.remoteIface
  bandwidth := edge.bandwidth
  delayMS := (edge.delay : ℚ) / 1000
  costs := (costs.lookup (costKey edge)).map (finiteCosts (ords.edgeCosts edge.id))
  up := edge.up
  endX := edge.endX

def snapshotPCEEdge (ords : SnapshotOrders) (costs : Costs)
    (reservations : GoMap PCEEdgeID BandwidthReservationState) (id : PCEEdgeID) (edge : PCEEdge) :
    PCEEdgeSnapshot where
  id := id
  kind := id.kind.text
  fromNode := edge.nodeFrom
  toNode := edge.nodeTo
  members := edge.realEdges.map Edge.id
  capacity := edge.capacity
  costs := (edge.cost costs).map (finiteCosts (ords.pceEdgeCosts id))
  reservation := reservations.lookup id

def snapshotPCEEdges (ords : SnapshotOrders) (pceGraph : PCEGraph) (costs : Costs)
    (reservations : GoMap PCEEdgeID BandwidthReservationState) : List PCEEdgeSnapshot :=
  (pceGraph.edges.keys.insertionSort fun a b => a.toString ≤ b.toString).filterMap fun id =>
    (pceGraph.edges.lookup id).map (snapshotPCEEdge ords costs reservations id)

structure TopologySnapshot where
  edges : List TopologyEdgeSnapshot
  pceEdges : List PCEEdgeSnapshot

def snapshotTopology [Rounding] (ords : SnapshotOrders) (graph : Graph) (costs : CostGraph)
    (reservations : BandwidthReservationRegistry) : TopologySnapshot :=
  let pceGraph := newPCEGraph graph
  { edges := ((dedupeEdges ords.edges ords.deduped graph.edges).map
      (snapshotEdge ords costs.costs)).insertionSort fun a b => a.id ≤ b.id
    pceEdges := snapshotPCEEdges ords pceGraph costs.costs
      (reservations.snapshot ords.reservations ords.bookings pceGraph) }

end Edges

section Snapshot

structure PathSnapshot where
  tenant : TenantID
  label : Label
  source : NodeID
  dest : NodeID
  nodes : List NodeID
  edges : List EdgeID
  cost : ExtCost
  deriving DecidableEq

def snapshotPath (key : PathKey) (path : Path) : PathSnapshot where
  tenant := key.tenant
  label := key.label
  source := key.fromNode
  dest := key.toNode
  nodes := path.nodes
  edges := path.links
  cost := path.cost

def snapshotPaths (paths : PathSet) : List PathSnapshot :=
  (paths.keys.insertionSort fun a b => a.compare b ≠ .gt).filterMap fun key =>
    (paths.lookup key).map (snapshotPath key)

structure ClassSnapshot where
  label : Label
  name : String
  index : ℤ
  dscp : List ℤ
  objective : GoMap CostDimension ℚ

def TenantRepository.classList (ord : RangeOrder) (r : TenantRepository) : List TrafficClass :=
  ((r.classes.range ord).map Prod.snd).insertionSort fun a b => a.label ≤ b.label

def snapshotClasses (ord : RangeOrder) (tenants : TenantRepository) : List ClassSnapshot :=
  (tenants.classList ord).map fun c =>
    { label := c.label, name := c.name, index := c.index, dscp := c.dscp,
      objective := classObjective c }

structure CostModel where
  edgeEpsilon : ℚ
  delayRefMs : ℚ
  jitterRefMs : ℚ
  lossRef : ℚ
  utilizationRef : ℚ

def snapshotCostModel : CostModel where
  edgeEpsilon := costEdgeEpsilon
  delayRefMs := costDelayReferenceMs
  jitterRefMs := costJitterReferenceMs
  lossRef := costLossReference
  utilizationRef := staticUtilizationRef

structure ControlSnapshot where
  topology : TopologySnapshot
  classes : List ClassSnapshot
  paths : List PathSnapshot
  pathChanges : List PCETickReportReroute
  costModel : CostModel

structure SnapshotPublisher where
  graph : Graph
  tenants : TenantRepository
  paths : PathSet
  costs : CostGraph
  changes : List PCETickReportReroute
  bookings : BandwidthReservationRegistry

def SnapshotPublisher.snapshot [Rounding] (s : SnapshotPublisher) (ords : SnapshotOrders) :
    ControlSnapshot where
  topology := snapshotTopology ords s.graph s.costs s.bookings
  classes := snapshotClasses ords.classes s.tenants
  paths := snapshotPaths s.paths
  pathChanges := s.changes
  costModel := snapshotCostModel

end Snapshot

section Numbers

def costNumbers (costs : Option Cost) : List ExtCost :=
  costs.elim [] fun c => c.entries.map Sigma.snd

def BandwidthReservationState.numbers (s : BandwidthReservationState) : List ExtCost :=
  [(s.bookable : ExtCost), (s.booked : ExtCost), (s.free : ExtCost)]

def TopologyEdgeSnapshot.numbers (e : TopologyEdgeSnapshot) : List ExtCost :=
  [(e.bandwidth : ExtCost), (e.delayMS : ExtCost)] ++ costNumbers e.costs

def PCEEdgeSnapshot.numbers (e : PCEEdgeSnapshot) : List ExtCost :=
  [(e.capacity : ExtCost)] ++ costNumbers e.costs ++
    e.reservation.elim [] BandwidthReservationState.numbers

def TopologySnapshot.numbers (t : TopologySnapshot) : List ExtCost :=
  t.edges.flatMap TopologyEdgeSnapshot.numbers ++ t.pceEdges.flatMap PCEEdgeSnapshot.numbers

def ClassSnapshot.numbers (c : ClassSnapshot) : List ExtCost :=
  c.objective.entries.map fun e => (e.2 : ExtCost)

def PathChangeCause.numbers (c : PathChangeCause) : List CostFloat :=
  [(c.was : CostFloat), (c.now : CostFloat), c.delta, c.share]

def PCETickReportReroute.numbers (r : PCETickReportReroute) : List CostFloat :=
  [(r.fromPath.cost : CostFloat), (r.toPath.cost : CostFloat)] ++
    r.causes.flatMap PathChangeCause.numbers

def CostModel.numbers (m : CostModel) : List ExtCost :=
  [(m.edgeEpsilon : ExtCost), (m.delayRefMs : ExtCost), (m.jitterRefMs : ExtCost),
    (m.lossRef : ExtCost), (m.utilizationRef : ExtCost)]

def ControlSnapshot.numbers (s : ControlSnapshot) : List CostFloat :=
  List.map (fun x : ExtCost => (x : CostFloat)) (s.topology.numbers ++
      s.classes.flatMap ClassSnapshot.numbers ++ s.paths.map PathSnapshot.cost) ++
    s.pathChanges.flatMap PCETickReportReroute.numbers ++
    List.map (fun x : ExtCost => (x : CostFloat)) s.costModel.numbers

def jsonNumber (x : CostFloat) : Except String ℚ :=
  match x with
  | some (some v) => .ok v
  | some none => .error "json: unsupported value: +Inf"
  | none => .error "json: unsupported value: NaN"

def CostFloat.IsNumber (x : CostFloat) : Prop := ∃ v : ℚ, x = .number v

theorem CostFloat.isNumber_coe {x : ExtCost} : CostFloat.IsNumber x ↔ x ≠ ⊤ := by
  rw [WithTop.ne_top_iff_exists]
  exact exists_congr fun v => ⟨fun h => (WithTop.coe_injective h).symm, fun h => h ▸ rfl⟩

def ControlSnapshot.marshal (s : ControlSnapshot) : Except String (List ℚ) :=
  s.numbers.mapM jsonNumber

theorem ControlSnapshot.exists_marshal {s : ControlSnapshot}
    (h : ∀ x ∈ s.numbers, CostFloat.IsNumber x) : ∃ json, s.marshal = .ok json := by
  refine Result.exists_mapM_eq_ok ?_
  intro x hx
  obtain ⟨v, rfl⟩ := h x hx
  exact ⟨v, rfl⟩

end Numbers

section Finite

variable {ords : SnapshotOrders}

theorem ne_top_of_mem_costNumbers {ord : RangeOrder} {costs : Option Cost} {x : ExtCost}
    (hx : x ∈ costNumbers (costs.map (finiteCosts ord))) : x ≠ ⊤ := by
  cases costs with
  | none => cases hx
  | some c =>
    obtain ⟨⟨dim, x⟩, hmem, rfl⟩ := List.mem_map.mp hx
    exact (lookup_finiteCosts.mp (AList.mem_lookup_iff.mpr hmem)).2

theorem snapshotEdge_finite (costs : Costs) (edge : Edge) :
    ∀ x ∈ (snapshotEdge ords costs edge).numbers, x ≠ ⊤ := by
  intro x hx
  rcases List.mem_append.mp hx with hown | hcost
  · simp only [List.mem_cons, List.not_mem_nil, or_false] at hown
    rcases hown with rfl | rfl
    · exact WithTop.coe_ne_top
    · exact WithTop.coe_ne_top
  · exact ne_top_of_mem_costNumbers hcost

theorem BandwidthReservationState.finite (s : BandwidthReservationState) :
    ∀ x ∈ s.numbers, x ≠ ⊤ := by
  intro x hx
  simp only [numbers, List.mem_cons, List.not_mem_nil, or_false] at hx
  rcases hx with rfl | rfl | rfl
  · exact WithTop.coe_ne_top
  · exact WithTop.coe_ne_top
  · exact WithTop.coe_ne_top

theorem snapshotPCEEdge_finite (costs : Costs)
    (reservations : GoMap PCEEdgeID BandwidthReservationState) (id : PCEEdgeID) (edge : PCEEdge) :
    ∀ x ∈ (snapshotPCEEdge ords costs reservations id edge).numbers, x ≠ ⊤ := by
  intro x hx
  rcases List.mem_append.mp hx with hx | hstate
  · rcases List.mem_append.mp hx with hcap | hcost
    · obtain rfl := List.mem_singleton.mp hcap
      exact WithTop.coe_ne_top
    · exact ne_top_of_mem_costNumbers hcost
  · cases hres : (snapshotPCEEdge ords costs reservations id edge).reservation with
    | none =>
      rw [hres] at hstate
      cases hstate
    | some state =>
      rw [hres] at hstate
      exact state.finite x hstate

theorem snapshotTopology_finite (graph : Graph) (costs : CostGraph)
    (reservations : BandwidthReservationRegistry) :
    ∀ x ∈ (snapshotTopology ords graph costs reservations).numbers, x ≠ ⊤ := by
  intro x hx
  rcases List.mem_append.mp hx with hedge | hpce
  · obtain ⟨e, he, hx⟩ := List.mem_flatMap.mp hedge
    obtain ⟨edge, -, rfl⟩ := List.mem_map.mp ((List.mem_insertionSort _).mp he)
    exact snapshotEdge_finite _ edge x hx
  · obtain ⟨e, he, hx⟩ := List.mem_flatMap.mp hpce
    obtain ⟨id, -, hid⟩ := List.mem_filterMap.mp he
    obtain ⟨edge, -, rfl⟩ := Option.map_eq_some_iff.mp hid
    exact snapshotPCEEdge_finite _ _ id edge x hx

theorem ne_top_of_mem_snapshotPaths {paths : PathSet}
    (h : ∀ k p, paths.lookup k = some p → p.cost ≠ ⊤) {p : PathSnapshot}
    (hp : p ∈ snapshotPaths paths) : p.cost ≠ ⊤ := by
  obtain ⟨key, -, hkey⟩ := List.mem_filterMap.mp hp
  obtain ⟨path, hpath, rfl⟩ := Option.map_eq_some_iff.mp hkey
  exact h key path hpath

theorem SnapshotPublisher.snapshot_finite {s : SnapshotPublisher}
    (hpaths : ∀ k p, s.paths.lookup k = some p → p.cost ≠ ⊤)
    (hchanges : ∀ c ∈ s.changes, ∀ x ∈ c.numbers, CostFloat.IsNumber x) :
    ∀ x ∈ (s.snapshot ords).numbers, CostFloat.IsNumber x := by
  intro x hx
  simp only [ControlSnapshot.numbers, List.mem_append, List.mem_map, or_assoc] at hx
  rcases hx with ⟨x, htopology | hclass | ⟨p, hp, rfl⟩, rfl⟩ | hchange | ⟨x, hmodel, rfl⟩
  · exact CostFloat.isNumber_coe.mpr (snapshotTopology_finite _ _ _ x htopology)
  · obtain ⟨c, -, hx⟩ := List.mem_flatMap.mp hclass
    obtain ⟨e, -, rfl⟩ := List.mem_map.mp hx
    exact ⟨_, rfl⟩
  · exact CostFloat.isNumber_coe.mpr (ne_top_of_mem_snapshotPaths hpaths hp)
  · obtain ⟨c, hc, hx⟩ := List.mem_flatMap.mp hchange
    exact hchanges c hc x hx
  · simp only [CostModel.numbers, List.mem_cons, List.not_mem_nil, or_false] at hmodel
    rcases hmodel with rfl | rfl | rfl | rfl | rfl
    all_goals exact ⟨_, rfl⟩

end Finite

end Maeto.ControlPlane
