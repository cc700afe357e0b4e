import Maeto.ControlPlane.Topology
import Mathlib.Algebra.Order.Monoid.WithTop
import Mathlib.Data.Finset.Insert
import Mathlib.Algebra.Order.Ring.WithTop

/-!
# Link costs

The cost graph holds, for each topology edge, a cost per dimension. Telemetry
writes latency, jitter and loss; the PCE writes the static utilization. Costs
are exact rationals with `⊤` for the infinite cost of an unusable edge. Times
are nanoseconds.

`CostGraph.costs` is a deep copy in the source, so here it is the map itself.
-/

namespace Maeto.ControlPlane

open Foundation

abbrev Time := ℤ

abbrev ExtCost := WithTop ℚ

inductive CostDimension where
  | loss
  | latency
  | jitter
  | staticUtilization
  | utilization
  deriving DecidableEq, Repr

def CostDimension.name : CostDimension → String
  | loss => "LOSS"
  | latency => "LATENCY"
  | jitter => "JITTER"
  | staticUtilization => "STATIC_UTILIZATION"
  | utilization => "UTILIZATION"

abbrev Cost := GoMap CostDimension ExtCost

structure CostGraphEdge where
  id : EdgeID
  fromNode : NodeID
  toNode : NodeID
  deriving DecidableEq, Repr

def costKey (e : Edge) : CostGraphEdge :=
  { id := e.id, fromNode := e.localNode, toNode := e.remote }

abbrev Costs := GoMap CostGraphEdge Cost

structure CostGraph where
  graph : Costs
  byID : GoMap EdgeID CostGraphEdge
  lastSeen : GoMap EdgeID Time
  convergedEdges : Finset EdgeID
  startedAt : Time

def maxCostGraphWaitTillReady : Time := 5 * 60 * 1000000000

def costDelayReferenceMs : ℚ := 10

def convexUtilization (f : ℚ) : ℚ := f / (1 - f)

def staticUtilizationRef : ℚ := 4 / 5

def staticUtilizationCost (f : ℚ) : ExtCost :=
  if 1 ≤ f then ⊤
  else ((convexUtilization f / convexUtilization staticUtilizationRef : ℚ) : ExtCost)

namespace CostGraph

def initialCost (e : Edge) : Cost :=
  (((∅ : Cost).insert .loss 1).insert .latency
    (((e.delay : ℚ) / 1000 / costDelayReferenceMs : ℚ) : ExtCost)).insert .jitter 1
    |>.insert .staticUtilization (staticUtilizationCost 0)

def addEdge (g : Graph) (cg : CostGraph) (id : EdgeID) : Except String CostGraph :=
  match g.edges.lookup id with
  | none => .error ("Edge " ++ id ++ " does not exists")
  | some edge =>
    match cg.graph.lookup (costKey edge) with
    | some _ => .ok cg
    | none =>
      .ok { cg with
        byID := cg.byID.insert id (costKey edge)
        graph := cg.graph.insert (costKey edge) (initialCost edge) }

def newCostGraph (ord : RangeOrder) (g : Graph) (startedAt : Time) : Except String CostGraph :=
  (g.nodes.range ord).foldlM
    (fun cg n => (g.adj.getD n.1 []).foldlM (addEdge g) cg)
    { graph := ∅, byID := ∅, lastSeen := ∅, convergedEdges := ∅, startedAt }

def updateCost (c : CostGraph) (id : EdgeID) (dim : CostDimension) (cost : ExtCost) :
    CostGraph :=
  match c.byID.lookup id with
  | none => c
  | some key =>
    { c with graph := c.graph.insert key ((c.graph.getD key ∅).insert dim cost) }

def markSeen (c : CostGraph) (id : EdgeID) (at' : Time) : CostGraph :=
  { c with lastSeen := c.lastSeen.insert id at' }

def markEdgeConverged (c : CostGraph) (id : EdgeID) : CostGraph :=
  { c with convergedEdges := insert id c.convergedEdges }

def costs (c : CostGraph) : Costs := c.graph

def convergedCount (c : CostGraph) : ℕ :=
  (c.byID.keys.filter (· ∈ c.convergedEdges)).length

def isReady (c : CostGraph) (now : Time) : Bool :=
  c.convergedCount == c.byID.keys.length ||
    (decide (c.convergedCount < c.byID.keys.length) &&
      decide (now - c.startedAt > maxCostGraphWaitTillReady))

end CostGraph

def costsBetween (ord : RangeOrder) (costs : Costs) (fromNode toNode : NodeID) :
    List (CostGraphEdge × Cost) :=
  (costs.range ord).filter fun e => e.1.fromNode == fromNode && e.1.toNode == toNode

def worstCost (worst cost : Cost) : Cost :=
  cost.entries.foldl
    (fun w e =>
      match w.lookup e.1 with
      | none => w.insert e.1 e.2
      | some current => if current < e.2 then w.insert e.1 e.2 else w)
    worst

def PCEEdge.cost (e : PCEEdge) (costs : Costs) : Option Cost :=
  e.realEdges.foldl
    (fun worst edge =>
      match costs.lookup (costKey edge) with
      | none => worst
      | some cost =>
        match worst with
        | none => some cost
        | some w => some (worstCost w cost))
    none

end Maeto.ControlPlane
