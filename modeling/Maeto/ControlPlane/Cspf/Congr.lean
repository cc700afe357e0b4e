import Maeto.ControlPlane.Cspf.Search

/-!
# What the path search depends on

The search reads a graph through its sorted node names, the edge under each identity and the
adjacency list of each node, and it reads the costs through the objective. Two graphs that
agree on these give the same path (`computePath_congr`), in whatever order their maps were
filled.
-/

namespace Maeto.ControlPlane

open Foundation

/-- Two graphs with the same nodes, edges and adjacency lists, on which two snapshots give
every edge the same cost. -/
structure PCEGraph.Agrees (obj : Objective) (g g' : PCEGraph) (costs costs' : Costs) : Prop where
  nodes : g.nodes = g'.nodes
  edges : ∀ id, g.edges.lookup id = g'.edges.lookup id
  adj : ∀ n, g.adj.getD n [] = g'.adj.getD n []
  cost : ∀ id e, g.edges.lookup id = some e → obj e (e.cost costs) = obj e (e.cost costs')

section Congr

variable {obj : Objective} {g g' : PCEGraph} {costs costs' : Costs}

theorem relax_congr (h : g.Agrees obj g' costs costs') (current : NodeID) :
    relax g costs obj current = relax g' costs' obj current := by
  funext s id
  unfold relax
  rw [← h.edges id]
  cases he : g.edges.lookup id with
  | none => rfl
  | some e => simp only [h.cost id e he]

theorem searchLoop_congr
    (hrelax : ∀ current, relax g costs obj current = relax g' costs' obj current)
    (hadj : ∀ n, sortedAdj g n = sortedAdj g' n) (nodes : List NodeID) (dst : NodeID)
    (fuel : ℕ) (s : Search) :
    searchLoop g costs obj nodes dst fuel s = searchLoop g' costs' obj nodes dst fuel s := by
  have hsettle : ∀ s current, settle g costs obj s current = settle g' costs' obj s current := by
    intro s current
    unfold settle
    rw [hadj current, hrelax current]
  induction fuel generalizing s with
  | zero => rfl
  | succ fuel ih => simp only [searchLoop, hsettle, ih]

theorem reconstructLoop_congr (h : ∀ id, g.edges.lookup id = g'.edges.lookup id) (src : NodeID)
    (prev : GoMap NodeID PCEEdgeID) (fuel : ℕ) (current : NodeID) (path : Path) :
    reconstructLoop g src prev fuel current path =
      reconstructLoop g' src prev fuel current path := by
  induction fuel generalizing current path with
  | zero => rfl
  | succ fuel ih => simp only [reconstructLoop, h, ih]

theorem computePath_congr_of_sorted (hnodes : g.nodes = g'.nodes)
    (hedges : ∀ id, g.edges.lookup id = g'.edges.lookup id)
    (hrelax : ∀ current, relax g costs obj current = relax g' costs' obj current)
    (hadj : ∀ n, sortedAdj g n = sortedAdj g' n) (src dst : NodeID) :
    computePath g costs obj src dst = computePath g' costs' obj src dst := by
  have hresult : searchResult g costs obj src dst = searchResult g' costs' obj src dst := by
    unfold searchResult sortedNodes
    rw [hnodes, searchLoop_congr hrelax hadj]
  unfold computePath pathOf reconstruct
  simp only [hnodes, hresult, reconstructLoop_congr hedges]

theorem computePath_congr (h : g.Agrees obj g' costs costs') (src dst : NodeID) :
    computePath g costs obj src dst = computePath g' costs' obj src dst := by
  refine computePath_congr_of_sorted h.nodes h.edges (relax_congr h) ?_ src dst
  intro n
  unfold sortedAdj
  rw [h.adj n]

theorem rescorePath_congr (h : g.Agrees obj g' costs costs') (path : Path) :
    rescorePath g costs obj path = rescorePath g' costs' obj path := by
  unfold rescorePath
  generalize (0 : ExtCost) = total
  generalize path.edges = ids
  induction ids generalizing total with
  | nil => rfl
  | cons id ids ih =>
    unfold rescoreEdges
    rw [← h.edges id]
    cases he : g.edges.lookup id with
    | none => rfl
    | some e => simp only [h.cost id e he, ih]

end Congr

end Maeto.ControlPlane
