import Maeto.ControlPlane.Tenants

/-!
# Constrained shortest path first

`computePath` finds a cheapest path between two nodes of a PCE graph: it settles
the nearest node that is not settled yet, in the order of the node names, and
relaxes the edges that leave it, in the order of their texts, until the
destination is the nearest node or no node is reachable. The path is then read
back along the predecessor edges.

The nodes of a search are settled one after the other, so `visited` is kept as a
list with the newest node first. The two loops have a bound on their rounds that
is never reached, which is shown with the other facts about the search in
`Cspf.Sound`.
-/

namespace Maeto.ControlPlane

open Foundation

abbrev Objective := PCEEdge → Option Cost → ExtCost

structure Path where
  nodes : List NodeID
  edges : List PCEEdgeID
  links : List EdgeID
  cost : ExtCost
  label : Label
  deriving DecidableEq

def Path.equal (p other : Path) : Bool :=
  p.label == other.label && p.nodes == other.nodes && p.edges == other.edges

inductive PathError where
  | unknownNode (n : NodeID)
  | noPath (src dst : NodeID)
  | brokenChain (n : NodeID)
  | predecessorMissing (id : PCEEdgeID)
  | unfinished
  deriving DecidableEq

def PathError.text : PathError → String
  | unknownNode n => "node not in topology: " ++ n
  | noPath src dst => "no path to destination: " ++ src ++ " -> " ++ dst
  | brokenChain n => "no path to destination: broken predecessor chain at " ++ n
  | predecessorMissing id =>
    "no path to destination: predecessor edge " ++ id.toString ++ " missing"
  | unfinished => ""

def costEdgeEpsilon : ℚ := 1

def weightedCost (weights : GoMap CostDimension ℚ) : Objective := fun _ c =>
  match c with
  | none => ⊤
  | some c =>
    (costEdgeEpsilon : ExtCost) +
      (weights.keys.insertionSort fun a b => a.name ≤ b.name).foldl
        (fun total dim => total + ((weights.getD dim 0 : ℚ) : ExtCost) * c.getD dim 0) 0

structure Search where
  dist : GoMap NodeID ExtCost
  prev : GoMap NodeID PCEEdgeID
  visited : List NodeID

namespace Search

def distAt (s : Search) (n : NodeID) : ExtCost := s.dist.getD n 0

def consider (s : Search) (best : Option (NodeID × ExtCost)) (n : NodeID) :
    Option (NodeID × ExtCost) :=
  if n ∈ s.visited ∨ best.elim ⊤ Prod.snd ≤ s.distAt n then best else some (n, s.distAt n)

def nearest (nodes : List NodeID) (s : Search) : Option NodeID :=
  (nodes.foldl s.consider none).map Prod.fst

def start (nodes : List NodeID) (src : NodeID) : Search where
  dist := (nodes.foldl (fun d n => d.insert n ⊤) (∅ : GoMap NodeID ExtCost)).insert src 0
  prev := ∅
  visited := []

end Search

section Search

variable (g : PCEGraph) (costs : Costs) (obj : Objective)

def relax (current : NodeID) (s : Search) (edgeID : PCEEdgeID) : Search :=
  match g.edges.lookup edgeID with
  | none => s
  | some edge =>
    if edge.nodeTo ∈ s.visited then s
    else if s.distAt current + obj edge (edge.cost costs) < s.distAt edge.nodeTo then
      { s with
        dist := s.dist.insert edge.nodeTo (s.distAt current + obj edge (edge.cost costs))
        prev := s.prev.insert edge.nodeTo edgeID }
    else s

def sortedAdj (n : NodeID) : List PCEEdgeID :=
  (g.adj.getD n []).insertionSort fun a b => a.toString ≤ b.toString

def settle (s : Search) (current : NodeID) : Search :=
  (sortedAdj g current).foldl (relax g costs obj current)
    { s with visited := current :: s.visited }

def searchLoop (nodes : List NodeID) (dst : NodeID) : ℕ → Search → Search
  | 0, s => s
  | fuel + 1, s =>
    match s.nearest nodes with
    | none => s
    | some current =>
      if current = dst then s else searchLoop nodes dst fuel (settle g costs obj s current)

def reconstructLoop (src : NodeID) (prev : GoMap NodeID PCEEdgeID) :
    ℕ → NodeID → Path → Except PathError Path
  | 0, _, _ => .error .unfinished
  | fuel + 1, current, path =>
    if current = src then .ok path
    else
      match prev.lookup current with
      | none => .error (.brokenChain current)
      | some edgeID =>
        match g.edges.lookup edgeID with
        | none => .error (.predecessorMissing edgeID)
        | some edge =>
          reconstructLoop src prev fuel edge.nodeFrom
            { path with
              edges := path.edges ++ [edgeID]
              links := path.links ++ edge.links
              nodes := path.nodes ++ [edge.nodeFrom] }

def reconstruct (src dst : NodeID) (prev : GoMap NodeID PCEEdgeID) : Except PathError Path :=
  (reconstructLoop g src prev (g.nodes.keys.length + 1) dst
    { nodes := [dst], edges := [], links := [], cost := 0, label := 0 }).map fun path =>
      { path with
        nodes := path.nodes.reverse
        edges := path.edges.reverse
        links := path.links.reverse }

def sortedNodes : List NodeID := g.nodes.keys.insertionSort (· ≤ ·)

def searchResult (src dst : NodeID) : Search :=
  searchLoop g costs obj (sortedNodes g) dst (g.nodes.keys.length + 1)
    (Search.start (sortedNodes g) src)

def pathOf (src dst : NodeID) (s : Search) : Except PathError Path :=
  if s.distAt dst = ⊤ then .error (.noPath src dst)
  else (reconstruct g src dst s.prev).map fun path => { path with cost := s.distAt dst }

def computePath (src dst : NodeID) : Except PathError Path :=
  if src ∉ g.nodes then .error (.unknownNode src)
  else if dst ∉ g.nodes then .error (.unknownNode dst)
  else if src = dst then .ok { nodes := [src], edges := [], links := [], cost := 0, label := 0 }
  else pathOf g src dst (searchResult g costs obj src dst)

def rescoreEdges : ExtCost → List PCEEdgeID → ExtCost
  | total, [] => total
  | total, edgeID :: rest =>
    match g.edges.lookup edgeID with
    | none => ⊤
    | some edge => rescoreEdges (total + obj edge (edge.cost costs)) rest

def rescorePath (path : Path) : ExtCost := rescoreEdges g costs obj 0 path.edges

end Search

end Maeto.ControlPlane
