import Maeto.Foundation.GoMap
import Maeto.Netip.Addr
import Mathlib.Data.List.Sort
import Mathlib.Data.Rat.Lemmas
import Mathlib.Algebra.Order.Ring.Rat

/-!
# The topology graph and the graph the PCE computes on

A topology edge is one direction of a physical link. The PCE works on a graph
of logical edges, each standing for one or more topology edges; with the link
identifiers in use every logical edge stands for exactly one up link, which is
what `newPCEGraph_lookup` says.

The graph keeps its edges under their own identifiers. This is how the topology
loader builds it, and it is a field of `Graph`, so that no other graph exists.
-/

namespace Maeto.ControlPlane

open Foundation Netip GoMap AList

abbrev NodeID := String

abbrev EdgeID := String

structure Node where
  id : NodeID
  locator : Prefix
  deriving DecidableEq

structure Edge where
  id : EdgeID
  localNode : NodeID
  remote : NodeID
  localIface : String
  remoteIface : String
  bandwidth : ℚ
  delay : ℤ
  up : Bool
  endX : Addr
  deriving DecidableEq

structure Graph where
  nodes : GoMap NodeID Node
  edges : GoMap EdgeID Edge
  adj : GoMap NodeID (List EdgeID)
  edges_id : ∀ id e, edges.lookup id = some e → e.id = id

inductive PCEEdgeKind where
  | bundle
  | link
  deriving DecidableEq, Repr

structure PCEEdgeID where
  kind : PCEEdgeKind
  fromNode : NodeID
  toNode : NodeID
  group : String
  link : EdgeID
  deriving DecidableEq, Repr

namespace PCEEdgeID

def newLinkID (e : Edge) : PCEEdgeID :=
  { kind := .link, fromNode := e.localNode, toNode := e.remote, group := "", link := e.id }

def toString (id : PCEEdgeID) : String :=
  match id.kind with
  | .link => "link:" ++ id.link
  | .bundle =>
    if id.group = "" then "bundle:" ++ id.fromNode ++ "->" ++ id.toNode
    else "bundle:" ++ id.fromNode ++ "->" ++ id.toNode ++ "#" ++ id.group

end PCEEdgeID

structure PCEEdge where
  id : PCEEdgeID
  nodeFrom : NodeID
  nodeTo : NodeID
  realEdges : List Edge
  deriving DecidableEq

namespace PCEEdge

def capacity (e : PCEEdge) : ℚ :=
  match e.realEdges with
  | [] => 0
  | r :: rs =>
    (e.realEdges.length : ℚ) * rs.foldl (fun smallest x => min smallest x.bandwidth) r.bandwidth

def links (e : PCEEdge) : List EdgeID :=
  e.realEdges.map Edge.id

def ofLink (e : Edge) : PCEEdge where
  id := PCEEdgeID.newLinkID e
  nodeFrom := e.localNode
  nodeTo := e.remote
  realEdges := [e]

@[simp] theorem capacity_ofLink (e : Edge) : (ofLink e).capacity = e.bandwidth := by
  simp [capacity, ofLink]

end PCEEdge

structure PCEGraph where
  nodes : GoMap NodeID Node
  edges : GoMap PCEEdgeID PCEEdge
  adj : GoMap NodeID (List PCEEdgeID)

def addLink (g : Graph) (pg : PCEGraph) (id : EdgeID) : PCEGraph :=
  match g.edges.lookup id with
  | none => pg
  | some edge =>
    if edge.up then
      match pg.edges.lookup (PCEEdgeID.newLinkID edge) with
      | some pceEdge =>
        { pg with
          edges := pg.edges.insert (PCEEdgeID.newLinkID edge)
            { pceEdge with realEdges := pceEdge.realEdges ++ [edge] } }
      | none =>
        { pg with
          edges := pg.edges.insert (PCEEdgeID.newLinkID edge) (PCEEdge.ofLink edge)
          adj := pg.adj.insert edge.localNode
            (pg.adj.getD edge.localNode [] ++ [PCEEdgeID.newLinkID edge]) }
    else pg

def newPCEGraph (g : Graph) : PCEGraph :=
  (g.edges.keys.insertionSort (· ≤ ·)).foldl (addLink g) ⟨g.nodes, ∅, ∅⟩

theorem newPCEGraph_nodes (g : Graph) : (newPCEGraph g).nodes = g.nodes := by
  refine List.foldlRecOn (motive := fun pg : PCEGraph => pg.nodes = g.nodes) _ _ rfl ?_
  intro pg hpg id _
  unfold addLink
  split
  · exact hpg
  · split_ifs
    · split
      · exact hpg
      · exact hpg
    · exact hpg

theorem addLink_adj (g : Graph) {pg : PCEGraph} (i : EdgeID)
    (h : ∀ n id, id ∈ pg.adj.getD n [] ↔ id ∈ pg.edges ∧ id.fromNode = n) (n : NodeID)
    (id : PCEEdgeID) :
    id ∈ (addLink g pg i).adj.getD n [] ↔ id ∈ (addLink g pg i).edges ∧ id.fromNode = n := by
  unfold addLink
  split
  · exact h n id
  · rename_i edge _
    split_ifs
    · split
      · rename_i hknown
        rw [h n id, mem_insert]
        have hmem := mem_iff.mpr ⟨_, hknown⟩
        refine and_congr_left fun _ => ⟨Or.inr, ?_⟩
        rintro (rfl | hid)
        · exact hmem
        · exact hid
      · rw [getD_insert, mem_insert]
        split_ifs with hn
        · rw [List.mem_append, List.mem_singleton, ← hn, h n id]
          constructor
          · rintro (⟨hid, hfrom⟩ | rfl)
            · exact ⟨Or.inr hid, hfrom⟩
            · exact ⟨Or.inl rfl, hn.symm⟩
          · rintro ⟨rfl | hid, hfrom⟩
            · exact Or.inr rfl
            · exact Or.inl ⟨hid, hfrom⟩
        · rw [h n id]
          refine and_congr_left fun hfrom => ⟨Or.inr, ?_⟩
          rintro (rfl | hid)
          · exact absurd hfrom.symm hn
          · exact hid
    · exact h n id

theorem newPCEGraph_adj (g : Graph) (n : NodeID) (id : PCEEdgeID) :
    id ∈ (newPCEGraph g).adj.getD n [] ↔ id ∈ (newPCEGraph g).edges ∧ id.fromNode = n := by
  refine List.foldlRecOn (motive := fun pg : PCEGraph =>
    ∀ n id, id ∈ pg.adj.getD n [] ↔ id ∈ pg.edges ∧ id.fromNode = n) _ _ ?_ ?_ n id
  · intro n id
    simp [getD_empty]
  · intro pg hpg i _
    exact addLink_adj g i hpg

def BuiltFrom (g : Graph) (ids : List EdgeID) (pid : PCEEdgeID) (pe : PCEEdge) : Prop :=
  ∃ e, e.id ∈ ids ∧ g.edges.lookup e.id = some e ∧ e.up = true ∧
    pid = PCEEdgeID.newLinkID e ∧ pe = PCEEdge.ofLink e

theorem builtFrom_append_singleton (g : Graph) (ids : List EdgeID) (id : EdgeID)
    (pid : PCEEdgeID) (pe : PCEEdge) :
    BuiltFrom g (ids ++ [id]) pid pe ↔
      BuiltFrom g ids pid pe ∨
        ∃ e, g.edges.lookup id = some e ∧ e.up = true ∧
          pid = PCEEdgeID.newLinkID e ∧ pe = PCEEdge.ofLink e := by
  constructor
  · rintro ⟨e, hmem, he, hrest⟩
    rcases List.mem_append.mp hmem with hmem | hmem
    · exact Or.inl ⟨e, hmem, he, hrest⟩
    · rw [List.mem_singleton.mp hmem] at he
      exact Or.inr ⟨e, he, hrest⟩
  · rintro (⟨e, hmem, hrest⟩ | ⟨e, he, hrest⟩)
    · exact ⟨e, List.mem_append_left _ hmem, hrest⟩
    · have heid := g.edges_id id e he
      exact ⟨e, by simp [heid], by rw [heid, he], hrest⟩

theorem addLink_lookup {g : Graph} {pg : PCEGraph} {id : EdgeID}
    (hfresh : ∀ e, g.edges.lookup id = some e → pg.edges.lookup (PCEEdgeID.newLinkID e) = none)
    (pid : PCEEdgeID) (pe : PCEEdge) :
    (addLink g pg id).edges.lookup pid = some pe ↔
      pg.edges.lookup pid = some pe ∨
        ∃ e, g.edges.lookup id = some e ∧ e.up = true ∧
          pid = PCEEdgeID.newLinkID e ∧ pe = PCEEdge.ofLink e := by
  cases hlook : g.edges.lookup id with
  | none => simp [addLink, hlook]
  | some edge =>
    cases hup : edge.up with
    | false => simp [addLink, hlook, hup]
    | true =>
      have hnone := hfresh edge hlook
      have hadd : (addLink g pg id).edges =
          pg.edges.insert (PCEEdgeID.newLinkID edge) (PCEEdge.ofLink edge) := by
        simp [addLink, hlook, hup, hnone]
      rw [hadd, lookup_insert_eq]
      by_cases hp : pid = PCEEdgeID.newLinkID edge
      · subst hp
        simp [hnone, hup, eq_comm (a := pe)]
      · simp [hp]

theorem foldl_addLink_lookup (g : Graph) (ids : List EdgeID) (hnd : ids.Nodup)
    (pid : PCEEdgeID) (pe : PCEEdge) :
    (ids.foldl (addLink g) ⟨g.nodes, ∅, ∅⟩).edges.lookup pid = some pe ↔
      BuiltFrom g ids pid pe := by
  induction ids using List.reverseRecOn generalizing pid pe with
  | nil => simp [BuiltFrom]
  | append_singleton ids id ih =>
    have hnd' := List.nodup_append.mp hnd
    have hid : id ∉ ids := fun h => hnd'.2.2 id h id (by simp) rfl
    rw [List.foldl_append, List.foldl_cons, List.foldl_nil, builtFrom_append_singleton,
      ← ih hnd'.1]
    apply addLink_lookup
    intro edge hlook
    by_contra hne
    obtain ⟨pe', hpe'⟩ := Option.ne_none_iff_exists'.mp hne
    obtain ⟨e, hmem, -, -, hpid, -⟩ := (ih hnd'.1 _ _).mp hpe'
    have hsame : edge.id = e.id := congrArg PCEEdgeID.link hpid
    rw [← hsame, g.edges_id id edge hlook] at hmem
    exact hid hmem

theorem newPCEGraph_lookup (g : Graph) (pid : PCEEdgeID) (pe : PCEEdge) :
    (newPCEGraph g).edges.lookup pid = some pe ↔
      ∃ e, g.edges.lookup e.id = some e ∧ e.up = true ∧
        pid = PCEEdgeID.newLinkID e ∧ pe = PCEEdge.ofLink e := by
  have hperm := List.perm_insertionSort (fun a b : EdgeID => a ≤ b) g.edges.keys
  unfold newPCEGraph
  rw [foldl_addLink_lookup g _ (hperm.nodup_iff.mpr g.edges.keys_nodup)]
  constructor
  · rintro ⟨e, _, hrest⟩
    exact ⟨e, hrest⟩
  · rintro ⟨e, he, hrest⟩
    refine ⟨e, ?_, he, hrest⟩
    rw [hperm.mem_iff, ← mem_keys]
    exact mem_iff.mpr ⟨e, he⟩

theorem newPCEGraph_id (g : Graph) {pid : PCEEdgeID} {pe : PCEEdge}
    (h : (newPCEGraph g).edges.lookup pid = some pe) : pe.id = pid := by
  obtain ⟨e, _, _, rfl, rfl⟩ := (newPCEGraph_lookup g pid pe).mp h
  rfl

end Maeto.ControlPlane
