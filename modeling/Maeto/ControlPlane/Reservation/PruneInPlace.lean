import Maeto.ControlPlane.Reservation.Prune
import Maeto.Foundation.Slices

/-!
# The graph of the path search, in memory

A graph for the path search says in three places what its edges are: in the map of the edges,
in the links that an edge stands for, and in the adjacency lists. `StandsFor` and `Listing` say
that the three agree. They do for the graph of a topology, and pruning keeps it that way.

Pruning deletes from copies of the adjacency lists. Deleting works in place, so this is told of
a graph whose lists are slices in memory: the slices of the pruned graph are new, and those of
the graph it was made from read as before (`pruneInPlace_reads`).
-/

namespace Maeto.ControlPlane

open Foundation GoMap AList

section Built

/-- An edge is listed at the node it starts from, once, and nowhere else. -/
structure PCEGraph.Listing (g : PCEGraph) : Prop where
  once_iff : ∀ n id, (g.adj.getD n []).count id = 1 ↔
    ∃ e, g.edges.lookup id = some e ∧ e.nodeFrom = n
  le_once : ∀ n id, (g.adj.getD n []).count id ≤ 1

/-- Every up link is in one edge, which leads where the link leads, and no other link is in any. -/
structure PCEGraph.StandsFor (topo : Graph) (g : PCEGraph) : Prop where
  up : ∀ e, topo.edges.lookup e.id = some e → e.up = true →
    ∃ id pe, g.edges.lookup id = some pe ∧ pe.realEdges.count e = 1 ∧
      pe.nodeFrom = e.localNode ∧ pe.nodeTo = e.remote ∧
      ∀ id' pe', g.edges.lookup id' = some pe' → e ∈ pe'.realEdges → id' = id
  only : ∀ id pe, g.edges.lookup id = some pe → ∀ e ∈ pe.realEdges,
    topo.edges.lookup e.id = some e ∧ e.up = true

theorem newPCEGraph_standsFor (topo : Graph) : (newPCEGraph topo).StandsFor topo where
  up := by
    intro e he hup
    refine ⟨_, _, (newPCEGraph_lookup topo _ _).mpr ⟨e, he, hup, rfl, rfl⟩, ?_, rfl, rfl, ?_⟩
    · exact List.count_singleton_self
    · intro id' pe' hpe' hmem
      obtain ⟨e', -, -, rfl, rfl⟩ := (newPCEGraph_lookup topo _ _).mp hpe'
      rw [List.mem_singleton.mp hmem]
  only := by
    intro id pe hpe e hmem
    obtain ⟨e', he', hup, rfl, rfl⟩ := (newPCEGraph_lookup topo _ _).mp hpe
    rw [List.mem_singleton.mp hmem]
    exact ⟨he', hup⟩

theorem addLink_adj_nodup (topo : Graph) {pg : PCEGraph} (i : EdgeID)
    (hmem : ∀ n id, id ∈ pg.adj.getD n [] ↔ id ∈ pg.edges ∧ id.fromNode = n)
    (hnodup : ∀ n, (pg.adj.getD n []).Nodup) (n : NodeID) :
    ((addLink topo pg i).adj.getD n []).Nodup := by
  unfold addLink
  split
  · exact hnodup n
  · next edge _ =>
      split_ifs
      · split
        · exact hnodup n
        · next hnone =>
            rw [getD_insert]
            split_ifs
            · refine (hnodup edge.localNode).append (List.nodup_singleton _) ?_
              rw [List.disjoint_singleton, hmem]
              exact fun h => lookup_eq_none.mp hnone h.1
            · exact hnodup n
      · exact hnodup n

theorem newPCEGraph_adj_nodup (topo : Graph) (n : NodeID) :
    ((newPCEGraph topo).adj.getD n []).Nodup := by
  have hboth : (∀ n id, id ∈ (newPCEGraph topo).adj.getD n [] ↔
      id ∈ (newPCEGraph topo).edges ∧ id.fromNode = n) ∧
        ∀ n, ((newPCEGraph topo).adj.getD n []).Nodup := by
    refine List.foldlRecOn (motive := fun pg : PCEGraph =>
      (∀ n id, id ∈ pg.adj.getD n [] ↔ id ∈ pg.edges ∧ id.fromNode = n) ∧
        ∀ n, (pg.adj.getD n []).Nodup) _ _ ?_ ?_
    · refine ⟨fun n id => by simp [getD_empty], fun n => ?_⟩
      rw [getD_empty]
      exact List.nodup_nil
    · rintro pg ⟨hmem, hnodup⟩ i _
      exact ⟨addLink_adj topo i hmem, addLink_adj_nodup topo i hmem hnodup⟩
  exact hboth.2 n

theorem PCEGraph.listing_of_nodup {g : PCEGraph} (hnodup : ∀ n, (g.adj.getD n []).Nodup)
    (hmem : ∀ n id, id ∈ g.adj.getD n [] ↔ ∃ e, g.edges.lookup id = some e ∧ e.nodeFrom = n) :
    g.Listing where
  once_iff := by
    intro n id
    rw [← hmem]
    constructor
    · intro hone
      exact List.count_pos_iff.mp (hone ▸ Nat.one_pos)
    · exact List.count_eq_one_of_mem (hnodup n)
  le_once := fun n id => List.nodup_iff_count_le_one.mp (hnodup n) id

theorem newPCEGraph_listing (topo : Graph) : (newPCEGraph topo).Listing :=
  PCEGraph.listing_of_nodup (newPCEGraph_adj_nodup topo) (newPCEGraph_consistent topo).adj

variable {g : PCEGraph}

theorem PCEGraph.Listing.nodup (h : g.Listing) (n : NodeID) : (g.adj.getD n []).Nodup :=
  List.nodup_iff_count_le_one.mpr (h.le_once n)

theorem PCEGraph.Listing.mem_iff (h : g.Listing) (n : NodeID) (id : PCEEdgeID) :
    id ∈ g.adj.getD n [] ↔ ∃ e, g.edges.lookup id = some e ∧ e.nodeFrom = n := by
  rw [← h.once_iff]
  constructor
  · exact List.count_eq_one_of_mem (h.nodup n)
  · intro hone
    exact List.count_pos_iff.mp (hone ▸ Nat.one_pos)

theorem PCEGraph.Listing.pruneGraph (h : g.Listing) (ord : RangeOrder)
    (reg : BandwidthReservationRegistry) (t : TenantID) (c : BandwidthReservation) :
    (reg.pruneGraph ord g t c).Listing := by
  refine PCEGraph.listing_of_nodup ?_ ?_
  · intro n
    rw [adj_pruneGraph]
    exact (h.nodup n).filter _
  · intro n id
    rw [adj_pruneGraph, List.mem_filter, decide_eq_true_eq, h.mem_iff]
    constructor
    · rintro ⟨⟨e, he, hfrom⟩, hid⟩
      obtain ⟨e', he'⟩ := GoMap.mem_iff.mp hid
      cases he.symm.trans (of_lookup_pruneGraph he').1
      exact ⟨e, he', hfrom⟩
    · rintro ⟨e, he, hfrom⟩
      exact ⟨⟨e, (of_lookup_pruneGraph he).1, hfrom⟩, GoMap.mem_iff.mpr ⟨e, he⟩⟩

end Built

section Memory

structure PCEGraphRef where
  nodes : GoMap NodeID Node
  edges : GoMap PCEEdgeID PCEEdge
  adj : GoMap NodeID Slice

structure ReadsAs (m : Memory PCEEdgeID) (adj : GoMap NodeID Slice)
    (lists : GoMap NodeID (List PCEEdgeID)) : Prop where
  inMemory : ∀ n s, adj.lookup n = some s → s.InMemory m
  read : ∀ n, (adj.lookup n).map (Slice.read m) = lists.lookup n

variable {m : Memory PCEEdgeID} {adj : GoMap NodeID Slice} {lists : GoMap NodeID (List PCEEdgeID)}

theorem ReadsAs.append (h : ReadsAs m adj lists) (m' : Memory PCEEdgeID) :
    ReadsAs (m ++ m') adj lists where
  inMemory := fun n s hs => (h.inMemory n s hs).append m'
  read := by
    intro n
    rw [← h.read n]
    cases hs : adj.lookup n with
    | none => rfl
    | some s => rw [Option.map_some, Option.map_some, Slice.read_append (h.inMemory n s hs)]

theorem ReadsAs.insert (h : ReadsAs m adj lists) (n : NodeID) {s : Slice}
    (hs : s.InMemory m) : ReadsAs m (AList.insert n s adj) (AList.insert n (s.read m) lists) where
  inMemory := forall_lookup_insert h.inMemory hs
  read := by
    intro n'
    rw [lookup_insert_eq, lookup_insert_eq]
    split_ifs
    · rfl
    · exact h.read n'

/-- What the graph reads as. -/
structure PCEGraphRef.Reads (m : Memory PCEEdgeID) (ref : PCEGraphRef) (g : PCEGraph) : Prop where
  nodes : ref.nodes = g.nodes
  edges : ref.edges = g.edges
  adj : ReadsAs m ref.adj g.adj

def PCEEdgeID.zero : PCEEdgeID := ⟨.bundle, "", "", "", ""⟩

def pruneRound (edges : GoMap PCEEdgeID PCEEdge) (adj : GoMap NodeID Slice)
    (e : NodeID × Slice) : StateM (Memory PCEEdgeID) (GoMap NodeID Slice) := do
  let kept ← e.2.clone >>= Slice.deleteFunc PCEEdgeID.zero fun id => decide (id ∉ edges)
  return if 0 < kept.len then adj.insert e.1 kept else adj

def pruneInPlace [Rounding] (ord : RangeOrder) (reg : BandwidthReservationRegistry)
    (ref : PCEGraphRef) (t : TenantID) (c : BandwidthReservation) : StateM (Memory PCEEdgeID)
    PCEGraphRef := do
  let edges : GoMap PCEEdgeID PCEEdge := ref.edges.copyInto ord
    (fun _ e => if reg.checkCapacity ord e t c then some e else none) ∅
  let adj ← (ref.adj.range ord).foldlM (pruneRound edges) ∅
  return { nodes := ref.nodes, edges, adj }

variable {edges : GoMap PCEEdgeID PCEEdge}

def keptOf (edges : GoMap PCEEdgeID PCEEdge) (ids : List PCEEdgeID) : Option (List PCEEdgeID) :=
  if 0 < (ids.filter fun id => decide (id ∈ edges)).length then
    some (ids.filter fun id => decide (id ∈ edges))
  else none

theorem run_pruneRound (h : ReadsAs m adj lists) (e : NodeID × Slice) :
    ∃ array adj', (pruneRound edges adj e).run m = (adj', m ++ [array]) ∧
      ReadsAs (m ++ [array]) adj'
        (GoMap.copyRound (fun _ => keptOf edges) lists (e.1, e.2.read m)) := by
  obtain ⟨kept, array, hrun, hmem, hread, hlen⟩ :=
    Slice.deleteFunc_clone PCEEdgeID.zero (fun id => decide (id ∉ edges)) e.2 m
  have hfilter : (fun id : PCEEdgeID => !decide (id ∉ edges)) = fun id => decide (id ∈ edges) := by
    funext id
    rw [decide_not, Bool.not_not]
  rw [hfilter] at hread
  refine ⟨array, if 0 < kept.len then adj.insert e.1 kept else adj, ?_, ?_⟩
  · unfold pruneRound
    rw [StateT.run_bind, hrun]
    rfl
  · rw [hlen, hread, GoMap.copyRound]
    unfold keptOf
    split_ifs
    · rw [← hread]
      exact (h.append [array]).insert e.1 hmem
    · exact h.append [array]

theorem run_foldlM_pruneRound {l : List (NodeID × Slice)}
    (hl : ∀ e ∈ l, e.2.InMemory m) {extra : Memory PCEEdgeID}
    (h : ReadsAs (m ++ extra) adj lists) :
    ∃ extra' adj', (l.foldlM (pruneRound edges) adj).run (m ++ extra) = (adj', m ++ extra') ∧
      ReadsAs (m ++ extra') adj'
        (l.foldl (GoMap.copyRound fun _ s => keptOf edges (s.read m)) lists) := by
  induction l generalizing extra adj lists with
  | nil => exact ⟨extra, adj, rfl, h⟩
  | cons e l ih =>
    obtain ⟨array, adj₁, hrun, hreads⟩ := run_pruneRound h e
    rw [List.append_assoc] at hrun hreads
    obtain ⟨extra', adj', hrest, hend⟩ :=
      ih (fun e' he' => hl e' (List.mem_cons_of_mem e he')) hreads
    refine ⟨extra', adj', ?_, ?_⟩
    · rw [List.foldlM_cons, StateT.run_bind, hrun]
      exact hrest
    · rw [Slice.read_append (hl e List.mem_cons_self)] at hend
      exact hend

theorem adj_lookup_pruneGraph (ord : RangeOrder) (reg : BandwidthReservationRegistry)
    (g : PCEGraph) (t : TenantID) (c : BandwidthReservation) (n : NodeID) :
    (reg.pruneGraph ord g t c).adj.lookup n =
      (g.adj.lookup n).bind (keptOf (reg.pruneGraph ord g t c).edges) := by
  unfold BandwidthReservationRegistry.pruneGraph
  rw [lookup_copyInto, lookup_empty, Option.or_none]
  rfl

/-- Pruning leaves a graph that reads as the pruned one, and the graph it was made from as it
was. -/
theorem pruneInPlace_reads {ref : PCEGraphRef} {g : PCEGraph}
    (h : ref.Reads m g) (ord : RangeOrder) (reg : BandwidthReservationRegistry) (t : TenantID)
    (c : BandwidthReservation) :
    ∃ extra ref', (pruneInPlace ord reg ref t c).run m = (ref', m ++ extra) ∧
      ref'.Reads (m ++ extra) (reg.pruneGraph ord g t c) ∧ ref.Reads (m ++ extra) g := by
  have hslices : ∀ e ∈ ref.adj.range ord, e.2.InMemory m := by
    rintro ⟨n, s⟩ he
    exact h.adj.inMemory n s ((mem_range ord _ n s).mp he)
  have hempty : ReadsAs (m ++ []) ∅ ∅ :=
    ⟨forall_lookup_empty _, fun n => rfl⟩
  obtain ⟨extra, adj', hrun, hreads⟩ :=
    @run_foldlM_pruneRound m _ _ (reg.pruneGraph ord g t c).edges _ hslices _ hempty
  rw [List.append_nil] at hrun
  refine ⟨extra, ⟨ref.nodes, (reg.pruneGraph ord g t c).edges, adj'⟩, ?_, ?_, ?_⟩
  · unfold pruneInPlace
    rw [h.edges, StateT.run_bind]
    change (((ref.adj.range ord).foldlM (pruneRound (reg.pruneGraph ord g t c).edges) ∅).run m >>=
      fun p => _) = _
    rw [hrun]
    rfl
  · refine ⟨h.nodes, rfl, hreads.inMemory, ?_⟩
    intro n
    rw [hreads.read n, adj_lookup_pruneGraph, ← h.adj.read n, Option.bind_map]
    change (ref.adj.copyInto ord _ ∅).lookup n = _
    rw [lookup_copyInto, lookup_empty, Option.or_none]
    rfl
  · exact ⟨h.nodes, h.edges, h.adj.append extra⟩

/-- The graph of a topology has every up link in one edge, of its own direction, and lists every
edge once. Pruning a graph that lists its edges so keeps the nodes and the edges with room for the
candidate, lists these again once, and leaves the graph as it was. -/
theorem newPCEGraph_pruned (topo : Graph) (g : PCEGraph) (hg : g.Listing)
    (m : Memory PCEEdgeID) (ref : PCEGraphRef) (href : ref.Reads m g) (ord : RangeOrder)
    (reg : BandwidthReservationRegistry) (t : TenantID) (c : BandwidthReservation) :
    ((newPCEGraph topo).StandsFor topo ∧ (newPCEGraph topo).Listing) ∧
      ∃ m' ref' pruned, (pruneInPlace ord reg ref t c).run m = (ref', m') ∧
        ref'.Reads m' pruned ∧ ref.Reads m' g ∧ pruned.nodes = g.nodes ∧
        (∀ id e, pruned.edges.lookup id = some e ↔ g.edges.lookup id = some e ∧
          BandwidthReservationEdge.loadExcluding ord (reg.lookup e.id) t c.key (some c) ≤
            e.capacity * (1 - capacityHeadroom)) ∧
        pruned.Listing := by
  obtain ⟨extra, ref', hrun, hpruned, hsame⟩ := pruneInPlace_reads href ord reg t c
  refine ⟨⟨newPCEGraph_standsFor topo, newPCEGraph_listing topo⟩, _, ref',
    reg.pruneGraph ord g t c, hrun, hpruned, hsame, rfl, ?_, hg.pruneGraph ord reg t c⟩
  intro id e
  rw [lookup_pruneGraph, Option.filter_eq_some_iff, BandwidthReservationRegistry.checkCapacity,
    decide_eq_true_eq, Rounding.round_exact, Rounding.round_exact]

/-- The two links of a topology, whose one adjacency list is an array of two. -/
theorem newPCEGraph_pruned_twoLinks :
    ∃ m ref, PCEGraphRef.Reads m ref (newPCEGraph twoLinks) ∧
      ∃ m' ref' pruned,
        (pruneInPlace .listed ∅ ref 1 ⟨⟨"A", "B", 0⟩, 200, 200⟩).run m = (ref', m') ∧
        PCEGraphRef.Reads m' ref' pruned ∧ PCEGraph.Listing pruned := by
  have hadj : (newPCEGraph twoLinks).adj =
      (∅ : GoMap NodeID (List PCEEdgeID)).insert "A" ((newPCEGraph twoLinks).adj.getD "A" []) :=
    AList.ext (by decide +kernel)
  have href : PCEGraphRef.Reads [(newPCEGraph twoLinks).adj.getD "A" []]
      ⟨(newPCEGraph twoLinks).nodes, (newPCEGraph twoLinks).edges,
        (∅ : GoMap NodeID Slice).insert "A" ⟨0, 2⟩⟩ (newPCEGraph twoLinks) := by
    refine ⟨rfl, rfl, ?_⟩
    rw [hadj]
    exact ReadsAs.insert ⟨forall_lookup_empty _, fun n => rfl⟩ "A"
      Nat.zero_lt_one
  obtain ⟨_, m', ref', pruned, hrun, hreads, _, _, _, hpruned⟩ :=
    newPCEGraph_pruned twoLinks _ (newPCEGraph_listing twoLinks) _ _ href .listed ∅ 1
      ⟨⟨"A", "B", 0⟩, 200, 200⟩
  exact ⟨_, _, href, m', ref', pruned, hrun, hreads, hpruned⟩

end Memory

end Maeto.ControlPlane
