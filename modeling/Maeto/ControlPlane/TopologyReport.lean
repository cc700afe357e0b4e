import Maeto.ControlPlane.Topology
import Maeto.Foundation.GoTime

/-!
# The End.X SIDs that nodes report

A node reports the SIDs of its interfaces, and the collector writes them to the edges that leave
the node. When the report was made is kept apart from the edges, one time for each node, and a
sweep withdraws the SIDs of the nodes that have been silent for too long and forgets them.

The two stay in step (`InStep`): the edges of a node with a time carry what its last report
lists, and the edges of a node without one carry nothing. Every report and every round of a
sweep keeps this, in whatever order the maps are walked.
-/

namespace Maeto.ControlPlane

open Foundation Netip GoMap

structure AdjacencyReport where
  interface : String
  endX : Addr

structure TopologyReport where
  nodeID : NodeID
  reportedAt : GoTime
  adjacencies : List AdjacencyReport

def TopologyReport.listedLast (r : TopologyReport) (iface : String) : Option Addr :=
  (r.adjacencies.reverse.find? fun a => a.interface = iface).map AdjacencyReport.endX

section SetEndXSIDs

def Edge.withEndX (node : NodeID) (sidsByIface : GoMap String Addr) (e : Edge) : Option Edge :=
  if e.localNode ≠ node then none
  else
    let sid := sidsByIface.getD e.localIface .invalid
    if sid = e.endX then none else some { e with endX := sid }

def Edge.setEndX (node : NodeID) (sids : GoMap String Addr) (e : Edge) : Edge :=
  if e.localNode = node then { e with endX := sids.getD e.localIface .invalid } else e

variable {node : NodeID} {sids : GoMap String Addr}

theorem Edge.setEndX_of_ne {e : Edge} (h : e.localNode ≠ node) : e.setEndX node sids = e :=
  if_neg h

theorem Edge.setEndX_of_eq {e : Edge} (h : e.localNode = node) :
    e.setEndX node sids = { e with endX := sids.getD e.localIface .invalid } :=
  if_pos h

theorem Edge.setEndX_id (e : Edge) : (e.setEndX node sids).id = e.id := by
  unfold Edge.setEndX
  split_ifs <;> rfl

theorem Edge.withEndX_eq (e : Edge) :
    e.withEndX node sids =
      if e.setEndX node sids = e then none else some (e.setEndX node sids) := by
  by_cases hnode : e.localNode = node
  · have hsame : { e with endX := sids.getD e.localIface .invalid } = e ↔
        sids.getD e.localIface .invalid = e.endX :=
      ⟨congrArg Edge.endX, fun h => by rw [h]⟩
    unfold Edge.withEndX
    rw [if_neg (not_not.mpr hnode), Edge.setEndX_of_eq hnode]
    exact if_congr hsame.symm rfl rfl
  · rw [Edge.setEndX_of_ne hnode, if_pos rfl]
    exact if_pos hnode

variable (ord : RangeOrder) (node sids) (g : Graph)

theorem Graph.lookup_withEndX (id : EdgeID) :
    (g.edges.copyInto ord (fun _ => Edge.withEndX node sids) g.edges).lookup id =
      (g.edges.lookup id).map (Edge.setEndX node sids) := by
  rw [lookup_copyInto]
  cases g.edges.lookup id with
  | none => rfl
  | some e =>
    rw [Option.bind_some, Edge.withEndX_eq, Option.map_some]
    split_ifs with h
    · rw [Option.none_or, h]
    · rfl

theorem Graph.edges_id_withEndX (id : EdgeID) (e : Edge)
    (h : (g.edges.copyInto ord (fun _ => Edge.withEndX node sids) g.edges).lookup id = some e) :
    e.id = id := by
  rw [Graph.lookup_withEndX, Option.map_eq_some_iff] at h
  obtain ⟨old, hold, rfl⟩ := h
  rw [Edge.setEndX_id, g.edges_id id old hold]

def Graph.setEndXSIDs : Graph × List EdgeID :=
  ({ nodes := g.nodes
     edges := g.edges.copyInto ord (fun _ => Edge.withEndX node sids) g.edges
     adj := g.adj
     edges_id := g.edges_id_withEndX node sids ord },
    (g.edges.range ord).filterMap fun e => (e.2.withEndX node sids).map Edge.id)

theorem lookup_setEndXSIDs (id : EdgeID) :
    (g.setEndXSIDs node sids ord).1.edges.lookup id =
      (g.edges.lookup id).map (Edge.setEndX node sids) :=
  g.lookup_withEndX node sids ord id

end SetEndXSIDs

structure TopologyReportCollector where
  topology : Graph
  reportedAt : GoMap NodeID GoTime

def newTopologyReportCollector (topology : Graph) : TopologyReportCollector := ⟨topology, ∅⟩

def topologyReportStaleAfter : Int64 := 30 * 10 ^ 9

namespace TopologyReportCollector

def apply (ord : RangeOrder) (c : TopologyReportCollector) (report : TopologyReport) :
    TopologyReportCollector :=
  let sidsByIface :=
    GoMap.storeEach AdjacencyReport.interface AdjacencyReport.endX report.adjacencies ∅
  { topology := (c.topology.setEndXSIDs report.nodeID sidsByIface ord).1
    reportedAt := c.reportedAt.insert report.nodeID report.reportedAt }

def clearStaleRound (ord : NodeID → RangeOrder) (now : NodeID → GoTime)
    (c : TopologyReportCollector) (e : NodeID × GoTime) : TopologyReportCollector :=
  let silentFor := (now e.1).sub e.2
  if silentFor < topologyReportStaleAfter then c
  else
    { topology := (c.topology.setEndXSIDs e.1 ∅ (ord e.1)).1
      reportedAt := c.reportedAt.erase e.1 }

def clearStale (nodes : RangeOrder) (edges : NodeID → RangeOrder) (now : NodeID → GoTime)
    (c : TopologyReportCollector) : TopologyReportCollector :=
  (c.reportedAt.range nodes).foldl (clearStaleRound edges now) c

inductive Event where
  | report (ord : RangeOrder) (r : TopologyReport)
  | sweep (nodes : RangeOrder) (edges : NodeID → RangeOrder) (now : NodeID → GoTime)

def step (c : TopologyReportCollector) : Event → TopologyReportCollector
  | .report ord r => c.apply ord r
  | .sweep nodes edges now => c.clearStale nodes edges now

def run (topology : Graph) (events : List Event) : TopologyReportCollector :=
  events.foldl step (newTopologyReportCollector topology)

def Event.report? : Event → Option TopologyReport
  | .report _ r => some r
  | .sweep _ _ _ => none

def lastReport (events : List Event) (n : NodeID) : Option TopologyReport :=
  (events.reverse.filterMap Event.report?).find? fun r => r.nodeID = n

structure InStep (last : NodeID → Option TopologyReport) (c : TopologyReportCollector) :
    Prop where
  reported : ∀ n t, c.reportedAt.lookup n = some t → ∃ r, last n = some r ∧ r.reportedAt = t ∧
    ∀ id e, c.topology.edges.lookup id = some e → e.localNode = n →
      e.endX = (r.listedLast e.localIface).getD .invalid
  silent : ∀ n, c.reportedAt.lookup n = none →
    ∀ id e, c.topology.edges.lookup id = some e → e.localNode = n → e.endX = .invalid

variable {last : NodeID → Option TopologyReport} {c : TopologyReportCollector}

theorem getD_storeEach_adjacencies (r : TopologyReport) (iface : String) :
    (GoMap.storeEach AdjacencyReport.interface AdjacencyReport.endX r.adjacencies ∅).getD iface
      .invalid = (r.listedLast iface).getD .invalid := by
  rw [GoMap.getD, lookup_storeEach, AList.lookup_empty, Option.or_none]
  rfl

variable {g : Graph}

/-- An edge after `SetEndXSIDs` is an edge from before, and it is the same one unless it leaves
the node. -/
theorem of_lookup_setEndXSIDs {node : NodeID} {sids : GoMap String Addr} {ord : RangeOrder}
    {id : EdgeID} {e : Edge}
    (h : (g.setEndXSIDs node sids ord).1.edges.lookup id = some e) :
    (e.localNode = node ∧ e.endX = sids.getD e.localIface .invalid) ∨
      (e.localNode ≠ node ∧ g.edges.lookup id = some e) := by
  rw [lookup_setEndXSIDs, Option.map_eq_some_iff] at h
  obtain ⟨old, hold, rfl⟩ := h
  by_cases hnode : old.localNode = node
  · rw [Edge.setEndX_of_eq hnode]
    exact Or.inl ⟨hnode, rfl⟩
  · rw [Edge.setEndX_of_ne hnode]
    exact Or.inr ⟨hnode, hold⟩

theorem InStep.apply (h : InStep last c) (ord : RangeOrder) (r : TopologyReport) :
    InStep (fun n => if n = r.nodeID then some r else last n) (c.apply ord r) where
  reported := by
    intro n t ht
    change (c.reportedAt.insert r.nodeID r.reportedAt).lookup n = some t at ht
    rw [lookup_insert_eq] at ht
    split_ifs at ht with hn
    · refine ⟨r, if_pos hn, Option.some.inj ht, ?_⟩
      intro id e he hlocal
      rcases of_lookup_setEndXSIDs he with ⟨-, hendX⟩ | ⟨hne, -⟩
      · rw [hendX, getD_storeEach_adjacencies]
      · exact absurd (hlocal.trans hn) hne
    · obtain ⟨r', hlast, hat, hedges⟩ := h.reported n t ht
      refine ⟨r', (if_neg hn).trans hlast, hat, ?_⟩
      intro id e he hlocal
      rcases of_lookup_setEndXSIDs he with ⟨heq, -⟩ | ⟨-, hold⟩
      · exact absurd (hlocal.symm.trans heq) hn
      · exact hedges id e hold hlocal
  silent := by
    intro n hnone
    change (c.reportedAt.insert r.nodeID r.reportedAt).lookup n = none at hnone
    rw [lookup_insert_eq] at hnone
    split_ifs at hnone with hn
    intro id e he hlocal
    rcases of_lookup_setEndXSIDs he with ⟨heq, -⟩ | ⟨-, hold⟩
    · exact absurd (hlocal.symm.trans heq) hn
    · exact h.silent n hnone id e hold hlocal

theorem InStep.clearStaleRound (h : InStep last c) (ord : NodeID → RangeOrder)
    (now : NodeID → GoTime) (entry : NodeID × GoTime) :
    InStep last (c.clearStaleRound ord now entry) := by
  unfold TopologyReportCollector.clearStaleRound
  dsimp only
  split_ifs
  · exact h
  · refine ⟨?_, ?_⟩
    · intro n t ht
      rw [lookup_erase_eq] at ht
      split_ifs at ht with hn
      obtain ⟨r, hlast, hat, hedges⟩ := h.reported n t ht
      refine ⟨r, hlast, hat, ?_⟩
      intro id e he hlocal
      rcases of_lookup_setEndXSIDs he with ⟨heq, -⟩ | ⟨-, hold⟩
      · exact absurd (hlocal.symm.trans heq) hn
      · exact hedges id e hold hlocal
    · intro n hnone id e he hlocal
      rcases of_lookup_setEndXSIDs he with ⟨-, hendX⟩ | ⟨hne, hold⟩
      · rw [hendX, getD_empty]
      · rw [lookup_erase_eq, if_neg (fun hn => hne (hlocal.trans hn))] at hnone
        exact h.silent n hnone id e hold hlocal

theorem InStep.clearStale (h : InStep last c) (nodes : RangeOrder) (edges : NodeID → RangeOrder)
    (now : NodeID → GoTime) : InStep last (c.clearStale nodes edges now) :=
  List.foldlRecOn _ _ h fun _ h entry _ => h.clearStaleRound edges now entry

theorem inStep_new (hg : ∀ id e, g.edges.lookup id = some e → e.endX = .invalid) :
    InStep (fun _ => none) (newTopologyReportCollector g) where
  reported := forall_lookup_empty _
  silent := fun _ _ id e he _ => hg id e he

theorem lastReport_concat (events : List Event) (event : Event) (n : NodeID) :
    lastReport (events ++ [event]) n =
      match event with
      | .report _ r => if n = r.nodeID then some r else lastReport events n
      | .sweep _ _ _ => lastReport events n := by
  unfold lastReport
  rw [List.reverse_concat]
  cases event with
  | report ord r =>
    change (r :: _).find? _ = _
    rw [List.find?_cons]
    by_cases hn : n = r.nodeID
    · simp [hn]
    · simp [hn, Ne.symm hn]
  | sweep nodes edges now => rfl

theorem inStep_run (hg : ∀ id e, g.edges.lookup id = some e → e.endX = .invalid)
    (events : List Event) : InStep (lastReport events) (run g events) := by
  induction events using List.reverseRecOn with
  | nil => exact inStep_new hg
  | append_singleton events event ih =>
    have hrun : run g (events ++ [event]) = (run g events).step event := List.foldl_concat ..
    rw [hrun, funext (lastReport_concat events event)]
    cases event with
    | report ord r => exact ih.apply ord r
    | sweep nodes edges now => exact ih.clearStale nodes edges now

theorem of_lookup_foldl_clearStaleRound {edges : NodeID → RangeOrder} {now : NodeID → GoTime}
    {l : List (NodeID × GoTime)} {n : NodeID} {t : GoTime}
    (h : (l.foldl (TopologyReportCollector.clearStaleRound edges now) c).reportedAt.lookup n =
      some t) :
    c.reportedAt.lookup n = some t ∧
      ((n, t) ∈ l → (now n).sub t < topologyReportStaleAfter) := by
  induction l generalizing c with
  | nil => exact ⟨h, fun hmem => absurd hmem List.not_mem_nil⟩
  | cons entry l ih =>
    obtain ⟨hround, hfresh⟩ := ih h
    unfold TopologyReportCollector.clearStaleRound at hround
    dsimp only at hround
    split_ifs at hround with hsilent
    · refine ⟨hround, fun hmem => ?_⟩
      rcases List.mem_cons.mp hmem with rfl | hmem
      · exact hsilent
      · exact hfresh hmem
    · rw [lookup_erase_eq] at hround
      split_ifs at hround with hn
      refine ⟨hround, fun hmem => ?_⟩
      rcases List.mem_cons.mp hmem with rfl | hmem
      · exact absurd rfl hn
      · exact hfresh hmem

theorem of_lookup_clearStale {nodes : RangeOrder} {edges : NodeID → RangeOrder}
    {now : NodeID → GoTime} {n : NodeID} {t : GoTime}
    (h : (c.clearStale nodes edges now).reportedAt.lookup n = some t) :
    (now n).sub t < topologyReportStaleAfter := by
  obtain ⟨hbefore, hfresh⟩ := of_lookup_foldl_clearStaleRound h
  exact hfresh ((mem_range nodes _ n t).mpr hbefore)

/-- A SID on an edge is the one that the last report of its node lists, and the node has its
time. -/
theorem InStep.of_isValid (h : InStep last c) {id : EdgeID} {e : Edge}
    (he : c.topology.edges.lookup id = some e) (hvalid : e.endX.isValid = true) :
    ∃ r, last e.localNode = some r ∧ r.listedLast e.localIface = some e.endX ∧
      c.reportedAt.lookup e.localNode = some r.reportedAt := by
  cases ht : c.reportedAt.lookup e.localNode with
  | none =>
    rw [h.silent _ ht id e he rfl] at hvalid
    cases hvalid
  | some t =>
    obtain ⟨r, hlast, hat, hedges⟩ := h.reported _ t ht
    have hendX := hedges id e he rfl
    cases hlisted : r.listedLast e.localIface with
    | none =>
      rw [hendX, hlisted] at hvalid
      cases hvalid
    | some sid =>
      rw [hlisted] at hendX
      exact ⟨r, hlast, hlisted.trans (congrArg some hendX.symm), congrArg some hat.symm⟩

/-- After every run an edge carries no other SID than the one that the last report of its node
lists last for its interface, a sweep leaves no SID from a report of more than 30 s before it, and
a report changes no edge of another node. -/
theorem run_endXSIDs (g : Graph)
    (hg : ∀ id e, g.edges.lookup id = some e → e.endX = .invalid) (events : List Event) :
    (∀ id e, (run g events).topology.edges.lookup id = some e → e.endX.isValid = true →
      ∃ r, lastReport events e.localNode = some r ∧ r.listedLast e.localIface = some e.endX) ∧
    (∀ nodes edges now T, (∀ n, T ≤ now n) → ∀ id e,
      ((run g events).clearStale nodes edges now).topology.edges.lookup id = some e →
      e.endX.isValid = true →
      ∃ r, lastReport events e.localNode = some r ∧
        T.nanos - 30 * 10 ^ 9 ≤ r.reportedAt.nanos) ∧
    (∀ ord r id e, (run g events).topology.edges.lookup id = some e → e.localNode ≠ r.nodeID →
      ((run g events).apply ord r).topology.edges.lookup id = some e) := by
  have hrun := inStep_run hg events
  refine ⟨?_, ?_, ?_⟩
  · intro id e he hvalid
    obtain ⟨r, hlast, hlisted, -⟩ := hrun.of_isValid he hvalid
    exact ⟨r, hlast, hlisted⟩
  · intro nodes edges now T hT id e he hvalid
    obtain ⟨r, hlast, -, hat⟩ := (hrun.clearStale nodes edges now).of_isValid he hvalid
    refine ⟨r, hlast, ?_⟩
    have hfresh := GoTime.nanos_lt_of_sub_lt (of_lookup_clearStale hat)
    have hstale : topologyReportStaleAfter.toInt = 30 * 10 ^ 9 := by decide
    have hnow := GoTime.le_def.mp (hT e.localNode)
    omega
  · intro ord r id e he hne
    change ((run g events).topology.setEndXSIDs _ _ ord).1.edges.lookup id = some e
    rw [lookup_setEndXSIDs, he, Option.map_some, Edge.setEndX_of_ne hne]

def reportedLink : Graph where
  nodes := ∅
  edges := (∅ : GoMap EdgeID Edge).insert "A:eth2-B:eth2"
    ⟨"A:eth2-B:eth2", "A", "B", "eth2", "eth2", 100, 0, true, .invalid⟩
  adj := ∅
  edges_id := forall_lookup_insert
    (forall_lookup_empty _) rfl

def linkReport : Event :=
  .report .listed ⟨"A", .ofUnix 100 0, [⟨"eth2", .v6 1⟩, ⟨"eth2", .v6 2⟩]⟩

/-- The link carries the second SID, until a sweep at second 131. -/
theorem run_endXSIDs_reportedLink :
    (∃ e, (run reportedLink [linkReport]).topology.edges.lookup "A:eth2-B:eth2" = some e ∧
      e.endX = .v6 2 ∧ ∃ r, lastReport [linkReport] e.localNode = some r ∧
        r.listedLast e.localIface = some e.endX) ∧
    (((run reportedLink [linkReport]).clearStale .listed (fun _ => .listed) fun _ =>
      .ofUnix 131 0).topology.edges.lookup "A:eth2-B:eth2").map Edge.endX = some .invalid := by
  have hinvalid : ∀ id e, reportedLink.edges.lookup id = some e → e.endX = .invalid :=
    forall_lookup_singleton rfl
  have he : (run reportedLink [linkReport]).topology.edges.lookup "A:eth2-B:eth2" =
      some ⟨"A:eth2-B:eth2", "A", "B", "eth2", "eth2", 100, 0, true, .v6 2⟩ := by
    decide +kernel
  exact ⟨⟨_, he, rfl, (run_endXSIDs reportedLink hinvalid [linkReport]).1 _ _ he rfl⟩,
    by decide +kernel⟩

end TopologyReportCollector

end Maeto.ControlPlane
