import Maeto.ControlPlane.Pce.Failover

/-!
# What does not depend on the iteration orders

The loops of a tick visit their maps in any order, and fill other maps in that order. What
a tick decides depends on the maps as functions only. Two cost graphs are `Alike` when they
give every edge the same costs, and two registries are when they hold the same reservations.
Alike states give a demand the same candidate path (`candidatePath_congr`), and booking it
leads to alike states again (`Alike.bookPath`).
-/

namespace Maeto.ControlPlane

open Foundation GoMap BandwidthReservationRegistry AList

namespace CostGraph

def costAt (cg : CostGraph) (key : CostGraphEdge) : Option (CostDimension → Option ExtCost) :=
  (cg.graph.lookup key).map fun cost dim => cost.lookup dim

/-- The same edges with the same costs. -/
structure Alike (cg cg' : CostGraph) : Prop where
  byID : cg.byID = cg'.byID
  costAt : ∀ key, cg.costAt key = cg'.costAt key

theorem Alike.refl (cg : CostGraph) : cg.Alike cg := ⟨rfl, fun _ => rfl⟩

variable {cg cg' : CostGraph}

theorem Alike.trans {cg'' : CostGraph} (h : cg.Alike cg') (h' : cg'.Alike cg'') :
    cg.Alike cg'' :=
  ⟨h.byID.trans h'.byID, fun key => (h.costAt key).trans (h'.costAt key)⟩

def Keyed (cg : CostGraph) : Prop :=
  ∀ id key, cg.byID.lookup id = some key → key.id = id

@[simp] theorem updateCost_byID (cg : CostGraph) (id : EdgeID) (dim : CostDimension)
    (cost : ExtCost) : (cg.updateCost id dim cost).byID = cg.byID := by
  unfold updateCost
  split <;> rfl

def write (old : Option (CostDimension → Option ExtCost)) (dim : CostDimension) (cost : ExtCost) :
    CostDimension → Option ExtCost :=
  Function.update (old.getD fun _ => none) dim (some cost)

theorem Keyed.of_byID (h : cg.Keyed) (hbyID : cg'.byID = cg.byID) :
    cg'.Keyed :=
  fun id key hkey => h id key (hbyID ▸ hkey)

theorem costAt_updateCost (cg : CostGraph) (id : EdgeID) (dim : CostDimension) (cost : ExtCost)
    (key : CostGraphEdge) :
    (cg.updateCost id dim cost).costAt key =
      if cg.byID.lookup id = some key then some (write (cg.costAt key) dim cost)
      else cg.costAt key := by
  unfold updateCost
  cases hid : cg.byID.lookup id with
  | none => simp
  | some k =>
    simp only [costAt, Option.some.injEq]
    by_cases hk : k = key
    · subst hk
      rw [if_pos rfl, lookup_insert, Option.map_some]
      congr 1
      funext dim'
      rw [lookup_insert_eq, write, Function.update_apply]
      split_ifs
      · rfl
      · unfold GoMap.getD
        cases cg.graph.lookup k <;> simp
    · rw [if_neg hk, lookup_insert_ne (Ne.symm hk)]

theorem Alike.updateCost (h : cg.Alike cg') (id : EdgeID) (dim : CostDimension) (cost : ExtCost) :
    (cg.updateCost id dim cost).Alike (cg'.updateCost id dim cost) := by
  refine ⟨by simp [h.byID], fun key => ?_⟩
  rw [costAt_updateCost, costAt_updateCost, h.byID, h.costAt key]

theorem Alike.observe (h : cg.Alike cg') (event : TelemetryEvent) :
    (cg.observe event).Alike (cg'.observe event) := by
  cases event with
  | cost id dim cost => exact h.updateCost id dim cost
  | seen id time => exact ⟨h.byID, h.costAt⟩
  | converged id => exact ⟨h.byID, h.costAt⟩

theorem Alike.foldl_observe (h : cg.Alike cg') (events : List TelemetryEvent) :
    (events.foldl CostGraph.observe cg).Alike (events.foldl CostGraph.observe cg') := by
  induction events generalizing cg cg' with
  | nil => exact h
  | cons event events ih => exact ih (h.observe event)

theorem observe_byID (cg : CostGraph) (event : TelemetryEvent) :
    (cg.observe event).byID = cg.byID := by
  cases event with
  | cost id dim cost => exact updateCost_byID cg id dim cost
  | seen id time => rfl
  | converged id => rfl

theorem foldl_observe_byID (cg : CostGraph) (events : List TelemetryEvent) :
    (events.foldl CostGraph.observe cg).byID = cg.byID :=
  List.foldlRecOn (motive := fun cg' : CostGraph => cg'.byID = cg.byID) events _ rfl
    fun cg' h event _ => (observe_byID cg' event).trans h

section Writes

variable (dim : CostDimension)

def writeAll (ws : List (EdgeID × ExtCost)) (cg : CostGraph) : CostGraph :=
  ws.foldl (fun cg w => cg.updateCost w.1 dim w.2) cg

@[simp] theorem writeAll_byID (ws : List (EdgeID × ExtCost)) (cg : CostGraph) :
    (cg.writeAll dim ws).byID = cg.byID :=
  List.foldlRecOn (motive := fun cg' : CostGraph => cg'.byID = cg.byID) ws _ rfl
    fun cg' h w _ => (updateCost_byID cg' w.1 dim w.2).trans h

variable {dim} {ws : List (EdgeID × ExtCost)} {cg : CostGraph}

theorem costAt_writeAll_of_notMem {key : CostGraphEdge}
    (h : ∀ w ∈ ws, cg.byID.lookup w.1 ≠ some key) :
    (cg.writeAll dim ws).costAt key = cg.costAt key := by
  induction ws generalizing cg with
  | nil => rfl
  | cons w ws ih =>
    have hhead : (cg.updateCost w.1 dim w.2).costAt key = cg.costAt key := by
      rw [costAt_updateCost, if_neg (h w List.mem_cons_self)]
    rw [← hhead]
    apply ih
    intro w' hw'
    rw [updateCost_byID]
    exact h w' (List.mem_cons_of_mem w hw')

theorem costAt_writeAll_of_mem (hws : (ws.map Prod.fst).Nodup)
    (hkeyed : cg.Keyed) {key : CostGraphEdge} {w : EdgeID × ExtCost} (hw : w ∈ ws)
    (hkey : cg.byID.lookup w.1 = some key) :
    (cg.writeAll dim ws).costAt key = some (write (cg.costAt key) dim w.2) := by
  induction ws generalizing cg with
  | nil => cases hw
  | cons w' ws ih =>
    rw [List.map_cons, List.nodup_cons] at hws
    rcases List.mem_cons.mp hw with rfl | hw
    · have hrest : ∀ w' ∈ ws, (cg.updateCost w.1 dim w.2).byID.lookup w'.1 ≠ some key := by
        intro w' hw' hsame
        rw [updateCost_byID] at hsame
        have hid : w'.1 = w.1 := (hkeyed _ _ hsame).symm.trans (hkeyed _ _ hkey)
        exact hws.1 (hid ▸ List.mem_map_of_mem hw')
      refine (costAt_writeAll_of_notMem hrest).trans ?_
      rw [costAt_updateCost, if_pos hkey]
    · have hne : cg.byID.lookup w'.1 ≠ some key := by
        intro hsame
        have hid : w'.1 = w.1 := (hkeyed _ _ hsame).symm.trans (hkeyed _ _ hkey)
        exact hws.1 (hid ▸ List.mem_map_of_mem hw)
      have hkeyed' := hkeyed.of_byID (updateCost_byID cg w'.1 dim w'.2)
      have hstep := ih hws.2 hkeyed' hw (by rw [updateCost_byID]; exact hkey)
      rw [costAt_updateCost, if_neg hne] at hstep
      exact hstep

theorem Alike.writeAll {cg' : CostGraph} (h : cg.Alike cg') (hkeyed : cg.Keyed)
    {ws' : List (EdgeID × ExtCost)} (hws : (ws.map Prod.fst).Nodup)
    (hws' : (ws'.map Prod.fst).Nodup) (hmem : ∀ w, w ∈ ws ↔ w ∈ ws') :
    (cg.writeAll dim ws).Alike (cg'.writeAll dim ws') := by
  refine ⟨by simp [h.byID], fun key => ?_⟩
  have hkeyed' : cg'.Keyed := hkeyed.of_byID h.byID.symm
  by_cases hw : ∃ w ∈ ws, cg.byID.lookup w.1 = some key
  · obtain ⟨w, hw, hkey⟩ := hw
    rw [costAt_writeAll_of_mem hws hkeyed hw hkey,
      costAt_writeAll_of_mem hws' hkeyed' ((hmem w).mp hw) (h.byID ▸ hkey), h.costAt key]
  · have hnot : ∀ w ∈ ws, cg.byID.lookup w.1 ≠ some key := fun w hmem hkey => hw ⟨w, hmem, hkey⟩
    rw [costAt_writeAll_of_notMem hnot, costAt_writeAll_of_notMem, h.costAt key]
    intro w hw'
    rw [← h.byID]
    exact hnot w ((hmem w).mpr hw')

end Writes

end CostGraph

variable {cg : CostGraph}

theorem CostGraph.addEdge_keyed {g : Graph} {cg' : CostGraph} {id : EdgeID}
    (h : addEdge g cg id = .ok cg') (hcg : cg.Keyed) : cg'.Keyed := by
  unfold addEdge at h
  split at h
  · cases h
  · rename_i edge hedge
    split at h
    · cases h
      exact hcg
    · cases h
      intro id' key hkey
      simp only [lookup_insert_eq] at hkey
      split_ifs at hkey with hid
      · cases hkey
        rw [hid, costKey, g.edges_id id edge hedge]
      · exact hcg id' key hkey

theorem foldlM_keyed {α : Type} {f : CostGraph → α → Except String CostGraph}
    (hf : ∀ cg a cg', f cg a = .ok cg' → cg.Keyed → cg'.Keyed) {l : List α} {cg' : CostGraph}
    (h : l.foldlM f cg = .ok cg') (hcg : cg.Keyed) : cg'.Keyed := by
  induction l generalizing cg with
  | nil =>
    cases h
    exact hcg
  | cons a l ih =>
    rw [List.foldlM_cons] at h
    obtain ⟨cg₁, hstep, hrest⟩ := Result.bind_eq_ok.mp h
    exact ih hrest (hf cg a cg₁ hstep hcg)

theorem CostGraph.newCostGraph_keyed {ord : RangeOrder} {g : Graph} {startedAt : Time}
    (h : newCostGraph ord g startedAt = .ok cg) : cg.Keyed := by
  refine foldlM_keyed ?_ h fun id key hkey => by simp at hkey
  intro cg n cg' hround hcg
  exact foldlM_keyed (fun cg id cg' => addEdge_keyed) hround hcg

section Utilization

def utilizationWrites (ord : RangeOrder) (reg : BandwidthReservationRegistry) (g : PCEGraph) :
    List (EdgeID × ExtCost) :=
  (g.edges.range ord).flatMap fun e => e.2.realEdges.map fun real =>
    (real.id, linkUtilizationCost ((reg.reservedMap ord).getD e.1 0) real)

theorem updateStaticBandwidthUtilizationCost_eq (ord : RangeOrder)
    (reg : BandwidthReservationRegistry) (g : PCEGraph) (cg : CostGraph) :
    updateStaticBandwidthUtilizationCost ord reg g cg =
      cg.writeAll .staticUtilization (utilizationWrites ord reg g) := by
  unfold updateStaticBandwidthUtilizationCost CostGraph.writeAll utilizationWrites
  simp only [List.foldl_flatMap, List.foldl_map]

theorem updateStaticBandwidthUtilizationCost_byID (ord : RangeOrder)
    (reg : BandwidthReservationRegistry) (g : PCEGraph) (cg : CostGraph) :
    (updateStaticBandwidthUtilizationCost ord reg g cg).byID = cg.byID := by
  rw [updateStaticBandwidthUtilizationCost_eq, CostGraph.writeAll_byID]

variable {rates : Rates} {reg : BandwidthReservationRegistry}

theorem mem_utilizationWrites (h : reg.Carries rates) (ord : RangeOrder) (g : Graph)
    (w : EdgeID × ExtCost) :
    w ∈ utilizationWrites ord reg (newPCEGraph g) ↔
      ∃ e, g.edges.lookup e.id = some e ∧ e.up = true ∧
        w = (e.id, linkUtilizationCost
          (edgeLoad rates reg (PCEEdgeID.newLinkID e)) e) := by
  simp only [utilizationWrites, List.mem_flatMap, Prod.exists, mem_range, List.mem_map,
    h.getD_reservedMap]
  constructor
  · rintro ⟨pid, pe, hpe, real, hreal, rfl⟩
    obtain ⟨e, he, hup, rfl, rfl⟩ := (newPCEGraph_lookup g pid pe).mp hpe
    rw [PCEEdge.ofLink, List.mem_singleton] at hreal
    subst hreal
    exact ⟨real, he, hup, rfl⟩
  · rintro ⟨e, he, hup, rfl⟩
    exact ⟨_, PCEEdge.ofLink e, (newPCEGraph_lookup g _ _).mpr ⟨e, he, hup, rfl, rfl⟩, e,
      by simp [PCEEdge.ofLink], rfl⟩

theorem utilizationWrites_nodup (ord : RangeOrder) (reg : BandwidthReservationRegistry)
    (g : Graph) : ((utilizationWrites ord reg (newPCEGraph g)).map Prod.fst).Nodup := by
  have hlink : ∀ e ∈ (newPCEGraph g).edges.range ord,
      ∃ link, g.edges.lookup link.id = some link ∧ e.1 = PCEEdgeID.newLinkID link ∧
        e.2.realEdges = [link] := by
    intro e he
    obtain ⟨link, hlink, -, hid, hedge⟩ :=
      (newPCEGraph_lookup g e.1 e.2).mp ((mem_range ord _ _ _).mp he)
    exact ⟨link, hlink, hid, by rw [hedge, PCEEdge.ofLink]⟩
  rw [utilizationWrites, List.map_flatMap, List.nodup_flatMap]
  constructor
  · intro e he
    obtain ⟨link, -, -, hreal⟩ := hlink e he
    simp [hreal]
  · have hkeys := range_keys_nodup ord (newPCEGraph g).edges
    rw [List.Nodup, List.pairwise_map] at hkeys
    refine hkeys.imp_of_mem ?_
    intro a b ha hb hne
    obtain ⟨link, hlookup, hid, hreal⟩ := hlink a ha
    obtain ⟨link', hlookup', hid', hreal'⟩ := hlink b hb
    have hdiff : link.id ≠ link'.id := by
      intro hsame
      rw [hsame, hlookup'] at hlookup
      cases hlookup
      exact hne (hid.trans hid'.symm)
    simp [Function.onFun, hreal, hreal', hdiff.symm]

theorem CostGraph.Alike.updateStatic {cg cg' : CostGraph} (h : cg.Alike cg') (hkeyed : cg.Keyed)
    {reg' : BandwidthReservationRegistry} (hreg : reg.Carries rates) (hreg' : reg'.Carries rates)
    (halike : reg.Alike reg') (g : Graph) (ord ord' : RangeOrder) :
    (updateStaticBandwidthUtilizationCost ord reg (newPCEGraph g) cg).Alike
      (updateStaticBandwidthUtilizationCost ord' reg' (newPCEGraph g) cg') := by
  rw [updateStaticBandwidthUtilizationCost_eq, updateStaticBandwidthUtilizationCost_eq]
  refine h.writeAll hkeyed (utilizationWrites_nodup ord reg g)
    (utilizationWrites_nodup ord' reg' g) fun w => ?_
  simp only [mem_utilizationWrites hreg, mem_utilizationWrites hreg', halike.edgeLoad]

end Utilization

section Graphs

theorem newPCEGraph_congr {g g' : Graph} (hnodes : g.nodes = g'.nodes)
    (hedges : ∀ id, g.edges.lookup id = g'.edges.lookup id) :
    newPCEGraph g = newPCEGraph g' := by
  have hkeys : g.edges.keys.Perm g'.edges.keys := by
    rw [List.perm_ext_iff_of_nodup g.edges.keys_nodup g'.edges.keys_nodup]
    intro id
    rw [← mem_keys, ← mem_keys, mem_iff, mem_iff, hedges id]
  have hsorted : g.edges.keys.insertionSort (· ≤ ·) = g'.edges.keys.insertionSort (· ≤ ·) := by
    apply List.Perm.eq_of_pairwise' (List.pairwise_insertionSort _ _)
      (List.pairwise_insertionSort _ _)
    exact (List.perm_insertionSort _ _).trans (hkeys.trans (List.perm_insertionSort _ _).symm)
  have hadd : addLink g = addLink g' := by
    funext pg id
    unfold addLink
    rw [hedges id]
  unfold newPCEGraph
  rw [hsorted, hadd, hnodes]

theorem cost_ofLink (e : Edge) (costs : Costs) :
    (PCEEdge.ofLink e).cost costs = costs.lookup (costKey e) := by
  simp only [PCEEdge.cost, PCEEdge.ofLink, List.foldl_cons, List.foldl_nil]
  cases costs.lookup (costKey e) <;> rfl

def CostGraph.seenBy (weights : GoMap CostDimension ℚ) (cg : CostGraph) (key : CostGraphEdge) :
    Option (CostDimension → Option ExtCost) :=
  (cg.costAt key).map fun costs dim => if dim ∈ weights then costs dim else none

theorem CostGraph.Alike.seenBy {cg cg' : CostGraph} (h : cg.Alike cg')
    (weights : GoMap CostDimension ℚ) (key : CostGraphEdge) :
    cg.seenBy weights key = cg'.seenBy weights key := by
  rw [CostGraph.seenBy, CostGraph.seenBy, h.costAt key]

theorem weightedCost_congr {cg cg' : CostGraph} {weights : GoMap CostDimension ℚ} {e : Edge}
    (h : cg.seenBy weights (costKey e) = cg'.seenBy weights (costKey e)) :
    weightedCost weights (PCEEdge.ofLink e) ((PCEEdge.ofLink e).cost cg.costs) =
      weightedCost weights (PCEEdge.ofLink e) ((PCEEdge.ofLink e).cost cg'.costs) := by
  rw [cost_ofLink, cost_ofLink]
  unfold CostGraph.costs
  simp only [CostGraph.seenBy, CostGraph.costAt, Option.map_map] at h
  cases hold : cg.graph.lookup (costKey e) with
  | none =>
    rw [hold, Option.map_none] at h
    rw [Option.map_eq_none_iff.mp h.symm]
  | some cost =>
    rw [hold, Option.map_some] at h
    obtain ⟨cost', hnew, heq⟩ := Option.map_eq_some_iff.mp h.symm
    have hsame : ∀ dim ∈ weights, cost'.lookup dim = cost.lookup dim := by
      intro dim hdim
      simpa [hdim] using congrFun heq dim
    rw [hnew]
    simp only [weightedCost, GoMap.getD]
    congr 1
    refine List.foldl_ext _ _ _ fun total dim hdim => ?_
    rw [List.mem_insertionSort, ← mem_keys] at hdim
    rw [hsame dim hdim]

variable {rates : Rates} {reg reg' : BandwidthReservationRegistry}
  {cg cg' : CostGraph} {t : TenantID} {c : BandwidthReservation} {weights : GoMap CostDimension ℚ}

theorem newPCEGraph_agrees (h : ∀ key, cg.seenBy weights key = cg'.seenBy weights key) (g : Graph) :
    (newPCEGraph g).Agrees (weightedCost weights) (newPCEGraph g) cg.costs cg'.costs where
  nodes := rfl
  edges := fun _ => rfl
  adj := fun _ => rfl
  cost := by
    intro id e he
    obtain ⟨link, -, -, -, rfl⟩ := (newPCEGraph_lookup g id e).mp he
    exact weightedCost_congr (h (costKey link))

/-- When the same edges have room and cost the same, the search cannot tell the pruned graphs
apart. -/
theorem pruneGraph_agrees (h : ∀ key, cg.seenBy weights key = cg'.seenBy weights key)
    {ord ord' : RangeOrder}
    (hroom : ∀ e, reg.checkCapacity ord e t c = reg'.checkCapacity ord' e t c) (g : Graph) :
    (reg.pruneGraph ord (newPCEGraph g) t c).Agrees (weightedCost weights)
      (reg'.pruneGraph ord' (newPCEGraph g) t c) cg.costs cg'.costs := by
  have hedges : ∀ id, (reg.pruneGraph ord (newPCEGraph g) t c).edges.lookup id =
      (reg'.pruneGraph ord' (newPCEGraph g) t c).edges.lookup id := by
    intro id
    rw [lookup_pruneGraph, lookup_pruneGraph]
    simp only [hroom]
  refine ⟨rfl, hedges, ?_, ?_⟩
  · intro n
    rw [adj_pruneGraph, adj_pruneGraph]
    refine List.filter_congr fun id _ => ?_
    rw [decide_eq_decide, mem_iff, mem_iff, hedges id]
  · intro id e he
    exact (newPCEGraph_agrees h g).cost id e (of_lookup_pruneGraph he).1

end Graphs

section Step

structure TickState.Alike (rates : Rates) (st st' : TickState) :
    Prop where
  registry : st.registry.Alike st'.registry
  carries : st.registry.Carries rates
  carries' : st'.registry.Carries rates
  costs : st.costGraph.Alike st'.costGraph
  keyed : st.costGraph.Keyed

variable {rates : Rates} {ctx ctx' : TickContext}
  {env env' : DemandEnv} {st st' : TickState} {d : Demand}

theorem TickState.Alike.observe (h : st.Alike rates st')
    (htelemetry : env.telemetry = env'.telemetry) :
    (st.observe env).Alike rates (st'.observe env') := by
  refine ⟨h.registry, h.carries, h.carries', ?_, ?_⟩
  · unfold TickState.observe
    rw [htelemetry]
    exact h.costs.foldl_observe env'.telemetry
  · exact h.keyed.of_byID (CostGraph.foldl_observe_byID _ _)

variable {g : Graph}

theorem candidatePath_congr (hgraph : ctx.pceGraph = newPCEGraph g)
    (hgraph' : ctx'.pceGraph = newPCEGraph g)
    (hcosts : ∀ key, st.costGraph.seenBy (classObjective d.trafficClass) key =
      st'.costGraph.seenBy (classObjective d.trafficClass) key)
    (hroom : ∀ e, st.registry.checkCapacity env.prune e d.tenant.id d.bandwidthReservation =
      st'.registry.checkCapacity env'.prune e d.tenant.id d.bandwidthReservation) :
    candidatePath ctx env st d = candidatePath ctx' env' st' d := by
  have hpath := computePath_congr (pruneGraph_agrees hcosts hroom g) d.fromNode d.toNode
  unfold candidatePath Demand.objective
  rw [hgraph, hgraph', hpath]

theorem TickState.Alike.candidatePath (h : st.Alike rates st')
    (hgraph : ctx.pceGraph = newPCEGraph g) (hgraph' : ctx'.pceGraph = newPCEGraph g)
    (hd : CarriesRates rates d.tenant.id d.bandwidthReservation.key
      d.bandwidthReservation) (env env' : DemandEnv) :
    candidatePath ctx env st d = candidatePath ctx' env' st' d :=
  candidatePath_congr hgraph hgraph' (h.costs.seenBy _)
    (h.registry.checkCapacity h.carries h.carries' hd env.prune env'.prune)

theorem TickState.Alike.bookPath (h : st.Alike rates st')
    (hgraph : ctx.pceGraph = newPCEGraph g) (hgraph' : ctx'.pceGraph = newPCEGraph g)
    (hd : CarriesRates rates d.tenant.id d.bandwidthReservation.key
      d.bandwidthReservation) {src : List PCEEdgeID} {edges : List PCEEdge}
    {reg reg' : BandwidthReservationRegistry} {path path' : Path}
    {report report' : PCETickReportReroute}
    (hm : st.registry.move env.admission src edges d.tenant.id d.bandwidthReservation = .ok reg)
    (hm' : st'.registry.move env'.admission src edges d.tenant.id d.bandwidthReservation =
      .ok reg') :
    (bookPath ctx env st d reg path report).Alike rates
      (bookPath ctx' env' st' d reg' path' report') := by
  have hcarries := h.carries.of_move hm hd
  have hcarries' := h.carries'.of_move hm' hd
  refine ⟨h.registry.move hm hm', hcarries, hcarries', ?_, ?_⟩
  · simp only [ControlPlane.bookPath, hgraph, hgraph']
    exact h.costs.updateStatic h.keyed hcarries hcarries' (h.registry.move hm hm') g
      env.utilization env'.utilization
  · exact h.keyed.of_byID (updateStaticBandwidthUtilizationCost_byID _ _ _ _)

theorem demandStep_of_new (hadmits : AdmitsPruned ctx env (st.observe env) d)
    (hnew : ctx.previous.lookup d.pathKey = none) :
    (candidatePath ctx env (st.observe env) d = none ∧
      demandStep ctx env st d = st.observe env) ∨
    ∃ path edges reg, candidatePath ctx env (st.observe env) d = some (path, edges) ∧
      (st.observe env).registry.move env.admission [] edges d.tenant.id
        d.bandwidthReservation = .ok reg ∧
      demandStep ctx env st d = bookPath ctx env (st.observe env) d reg path
        (rerouteReport ctx d .new emptyPath path []) := by
  unfold demandStep
  cases hcandidate : candidatePath ctx env (st.observe env) d with
  | none => exact Or.inl ⟨rfl, rfl⟩
  | some found =>
    obtain ⟨path, edges⟩ := found
    obtain ⟨⟨found, hfound, rfl⟩, hedges⟩ := candidatePath_eq_some hcandidate
    obtain ⟨edges', hedges', hmove⟩ := hadmits found hfound
    rw [hedges] at hedges'
    cases hedges'
    obtain ⟨reg, hreg⟩ := hmove []
    refine Or.inr ⟨_, edges, reg, rfl, hreg, ?_⟩
    simp only [hnew, placeDemand, hreg]

theorem TickState.Alike.demandStep_of_new (h : st.Alike rates st')
    (hgraph : ctx.pceGraph = newPCEGraph g) (hgraph' : ctx'.pceGraph = newPCEGraph g)
    (hd : CarriesRates rates d.tenant.id d.bandwidthReservation.key
      d.bandwidthReservation)
    (htelemetry : env.telemetry = env'.telemetry)
    (hadmits : AdmitsPruned ctx env (st.observe env) d)
    (hadmits' : AdmitsPruned ctx' env' (st'.observe env') d)
    (hnew : ctx.previous.lookup d.pathKey = none)
    (hnew' : ctx'.previous.lookup d.pathKey = none) :
    (demandStep ctx env st d).Alike rates (demandStep ctx' env' st' d) := by
  have hobserved := h.observe htelemetry
  have hcongr := hobserved.candidatePath hgraph hgraph' hd env env'
  rcases ControlPlane.demandStep_of_new hadmits hnew with
    ⟨hnone, hstep⟩ | ⟨path, edges, reg, hsome, hm, hstep⟩
  · rcases ControlPlane.demandStep_of_new hadmits' hnew' with
      ⟨-, hstep'⟩ | ⟨path', edges', reg', hsome', -, -⟩
    · rw [hstep, hstep']
      exact hobserved
    · rw [hcongr, hsome'] at hnone
      cases hnone
  · rcases ControlPlane.demandStep_of_new hadmits' hnew' with
      ⟨hnone', -⟩ | ⟨path', edges', reg', hsome', hm', hstep'⟩
    · rw [hcongr, hnone'] at hsome
      cases hsome
    · rw [hcongr, hsome'] at hsome
      cases hsome
      rw [hstep, hstep']
      exact hobserved.bookPath hgraph hgraph' hd hm hm'

end Step

end Maeto.ControlPlane
