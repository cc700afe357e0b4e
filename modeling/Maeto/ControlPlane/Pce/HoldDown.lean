import Maeto.ControlPlane.Pce.Failover

/-!
# Hold-down

A key that was rerouted keeps its path for the hold-down time, unless the path is broken.
The tick takes a path for broken when its cost is infinite. A path with an absent edge is,
and so is one whose edges are all there but one of them costs infinitely much: to the default
class, every edge that is booked to its last bookable bit.

The reports of the ticks are the history of a run (`reroutesAt`), and `lastReroute` holds the
time of the last reroute of each key (`lastReroute_of_history`). With it, a reroute within the
hold-down time leaves a dead link exactly when the cost of the path that is left is infinite
only because of an absent edge (`leavesDeadLink_iff`).
-/

namespace Maeto.ControlPlane

open Foundation

def PCETickReportReroute.pathKey (rep : PCETickReportReroute) : PathKey where
  tenant := rep.tenant
  fromNode := rep.src
  toNode := rep.dst
  label := rep.label

def reroutesOf (k : PathKey) (reports : List PCETickReportReroute) : List PCETickReportReroute :=
  reports.filter fun rep => rep.kind ≠ .new ∧ rep.pathKey = k

@[simp] theorem rerouteReport_pathKey (ctx : TickContext) (d : Demand) (kind : PathChangeKind)
    (fromPath toPath : Path) (causes : List PathChangeCause) :
    (rerouteReport ctx d kind fromPath toPath causes).pathKey = d.pathKey := rfl

@[simp] theorem rerouteReport_kind (ctx : TickContext) (d : Demand) (kind : PathChangeKind)
    (fromPath toPath : Path) (causes : List PathChangeCause) :
    (rerouteReport ctx d kind fromPath toPath causes).kind = kind := rfl

@[simp] theorem rerouteReport_fromPath (ctx : TickContext) (d : Demand) (kind : PathChangeKind)
    (fromPath toPath : Path) (causes : List PathChangeCause) :
    (rerouteReport ctx d kind fromPath toPath causes).fromPath = fromPath := rfl

@[simp] theorem rescored_equal (ctx : TickContext) (d : Demand) (stored path : Path) :
    (rescored ctx d stored).equal path = stored.equal path := by
  unfold rescored
  split <;> rfl

theorem heldDown_of_lookup {ctx : TickContext} {st : TickState} {key : PathKey} {since : Time}
    (h : st.lastReroute.lookup key = some since) :
    heldDown ctx st key = decide (ctx.holdDown > ctx.timestamp - since) := by
  rw [heldDown, h]

section Step

variable (ctx : TickContext) (env : DemandEnv) (st : TickState) (d : Demand)

structure Leaves (stored path : Path) (edges : List PCEEdge) : Prop where
  candidate : candidatePath ctx env st d = some (path, edges)
  previous : ctx.previous.lookup d.pathKey = some stored
  differs : stored.equal path = false
  worth : previousCost ctx d stored = ⊤ ∨
    costRatioBelow (previousCost ctx d stored) path.cost = false ∧
      heldDown ctx st d.pathKey = false

variable {ctx env st d}

def leaveReport (ctx : TickContext) (env : DemandEnv) (d : Demand) (stored path : Path) :
    PCETickReportReroute :=
  rerouteReport ctx d (if previousCost ctx d stored = ⊤ then .linkDown else .rerouted)
    (rescored ctx d stored) path
    (attributeCauses env.causes (rescored ctx d stored) .latency ctx.previousCosts
      ctx.costSnapshot)

theorem leaveReport_kind (stored path : Path) :
    (leaveReport ctx env d stored path).kind ≠ .new := by
  rw [leaveReport, rerouteReport_kind]
  split <;> simp

theorem leaveReport_pathKey (stored path : Path) :
    (leaveReport ctx env d stored path).pathKey = d.pathKey := rfl

theorem demandStep_of_leaves {stored path : Path} {edges : List PCEEdge}
    (hadmits : AdmitsPruned ctx env (st.observe env) d)
    (h : Leaves ctx env (st.observe env) d stored path edges) :
    (demandStep ctx env st d).reroutes = st.reroutes ++ [leaveReport ctx env d stored path] ∧
      (demandStep ctx env st d).lastReroute = st.lastReroute.insert d.pathKey ctx.timestamp := by
  obtain ⟨⟨found, hfound, rfl⟩, hedges⟩ := candidatePath_eq_some h.candidate
  obtain ⟨edges', hedges', hmove⟩ := hadmits found hfound
  rw [hedges] at hedges'
  cases hedges'
  obtain ⟨reg, hreg⟩ := hmove stored.edges
  have hstep : demandStep ctx env st d =
      moveDemand ctx env (st.observe env) d (rescored ctx d stored)
        (decide (previousCost ctx d stored = ⊤))
        { found with label := d.trafficClass.label } edges := by
    unfold demandStep
    simp only [h.candidate, h.previous, replacePath, rescored_equal, h.differs]
    rcases h.worth with htop | ⟨hratio, hheld⟩
    · simp [htop]
    · by_cases htop : previousCost ctx d stored = ⊤
      · simp [htop]
      · simp [rescored, htop, hratio, hheld]
  rw [hstep, moveDemand, rescored_edges, hreg]
  simp [bookPath, leaveReport, TickState.observe]

theorem demandStep_of_not_leaves
    (h : ∀ stored path edges, ¬ Leaves ctx env (st.observe env) d stored path edges)
    (k : PathKey) :
    reroutesOf k (demandStep ctx env st d).reroutes = reroutesOf k st.reroutes ∧
      (demandStep ctx env st d).lastReroute = st.lastReroute := by
  unfold demandStep
  cases hcandidate : candidatePath ctx env (st.observe env) d with
  | none => exact ⟨rfl, rfl⟩
  | some found =>
    obtain ⟨path, edges⟩ := found
    simp only
    cases hprevious : ctx.previous.lookup d.pathKey with
    | none =>
      simp only [placeDemand]
      split
      · exact ⟨rfl, rfl⟩
      · simp [bookPath, reroutesOf, TickState.observe]
    | some stored =>
      simp only [replacePath]
      split_ifs with hequal hgated hheld
      · exact ⟨rfl, rfl⟩
      · exact ⟨rfl, rfl⟩
      · exact ⟨rfl, rfl⟩
      · refine absurd ⟨hcandidate, hprevious, ?_, ?_⟩ (h stored path edges)
        · simpa using hequal
        · by_cases htop : previousCost ctx d stored = ⊤
          · exact Or.inl htop
          · simp only [rescored, htop, decide_false, Bool.not_false, Bool.true_and,
              Bool.not_eq_true, if_false] at hgated hheld
            exact Or.inr ⟨hgated, hheld⟩

def historyOf (k : PathKey) (st : TickState) : List PCETickReportReroute × Option Time :=
  (reroutesOf k st.reroutes, st.lastReroute.lookup k)

theorem demandStep_historyOf (ctx : TickContext) (env : DemandEnv) (st : TickState)
    {d : Demand} {k : PathKey} (hk : k ≠ d.pathKey) :
    historyOf k (demandStep ctx env st d) = historyOf k st := by
  have houtcome := demandStep_outcome ctx env st d
  generalize demandStep ctx env st d = st' at houtcome ⊢
  cases houtcome with
  | skipped => rfl
  | placed => simp [historyOf, bookPath, reroutesOf, TickState.observe]
  | unchanged => rfl
  | kept => rfl
  | moved =>
    simp [historyOf, bookPath, reroutesOf, TickState.observe, hk.symm,
      AList.lookup_insert_ne hk]

end Step

section Tick

variable (holdDown : Time) (r : TenantRepository)

def tickReroutes (input : TickInput) (s : PCEState) : List PCETickReportReroute :=
  if (input.telemetry.foldl CostGraph.observe s.costGraph).isReady input.readyAt then
    (midTick holdDown r input s (buildDemands r input.orders).length).reroutes
  else []

variable {holdDown r} {input : TickInput} {s : PCEState} {k : PathKey}

theorem tick_of_no_demand
    (h : ∀ (i : ℕ) (d : Demand), (buildDemands r input.orders)[i]? = some d → k ≠ d.pathKey) :
    reroutesOf k (tickReroutes holdDown r input s) = [] ∧
      (tick holdDown r input s).lastReroute.lookup k = s.lastReroute.lookup k := by
  unfold tickReroutes tick
  split_ifs
  · have hview := midTick_view
      (fun env st d hne => demandStep_historyOf (input.context holdDown s) env st hne)
      (Nat.zero_le (buildDemands r input.orders).length) fun j d _ _ hj => h j d hj
    exact Prod.mk.inj hview
  · exact ⟨rfl, rfl⟩

theorem tick_of_demand (holdDown : Time) (s : PCEState) {i : ℕ} {d : Demand}
    (hi : (buildDemands r input.orders)[i]? = some d)
    (hready : (input.telemetry.foldl CostGraph.observe s.costGraph).isReady input.readyAt = true) :
    reroutesOf d.pathKey (tickReroutes holdDown r input s) =
        reroutesOf d.pathKey (demandStep (input.context holdDown s) (input.env i)
          (midTick holdDown r input s i) d).reroutes ∧
      (tick holdDown r input s).lastReroute.lookup d.pathKey =
        (demandStep (input.context holdDown s) (input.env i)
          (midTick holdDown r input s i) d).lastReroute.lookup d.pathKey := by
  unfold tickReroutes tick
  rw [if_pos hready, if_pos hready]
  have hafter := midTick_after hi
    (fun env st d' hne => demandStep_historyOf (input.context holdDown s) env st hne)
    (List.getElem?_eq_some_iff.mp hi).1
  exact Prod.mk.inj hafter

theorem midTick_history_before (holdDown : Time) (s : PCEState) {i : ℕ} {d : Demand}
    (hi : (buildDemands r input.orders)[i]? = some d) :
    reroutesOf d.pathKey (midTick holdDown r input s i).reroutes = [] ∧
      (midTick holdDown r input s i).lastReroute.lookup d.pathKey =
        s.lastReroute.lookup d.pathKey := by
  have hbefore := midTick_before hi
    fun env st d' hne => demandStep_historyOf (input.context holdDown s) env st hne
  exact Prod.mk.inj hbefore

variable (holdDown r input s k) in
structure LeavesAt (i : ℕ) (d : Demand) (stored path : Path) (edges : List PCEEdge) : Prop where
  ready : (input.telemetry.foldl CostGraph.observe s.costGraph).isReady input.readyAt = true
  place : (buildDemands r input.orders)[i]? = some d
  key : d.pathKey = k
  leaves : Leaves (input.context holdDown s) (input.env i)
    ((midTick holdDown r input s i).observe (input.env i)) d stored path edges

/-- What a tick does to the history of a key: one reroute when its demand is to leave its
path, and nothing otherwise. -/
theorem tick_reroute_cases
    (hadmits : ∀ (i : ℕ) (d : Demand), (buildDemands r input.orders)[i]? = some d →
      AdmitsPruned (input.context holdDown s) (input.env i)
        ((midTick holdDown r input s i).observe (input.env i)) d) :
    (∃ i d stored path edges, LeavesAt holdDown r input s k i d stored path edges ∧
      reroutesOf k (tickReroutes holdDown r input s) =
        [leaveReport (input.context holdDown s) (input.env i) d stored path] ∧
      (tick holdDown r input s).lastReroute.lookup k = some input.timestamp) ∨
    ((∀ i d stored path edges, ¬ LeavesAt holdDown r input s k i d stored path edges) ∧
      reroutesOf k (tickReroutes holdDown r input s) = [] ∧
      (tick holdDown r input s).lastReroute.lookup k = s.lastReroute.lookup k) := by
  by_cases hready :
      (input.telemetry.foldl CostGraph.observe s.costGraph).isReady input.readyAt = true
  swap
  · refine Or.inr ⟨fun i d stored path edges h => hready h.ready, ?_⟩
    unfold tickReroutes tick
    rw [if_neg hready, if_neg hready]
    exact ⟨rfl, rfl⟩
  by_cases hdemand : ∃ (i : ℕ) (d : Demand),
      (buildDemands r input.orders)[i]? = some d ∧ d.pathKey = k
  swap
  · exact Or.inr ⟨fun i d stored path edges h => hdemand ⟨i, d, h.place, h.key⟩,
      tick_of_no_demand fun i d hi hk => hdemand ⟨i, d, hi, hk.symm⟩⟩
  obtain ⟨i, d, hi, rfl⟩ := hdemand
  obtain ⟨hreports, hlast⟩ := tick_of_demand holdDown s hi hready
  obtain ⟨hnone, hsince⟩ := midTick_history_before holdDown s hi
  by_cases hleaves : ∃ stored path edges, Leaves (input.context holdDown s) (input.env i)
      ((midTick holdDown r input s i).observe (input.env i)) d stored path edges
  · obtain ⟨stored, path, edges, hleaves⟩ := hleaves
    obtain ⟨hstep, hinsert⟩ := demandStep_of_leaves (hadmits i d hi) hleaves
    refine Or.inl ⟨i, d, stored, path, edges, ⟨hready, hi, rfl, hleaves⟩, ?_, ?_⟩
    · rw [hreports, hstep, reroutesOf, List.filter_append, ← reroutesOf, hnone]
      simp [leaveReport_kind, leaveReport_pathKey]
    · rw [hlast, hinsert, AList.lookup_insert]
      rfl
  · have hnot : ∀ stored path edges, ¬ Leaves (input.context holdDown s) (input.env i)
        ((midTick holdDown r input s i).observe (input.env i)) d stored path edges :=
      fun stored path edges h => hleaves ⟨stored, path, edges, h⟩
    obtain ⟨hstep, hsame⟩ := demandStep_of_not_leaves hnot d.pathKey
    refine Or.inr ⟨?_, ?_, ?_⟩
    · intro j d' stored path edges h
      obtain ⟨rfl, rfl⟩ := place_eq_of_pathKey_eq hi h.place h.key.symm
      exact hnot stored path edges h.leaves
    · rw [hreports, hstep, hnone]
    · rw [hlast, hsame, hsince]

end Tick

section History

variable (holdDown : Time) (r : TenantRepository) (topo : Graph) (cg : CostGraph)
  (inputs : List TickInput)

def stateAt (n : ℕ) : PCEState :=
  run holdDown ((inputs.take n).map (r, ·)) (PCEState.initial topo cg)

def reroutesAt (n : ℕ) (k : PathKey) : List PCETickReportReroute :=
  match inputs[n]? with
  | none => []
  | some input => reroutesOf k (tickReroutes holdDown r input (stateAt holdDown r topo cg inputs n))

def edgesAt (n : ℕ) : GoMap PCEEdgeID PCEEdge :=
  match inputs[n]? with
  | none => ∅
  | some input =>
    (input.context holdDown (stateAt holdDown r topo cg inputs n)).pceGraph.edges

variable {holdDown r topo cg inputs}

theorem stateAt_succ {n : ℕ} {input : TickInput} (h : inputs[n]? = some input) :
    stateAt holdDown r topo cg inputs (n + 1) =
      tick holdDown r input (stateAt holdDown r topo cg inputs n) := by
  unfold stateAt run
  rw [List.take_add_one, h, Option.toList_some, List.map_append, List.foldl_append]
  rfl

theorem stateAt_admits (n : ℕ) (input : TickInput) (i : ℕ) (d : Demand)
    (hi : (buildDemands r input.orders)[i]? = some d) :
    AdmitsPruned (input.context holdDown (stateAt holdDown r topo cg inputs n)) (input.env i)
      ((midTick holdDown r input (stateAt holdDown r topo cg inputs n) i).observe
        (input.env i)) d := by
  obtain ⟨hgraph, hreg⟩ := Admissible.run holdDown r topo cg (inputs.take n)
  exact hreg.admitsPruned hgraph holdDown input hi

theorem lastReroute_of_history {k : PathKey} {n₁ n₂ : ℕ} {input₁ : TickInput}
    (h₁ : inputs[n₁]? = some input₁) (hlt : n₁ < n₂)
    (hfirst : reroutesAt holdDown r topo cg inputs n₁ k ≠ [])
    (hquiet : ∀ m, n₁ < m → m < n₂ → reroutesAt holdDown r topo cg inputs m k = []) :
    (stateAt holdDown r topo cg inputs n₂).lastReroute.lookup k = some input₁.timestamp := by
  induction n₂, hlt using Nat.le_induction with
  | base =>
    rw [stateAt_succ h₁]
    simp only [reroutesAt, h₁] at hfirst
    rcases tick_reroute_cases (k := k) (stateAt_admits n₁ input₁) with
      ⟨_, _, _, _, _, _, _, hlast⟩ | ⟨_, hnone, _⟩
    · exact hlast
    · exact absurd hnone hfirst
  | succ n hn ih =>
    have hsame := ih fun m hm hmn => hquiet m hm (Nat.lt_succ_of_lt hmn)
    have hnone := hquiet n hn (Nat.lt_succ_self n)
    cases hinput : inputs[n]? with
    | none =>
      have hend := List.getElem?_eq_none_iff.mp hinput
      rw [← hsame, stateAt, stateAt, List.take_of_length_le hend,
        List.take_of_length_le (Nat.le_succ_of_le hend)]
    | some input =>
      rw [stateAt_succ hinput, ← hsame]
      simp only [reroutesAt, hinput] at hnone
      rcases tick_reroute_cases (k := k) (stateAt_admits n input) with
        ⟨_, _, _, _, _, _, hone, _⟩ | ⟨_, _, hlast⟩
      · rw [hnone] at hone
        cases hone
      · exact hlast

variable (holdDown r topo cg inputs) in
/-- In the tick at place `n`, the path of the key is of infinite cost only when one of its
edges is absent, if there is another path for the demand. -/
def InfiniteOnlyIfAbsent (n : ℕ) (k : PathKey) : Prop :=
  ∀ input, inputs[n]? = some input →
    let s := stateAt holdDown r topo cg inputs n
    let ctx := input.context holdDown s
    (input.telemetry.foldl CostGraph.observe s.costGraph).isReady input.readyAt = true →
    ∀ (i : ℕ) (d : Demand), (buildDemands r input.orders)[i]? = some d → d.pathKey = k →
      ∀ stored path edges, s.pathStore.lookup k = some stored →
        candidatePath ctx (input.env i)
          ((midTick holdDown r input s i).observe (input.env i)) d = some (path, edges) →
        stored.equal path = false → previousCost ctx d stored = ⊤ →
          ∃ id ∈ stored.edges, id ∉ ctx.pceGraph.edges

/-- A key that is rerouted again within the hold-down time leaves a path with a dead link
exactly when the path it leaves costs infinitely much for no other reason. -/
theorem leavesDeadLink_iff (holdDown : Time) (r : TenantRepository) (topo : Graph)
    (cg : CostGraph) (inputs : List TickInput) (k : PathKey) {n₁ n₂ : ℕ}
    {input₁ input₂ : TickInput} (h₁ : inputs[n₁]? = some input₁) (h₂ : inputs[n₂]? = some input₂)
    (hlt : n₁ < n₂) (hfirst : reroutesAt holdDown r topo cg inputs n₁ k ≠ [])
    (hquiet : ∀ m, n₁ < m → m < n₂ → reroutesAt holdDown r topo cg inputs m k = [])
    (hheld : input₂.timestamp - input₁.timestamp < holdDown) :
    (∀ rep ∈ reroutesAt holdDown r topo cg inputs n₂ k,
        ∃ id ∈ rep.fromPath.edges, id ∉ edgesAt holdDown r topo cg inputs n₂) ↔
      InfiniteOnlyIfAbsent holdDown r topo cg inputs n₂ k := by
  have hsince := lastReroute_of_history h₁ hlt hfirst hquiet
  simp only [reroutesAt, edgesAt, h₂]
  rcases tick_reroute_cases (k := k) (stateAt_admits n₂ input₂) with
    ⟨i, d, stored, path, edges, hleaves, hone, -⟩ | ⟨hnot, hnone, -⟩
  · rw [hone, List.forall_mem_singleton, leaveReport, rerouteReport_fromPath, rescored_edges]
    constructor
    · intro habsent input hinput s ctx _ j d' hj hkey stored' path' edges' hstored' _ _ _
      obtain rfl := Option.some.inj (h₂.symm.trans hinput)
      have hstored := hleaves.leaves.previous
      rw [hleaves.key] at hstored
      obtain rfl := Option.some.inj (hstored.symm.trans hstored')
      exact habsent
    · intro h
      refine h input₂ h₂ hleaves.ready i d hleaves.place hleaves.key stored path edges ?_
        hleaves.leaves.candidate hleaves.leaves.differs ?_
      · rw [← hleaves.key]
        exact hleaves.leaves.previous
      -- the key is held down, so only a path of infinite cost is left
      · refine hleaves.leaves.worth.resolve_right fun hworth => ?_
        have hlast := (midTick_history_before holdDown (stateAt holdDown r topo cg inputs n₂)
          hleaves.place).2
        rw [hleaves.key, hsince, ← hleaves.key] at hlast
        have hnotHeld := hworth.2
        rw [heldDown_of_lookup (by exact hlast)] at hnotHeld
        exact of_decide_eq_false hnotHeld hheld
  · rw [hnone]
    refine iff_of_true (by simp) ?_
    intro input hinput s ctx hready i d hi hkey stored path edges hstored hcandidate hdiffers htop
    obtain rfl := Option.some.inj (h₂.symm.trans hinput)
    refine absurd ⟨hready, hi, hkey, hcandidate, ?_, hdiffers, Or.inl htop⟩
      (hnot i d stored path edges)
    rw [hkey]
    exact hstored

def keyAB : PathKey := ⟨1, "A", "B", defaultClassLabel⟩

def yGoesDown : List TickInput :=
  [quietTick [.converged "x", .converged "y", .seen "y" 0] 0, quietTick [] 1,
    quietTick [] linkStaleAfter]

theorem leavesDeadLink_y :
    ∃ cg, CostGraph.newCostGraph .listed parallelLinks 0 = .ok cg ∧
      reroutesAt 60000000000 (tenantsAB [(1, 30)]) parallelLinks cg yGoesDown 2 keyAB ≠ [] ∧
      InfiniteOnlyIfAbsent 60000000000 (tenantsAB [(1, 30)]) parallelLinks cg yGoesDown 2
        keyAB := by
  have hrun : (CostGraph.newCostGraph .listed parallelLinks 0).map (fun cg => decide
      (reroutesAt 60000000000 (tenantsAB [(1, 30)]) parallelLinks cg yGoesDown 1 keyAB ≠ [] ∧
      reroutesAt 60000000000 (tenantsAB [(1, 30)]) parallelLinks cg yGoesDown 2 keyAB ≠ [] ∧
      ∀ rep ∈ reroutesAt 60000000000 (tenantsAB [(1, 30)]) parallelLinks cg yGoesDown 2 keyAB,
        ∃ id ∈ rep.fromPath.edges,
          id ∉ edgesAt 60000000000 (tenantsAB [(1, 30)]) parallelLinks cg yGoesDown 2)) =
      .ok true := by
    decide +kernel
  obtain ⟨cg, hcg, hmoves⟩ := Result.map_eq_ok.mp hrun
  obtain ⟨hfirst, hsecond, hdead⟩ := of_decide_eq_true hmoves
  refine ⟨cg, hcg, hsecond, ?_⟩
  refine (leavesDeadLink_iff 60000000000 (tenantsAB [(1, 30)]) parallelLinks cg yGoesDown keyAB
    rfl rfl (by decide) hfirst ?_ (by decide)).mp hdead
  intro m hm hm'
  omega

def bothUp : List TickInput :=
  [quietTick [.converged "x", .converged "y", .seen "y" 0] 0, quietTick [] 1, quietTick [] 2]

/-- Tenant 1 books the whole bookable share of the link it is on, and so it changes to the
other link in every tick, although both links are up and the hold-down time is a minute. -/
theorem fullyBooked_leaves_live_link :
    ∃ cg, CostGraph.newCostGraph .listed parallelLinks 0 = .ok cg ∧
      reroutesAt 60000000000 (tenantsAB [(1, 95)]) parallelLinks cg bothUp 1 keyAB ≠ [] ∧
      ¬ ∀ rep ∈ reroutesAt 60000000000 (tenantsAB [(1, 95)]) parallelLinks cg bothUp 2 keyAB,
        ∃ id ∈ rep.fromPath.edges,
          id ∉ edgesAt 60000000000 (tenantsAB [(1, 95)]) parallelLinks cg bothUp 2 := by
  have hrun : (CostGraph.newCostGraph .listed parallelLinks 0).map (fun cg => decide
      (reroutesAt 60000000000 (tenantsAB [(1, 95)]) parallelLinks cg bothUp 1 keyAB ≠ [] ∧
      ¬ ∀ rep ∈ reroutesAt 60000000000 (tenantsAB [(1, 95)]) parallelLinks cg bothUp 2 keyAB,
        ∃ id ∈ rep.fromPath.edges,
          id ∉ edgesAt 60000000000 (tenantsAB [(1, 95)]) parallelLinks cg bothUp 2)) =
      .ok true := by
    decide +kernel
  obtain ⟨cg, hcg, hmoves⟩ := Result.map_eq_ok.mp hrun
  exact ⟨cg, hcg, of_decide_eq_true hmoves⟩

end History

end Maeto.ControlPlane
