import Mathlib.Tactic.FieldSimp
import Mathlib.Tactic.Linarith
import Maeto.ControlPlane.Pce.Tick
import Maeto.ControlPlane.Reservation.Prune

/-!
# What a move is worth

A demand leaves a path that still works when the path costs at least 1.1 times the new
one. The two costs come from different places: the path that the demand has is scored
with the snapshot of the tick, and the new one with the live costs, which the moves of
earlier demands and the telemetry have changed since. A path that became cheaper during
the tick is left although, with the costs of the new path, it would be kept.

The two costs are compared only at a turn for which a path is computed that differs from
an unbroken path of the demand. Such a turn goes wrong exactly when the cost of the path
falls, between the snapshot and the live costs, from at least 1.1 times that of the new
path to below it (`worthLeaving_iff`). When the path has not become cheaper at all, a move
is worth it under the live costs as well.
-/

namespace Maeto.ControlPlane

open Foundation GoMap

theorem rescorePath_of_subgraph {g g' : PCEGraph} {costs : Costs} {obj : Objective} {path : Path}
    (hsub : ∀ id e, g.edges.lookup id = some e → g'.edges.lookup id = some e)
    (hfinite : rescorePath g costs obj path ≠ ⊤) :
    rescorePath g' costs obj path = rescorePath g costs obj path := by
  unfold rescorePath at hfinite ⊢
  generalize (0 : ExtCost) = total at hfinite ⊢
  generalize path.edges = ids at hfinite ⊢
  induction ids generalizing total with
  | nil => rfl
  | cons id ids ih =>
    unfold rescoreEdges at hfinite ⊢
    cases he : g.edges.lookup id with
    | none =>
      rw [he] at hfinite
      exact absurd rfl hfinite
    | some e =>
      rw [he] at hfinite
      rw [hsub id e he]
      exact ih _ hfinite

section Ratio

/-- The quotient of two costs is at least 1.1. A positive cost over zero is infinite, and
so is an infinite one over a finite one. -/
def RatioAtLeast : ExtCost → ExtCost → Prop
  | _, none => False
  | none, some _ => True
  | some p, some c => if c = 0 then 0 < p else 11 / 10 ≤ p / c

instance : ∀ p c, Decidable (RatioAtLeast p c)
  | none, none => isFalse id
  | some _, none => isFalse id
  | none, some _ => isTrue trivial
  | some p, some c => inferInstanceAs (Decidable (if c = 0 then 0 < p else 11 / 10 ≤ p / c))

theorem cost_ne_top_of_not_below {previous computed : ExtCost} (hfinite : previous ≠ ⊤)
    (hbelow : costRatioBelow previous computed = false) : computed ≠ ⊤ := by
  rintro rfl
  match previous with
  | none => exact hfinite rfl
  | some p => cases hbelow

variable {p q : ℚ}

/-- A free path shows that the live cost is positive, and one that is just worth it that the cost
is not lower. -/
theorem le_of_gate_right (hp : 0 ≤ p)
    (h : ∀ computed, costRatioBelow (some p) computed = false → RatioAtLeast (some q) computed) :
    p ≤ q ∧ 0 < q := by
  have hpos : 0 < q := by
    have hzero := h (some 0) (by simp [costRatioBelow, hp])
    simpa [RatioAtLeast] using hzero
  refine ⟨?_, hpos⟩
  rcases hp.eq_or_lt with rfl | hp
  · exact hpos.le
  · have hc : 0 < p * (10 / 11) := by positivity
    have hratio : p / (p * (10 / 11)) = 11 / 10 := by field_simp
    have hworth := h (some (p * (10 / 11))) (by simp [costRatioBelow, hc.ne', hratio])
    simp only [RatioAtLeast, if_neg hc.ne'] at hworth
    rw [le_div_iff₀ hc] at hworth
    linarith

theorem ratioAtLeast_of_le (hp : 0 ≤ p) (hle : p ≤ q) (hpos : 0 < q) {computed : ExtCost}
    (hbelow : costRatioBelow (some p) computed = false) : RatioAtLeast (some q) computed := by
  match computed with
  | none => cases hbelow
  | some c =>
    change (if c = 0 then decide (p < 0) else decide (p / c < 11 / 10)) = false at hbelow
    change if c = 0 then 0 < q else 11 / 10 ≤ q / c
    split_ifs at hbelow ⊢
    · exact hpos
    · rw [decide_eq_false_iff_not, not_lt] at hbelow
      -- a path of negative cost never makes the quotient that large
      have hc : 0 ≤ c := by
        by_contra hc
        have hquotient := div_nonpos_of_nonneg_of_nonpos hp (not_le.mp hc).le
        linarith
      exact hbelow.trans (div_le_div_of_nonneg_right hle hc)

/-- The comparison with one cost of a path tells what the path is worth under another
cost, whatever the new path costs, exactly when the other cost is positive and not
lower. -/
theorem gate_right_iff {previous live : ExtCost} (hfinite : previous ≠ ⊤) (hnonneg : 0 ≤ previous) :
    (∀ computed, costRatioBelow previous computed = false → RatioAtLeast live computed) ↔
      previous ≤ live ∧ 0 < live := by
  obtain ⟨p, rfl⟩ := WithTop.ne_top_iff_exists.mp hfinite
  have hp : 0 ≤ p := WithTop.coe_le_coe.mp hnonneg
  match live with
  | none =>
    refine ⟨fun _ => ⟨le_top, WithTop.coe_lt_top 0⟩, ?_⟩
    intro _ computed hbelow
    match computed with
    | none => cases hbelow
    | some c => exact trivial
  | some q =>
    constructor
    · intro h
      obtain ⟨hle, hpos⟩ := le_of_gate_right hp h
      exact ⟨WithTop.coe_le_coe.mpr hle, WithTop.coe_lt_coe.mpr hpos⟩
    · rintro ⟨hle, hpos⟩ computed hbelow
      exact ratioAtLeast_of_le hp (WithTop.coe_le_coe.mp hle) (WithTop.coe_lt_coe.mp hpos) hbelow

end Ratio

section Moves

def liveCosts (env : DemandEnv) (st : TickState) : Costs := (st.observe env).costGraph.costs

def newReroutes (ctx : TickContext) (env : DemandEnv) (st : TickState) (d : Demand) :
    List PCETickReportReroute :=
  (demandStep ctx env st d).reroutes.drop st.reroutes.length

/-- When the step reroutes the demand, the path it leaves costs at least 1.1 times the
path it takes, both under the costs it is routed with. -/
def WorthLeaving (ctx : TickContext) (env : DemandEnv) (st : TickState) (d : Demand) : Prop :=
  ∀ report ∈ newReroutes ctx env st d, report.kind = .rerouted →
    RatioAtLeast (rescorePath ctx.pceGraph (liveCosts env st) d.objective report.fromPath)
      (rescorePath ctx.pceGraph (liveCosts env st) d.objective report.toPath)

instance (ctx : TickContext) (env : DemandEnv) (st : TickState) (d : Demand) :
    Decidable (WorthLeaving ctx env st d) :=
  inferInstanceAs (Decidable (∀ report ∈ newReroutes ctx env st d, _ → _))

def Compared (ctx : TickContext) (d : Demand) (stored path : Path) : Prop :=
  (rescored ctx d stored).equal path = false ∧ previousCost ctx d stored ≠ ⊤

instance (ctx : TickContext) (d : Demand) (stored path : Path) :
    Decidable (Compared ctx d stored path) :=
  inferInstanceAs (Decidable (_ ∧ _))

/-- When the path of the demand is compared with a computed one, it has not become cheaper
than in the snapshot, nor free of cost, and the snapshot has no negative cost for it. -/
def NotCheaper (ctx : TickContext) (env : DemandEnv) (st : TickState) (d : Demand) : Prop :=
  ∀ stored ∈ ctx.previous.lookup d.pathKey, ∀ found ∈ candidatePath ctx env (st.observe env) d,
    Compared ctx d stored found.1 → 0 ≤ previousCost ctx d stored ∧
      previousCost ctx d stored ≤
          rescorePath ctx.pceGraph (liveCosts env st) d.objective stored ∧
        0 < rescorePath ctx.pceGraph (liveCosts env st) d.objective stored

instance (ctx : TickContext) (env : DemandEnv) (st : TickState) (d : Demand) :
    Decidable (NotCheaper ctx env st d) :=
  inferInstanceAs (Decidable (∀ stored ∈ ctx.previous.lookup d.pathKey,
    ∀ found ∈ candidatePath ctx env (st.observe env) d, _ → _))

def FallsBelow (ctx : TickContext) (env : DemandEnv) (st : TickState) (d : Demand)
    (stored path : Path) : Prop :=
  costRatioBelow (previousCost ctx d stored) path.cost = false ∧
    ¬ RatioAtLeast (rescorePath ctx.pceGraph (liveCosts env st) d.objective stored) path.cost

instance (ctx : TickContext) (env : DemandEnv) (st : TickState) (d : Demand)
    (stored path : Path) : Decidable (FallsBelow ctx env st d stored path) :=
  inferInstanceAs (Decidable (_ ∧ ¬ _))

/-- The path of the demand does not fall below 1.1 times a path that it is compared with, that
it is free to take and that has room for it. -/
def StaysAbove (ctx : TickContext) (env : DemandEnv) (st : TickState) (d : Demand) : Prop :=
  ∀ stored ∈ ctx.previous.lookup d.pathKey, ∀ found ∈ candidatePath ctx env (st.observe env) d,
    Compared ctx d stored found.1 → heldDown ctx st d.pathKey = false →
      (∀ e ∈ found.2, st.registry.checkCapacity env.admission e d.tenant.id
        d.bandwidthReservation = true) →
      ¬ FallsBelow ctx env st d stored found.1

instance (ctx : TickContext) (env : DemandEnv) (st : TickState) (d : Demand) :
    Decidable (StaysAbove ctx env st d) :=
  inferInstanceAs (Decidable (∀ stored ∈ ctx.previous.lookup d.pathKey,
    ∀ found ∈ candidatePath ctx env (st.observe env) d, _ → _ → _ → ¬ _))

variable {ctx : TickContext} {env : DemandEnv} {st : TickState} {d : Demand} {edges : List PCEEdge}
  {report : PCETickReportReroute}

theorem candidatePath_cost (hadj : ctx.pceGraph.AdjFrom) {path : Path}
    (h : candidatePath ctx env (st.observe env) d = some (path, edges)) (hfinite : path.cost ≠ ⊤) :
    rescorePath ctx.pceGraph (liveCosts env st) d.objective path = path.cost := by
  obtain ⟨⟨found, hfound, rfl⟩, -⟩ := candidatePath_eq_some h
  have hcost := computePath_cost (pruneGraph_adjFrom hadj) hfound
  have hsub := rescorePath_of_subgraph (fun id e he => (of_lookup_pruneGraph he).1)
    (hcost ▸ hfinite : rescorePath _ _ _ found ≠ ⊤)
  exact hsub.trans hcost.symm

theorem rescorePath_rescored (g : PCEGraph) (costs : Costs) (obj : Objective) (stored : Path) :
    rescorePath g costs obj (rescored ctx d stored) = rescorePath g costs obj stored := by
  rw [rescorePath, rescored_edges, rescorePath]

def moveReport (ctx : TickContext) (env : DemandEnv) (d : Demand) (stored path : Path) :
    PCETickReportReroute :=
  rerouteReport ctx d .rerouted (rescored ctx d stored) path
    (attributeCauses env.causes (rescored ctx d stored) .latency ctx.previousCosts
      ctx.costSnapshot)

theorem mem_drop_append {α : Type} {x a : α} (l : List α) :
    x ∈ (l ++ [a]).drop l.length ↔ x = a := by
  rw [List.drop_left, List.mem_singleton]

theorem moveDemand_rerouted {stored path : Path} {broken : Bool} :
    (report ∈ (moveDemand ctx env st d (rescored ctx d stored) broken path edges).reroutes.drop
        st.reroutes.length ∧ report.kind = .rerouted) ↔
      broken = false ∧
        (∀ e ∈ edges, st.registry.checkCapacity env.admission e d.tenant.id
          d.bandwidthReservation = true) ∧ report = moveReport ctx env d stored path := by
  unfold moveDemand
  cases hmove : st.registry.move env.admission (rescored ctx d stored).edges edges d.tenant.id
      d.bandwidthReservation with
  | error msg =>
    have hroom : ¬ ∀ e ∈ edges, st.registry.checkCapacity env.admission e d.tenant.id
        d.bandwidthReservation = true := by
      intro hroom
      rw [BandwidthReservationRegistry.move_of_room _ hroom] at hmove
      cases hmove
    simp [hroom]
  | ok reg =>
    have hroom := (BandwidthReservationRegistry.move_eq_ok hmove).1
    simp only [bookPath, mem_drop_append]
    cases broken with
    | true =>
      refine iff_of_false ?_ nofun
      rintro ⟨rfl, hkind⟩
      cases hkind
    | false =>
      refine ⟨fun h => ⟨rfl, hroom, h.1⟩, ?_⟩
      rintro ⟨-, -, rfl⟩
      exact ⟨rfl, rfl⟩

theorem replacePath_rerouted {stored path : Path} :
    (report ∈ (replacePath ctx env st d stored path edges).reroutes.drop st.reroutes.length ∧
        report.kind = .rerouted) ↔
      Compared ctx d stored path ∧ heldDown ctx st d.pathKey = false ∧
        (∀ e ∈ edges, st.registry.checkCapacity env.admission e d.tenant.id
          d.bandwidthReservation = true) ∧
        costRatioBelow (previousCost ctx d stored) path.cost = false ∧
        report = moveReport ctx env d stored path := by
  have hcost : previousCost ctx d stored ≠ ⊤ →
      (rescored ctx d stored).cost = previousCost ctx d stored := by
    intro hunbroken
    rw [rescored, if_neg hunbroken]
  have hnone : report ∉ st.reroutes.drop st.reroutes.length := by
    rw [List.drop_length]
    exact List.not_mem_nil
  unfold replacePath
  simp only
  split_ifs with hequal hgated hheld
  · refine iff_of_false (fun h => hnone h.1) ?_
    rintro ⟨⟨hdiffer, -⟩, -⟩
    rw [hequal] at hdiffer
    cases hdiffer
  · refine iff_of_false (fun h => hnone h.1) ?_
    rintro ⟨⟨-, hunbroken⟩, -, -, hbelow, -⟩
    simp [hunbroken, hcost hunbroken, hbelow] at hgated
  · refine iff_of_false (fun h => hnone h.1) ?_
    rintro ⟨⟨-, hunbroken⟩, hfree, -⟩
    simp [hunbroken, hfree] at hheld
  · rw [moveDemand_rerouted, decide_eq_false_iff_not]
    constructor
    · rintro ⟨hunbroken, hroom, hreport⟩
      simp only [hunbroken, decide_false, Bool.not_false, Bool.true_and, Bool.not_eq_true,
        hcost hunbroken] at hequal hgated hheld
      exact ⟨⟨hequal, hunbroken⟩, hheld, hroom, hgated, hreport⟩
    · rintro ⟨⟨-, hunbroken⟩, -, hroom, -, hreport⟩
      exact ⟨hunbroken, hroom, hreport⟩

/-- A step reroutes its demand exactly when the comparison finds the computed path worth it,
the demand is not held down and the path has room. -/
theorem mem_newReroutes_rerouted :
    (report ∈ newReroutes ctx env st d ∧ report.kind = .rerouted) ↔
      ∃ stored ∈ ctx.previous.lookup d.pathKey,
        ∃ found ∈ candidatePath ctx env (st.observe env) d, Compared ctx d stored found.1 ∧
          heldDown ctx st d.pathKey = false ∧
          (∀ e ∈ found.2, st.registry.checkCapacity env.admission e d.tenant.id
            d.bandwidthReservation = true) ∧
          costRatioBelow (previousCost ctx d stored) found.1.cost = false ∧
          report = moveReport ctx env d stored found.1 := by
  have hnone : report ∉ st.reroutes.drop st.reroutes.length := by
    rw [List.drop_length]
    exact List.not_mem_nil
  unfold newReroutes demandStep
  cases candidatePath ctx env (st.observe env) d with
  | none => exact iff_of_false (fun h => hnone h.1) (by simp)
  | some found =>
    cases ctx.previous.lookup d.pathKey with
    | some stored =>
      simp only [Option.mem_some_iff, exists_eq_left']
      exact @replacePath_rerouted ctx env (st.observe env) d found.2 report stored found.1
    | none =>
      refine iff_of_false ?_ (by simp)
      rintro ⟨hreport, hkind⟩
      simp only [placeDemand] at hreport
      split at hreport
      · exact hnone hreport
      · obtain rfl := (mem_drop_append _).mp hreport
        cases hkind

theorem worthLeaving_iff (hadj : ctx.pceGraph.AdjFrom) :
    WorthLeaving ctx env st d ↔ StaysAbove ctx env st d := by
  have hratio : ∀ stored path edges, previousCost ctx d stored ≠ ⊤ →
      candidatePath ctx env (st.observe env) d = some (path, edges) →
      costRatioBelow (previousCost ctx d stored) path.cost = false →
      (RatioAtLeast (rescorePath ctx.pceGraph (liveCosts env st) d.objective
          (moveReport ctx env d stored path).fromPath)
        (rescorePath ctx.pceGraph (liveCosts env st) d.objective
          (moveReport ctx env d stored path).toPath) ↔ ¬ FallsBelow ctx env st d stored path) := by
    intro stored path edges hunbroken hcandidate hbelow
    have hcost := candidatePath_cost hadj hcandidate (cost_ne_top_of_not_below hunbroken hbelow)
    rw [FallsBelow, moveReport, rerouteReport, rescorePath_rescored, hcost]
    simp [hbelow]
  constructor
  · intro h stored hstored found hfound hcompared hfree hroom hfalls
    have hmem := mem_newReroutes_rerouted.mpr
      ⟨stored, hstored, found, hfound, hcompared, hfree, hroom, hfalls.1, rfl⟩
    exact (hratio stored found.1 found.2 hcompared.2 hfound hfalls.1).mp (h _ hmem.1 hmem.2) hfalls
  · intro h report hreport hkind
    obtain ⟨stored, hstored, found, hfound, hcompared, hfree, hroom, hbelow, rfl⟩ :=
      mem_newReroutes_rerouted.mp ⟨hreport, hkind⟩
    exact (hratio stored found.1 found.2 hcompared.2 hfound hbelow).mpr
      (h stored hstored found hfound hcompared hfree hroom)

theorem staysAbove_of_notCheaper (h : NotCheaper ctx env st d) : StaysAbove ctx env st d := by
  intro stored hstored found hfound hcompared _ _ hfalls
  obtain ⟨hnonneg, hlive⟩ := h stored hstored found hfound hcompared
  exact hfalls.2 ((gate_right_iff hcompared.2 hnonneg).mpr hlive _ hfalls.1)

/-- At its turn in a tick a demand is rerouted only when its path costs at least 1.1 times the
new one, under the costs that the new one was computed with, exactly when its path does not
fall below that between the snapshot and these costs. It is enough that a path that is compared
has not become cheaper; with another live cost, the comparison goes wrong for some cost of the
new path. -/
theorem tick_worthLeaving (holdDown : Time) (r : TenantRepository) (input : TickInput)
    (s : PCEState) :
    (∀ n d, (buildDemands r input.orders)[n]? = some d →
      (WorthLeaving (input.context holdDown s) (input.env n) (midTick holdDown r input s n) d ↔
        StaysAbove (input.context holdDown s) (input.env n) (midTick holdDown r input s n) d) ∧
      (NotCheaper (input.context holdDown s) (input.env n) (midTick holdDown r input s n) d →
        WorthLeaving (input.context holdDown s) (input.env n)
          (midTick holdDown r input s n) d)) ∧
    ∀ previous live, previous ≠ ⊤ → 0 ≤ previous →
      ((∀ computed, costRatioBelow previous computed = false → RatioAtLeast live computed) ↔
        previous ≤ live ∧ 0 < live) := by
  refine ⟨fun n d _ => ?_, fun previous live hfinite hnonneg => gate_right_iff hfinite hnonneg⟩
  have hiff : WorthLeaving (input.context holdDown s) (input.env n)
      (midTick holdDown r input s n) d ↔ _ := worthLeaving_iff (newPCEGraph_adjFrom _)
  exact ⟨hiff, fun h => hiff.mpr (staysAbove_of_notCheaper h)⟩

end Moves

section Examples

def linkAB (id : EdgeID) (up : Bool) : Edge where
  id
  localNode := "A"
  remote := "B"
  localIface := id
  remoteIface := id
  bandwidth := 100
  delay := 10000
  up
  endX := .invalid

def parallelLinks : Graph where
  nodes := ((∅ : GoMap NodeID Node).insert "A" ⟨"A", .invalid⟩).insert "B" ⟨"B", .invalid⟩
  edges := GoMap.collect Edge.id [linkAB "x" true, linkAB "y" false]
  adj := (∅ : GoMap NodeID (List EdgeID)).insert "A" ["x", "y"]
  edges_id := fun _ _ h => (of_lookup_collect h).2

def siteAt (tenantID : TenantID) (attach : NodeID) (mbps : ℚ) : Site where
  tenantID
  cpe := ""
  portalID := ""
  node := ""
  sitePrefix := .invalid
  attach
  attachNode := attach
  ifID := 0
  identity := ""
  reservationMbps := mbps
  classMbps := (∅ : GoMap Label ℚ).insert defaultClassLabel mbps

def tenantAB (e : TenantID × ℚ) : Tenant where
  id := e.1
  allocation := .invalid
  tier := ""
  tierIndex := 0
  vrfTable := 0
  sites := [siteAt e.1 "A" e.2, siteAt e.1 "B" e.2]

def tenantsAB (rates : List (TenantID × ℚ)) : TenantRepository where
  classes := GoMap.collect TrafficClass.label
    [{ name := "default", label := defaultClassLabel, index := 0, dscp := [], objective := ∅
       objective_pos := by
        intro dim w h
        cases h }]
  byID := GoMap.collect Tenant.id (rates.map tenantAB)
  byIdentity := ∅
  byPortalID := ∅
  byPop := ∅
  classes_label := fun _ _ h => (of_lookup_collect h).2
  byID_id := fun _ _ h => (of_lookup_collect h).2
  byPortalID_portalID := by
    intro p s h
    cases h

def quietTick (telemetry : List TelemetryEvent) (time : Time) : TickInput where
  telemetry
  readyAt := time
  timestamp := time
  linksAt := time
  links := .listed
  utilization := .listed
  snapshotTelemetry := []
  orders := ⟨.listed, fun _ => .listed, fun _ => .listed, fun _ _ => .listed, fun _ _ _ => .listed⟩
  env := fun _ => ⟨[], .listed, .listed, .listed, .listed⟩

def placedOnX (rates : List (TenantID × ℚ)) : Except String PCEState :=
  (CostGraph.newCostGraph .listed parallelLinks 0).map fun costGraph =>
    tick 0 (tenantsAB rates) (quietTick [.converged "x", .converged "y"] 0)
      (.initial parallelLinks costGraph)

def yComesUp : TickInput := quietTick [.seen "y" 0] 1

/-- Tenant 1 moves to link `y`, and tenant 2 then stays on link `x`. -/
theorem worthLeaving_two_tenants :
    ∃ s, placedOnX [(1, 30), (2, 10)] = .ok s ∧
      (∃ c ∈ (tick 0 (tenantsAB [(1, 30), (2, 10)]) yComesUp s).changes, c.kind = .rerouted) ∧
      ∀ n d, (buildDemands (tenantsAB [(1, 30), (2, 10)]) yComesUp.orders)[n]? = some d →
        WorthLeaving (yComesUp.context 0 s) (yComesUp.env n)
          (midTick 0 (tenantsAB [(1, 30), (2, 10)]) yComesUp s n) d := by
  have hrun : (placedOnX [(1, 30), (2, 10)]).map (fun s => decide
      ((∃ c ∈ (tick 0 (tenantsAB [(1, 30), (2, 10)]) yComesUp s).changes, c.kind = .rerouted) ∧
        ∀ e ∈ (buildDemands (tenantsAB [(1, 30), (2, 10)]) yComesUp.orders).zipIdx,
          NotCheaper (yComesUp.context 0 s) (yComesUp.env e.2)
            (midTick 0 (tenantsAB [(1, 30), (2, 10)]) yComesUp s e.2) e.1)) = .ok true := by
    decide +kernel
  obtain ⟨s, hs, hall⟩ := Result.map_eq_ok.mp hrun
  obtain ⟨hmoved, hnotCheaper⟩ := of_decide_eq_true hall
  refine ⟨s, hs, hmoved, ?_⟩
  intro n d hd
  exact ((tick_worthLeaving 0 (tenantsAB [(1, 30), (2, 10)]) yComesUp s).1 n d hd).2
    (hnotCheaper (d, n) (List.mk_mem_zipIdx_iff_getElem?.mpr hd))

/-- Tenant 1 moves to link `y` first, so that link `x` is cheaper when the turn of tenant
2 comes. Tenant 2 leaves it all the same. -/
theorem left_below_ratio :
    ∃ s d, placedOnX [(1, 30), (2, 31)] = .ok s ∧
      (buildDemands (tenantsAB [(1, 30), (2, 31)]) yComesUp.orders)[2]? = some d ∧
      ¬ WorthLeaving (yComesUp.context 0 s) (yComesUp.env 2)
        (midTick 0 (tenantsAB [(1, 30), (2, 31)]) yComesUp s 2) d := by
  have hleft : (placedOnX [(1, 30), (2, 31)]).map (fun s =>
      (buildDemands (tenantsAB [(1, 30), (2, 31)]) yComesUp.orders)[2]?.any fun d => decide
        (¬ WorthLeaving (yComesUp.context 0 s) (yComesUp.env 2)
          (midTick 0 (tenantsAB [(1, 30), (2, 31)]) yComesUp s 2) d)) = .ok true := by
    decide +kernel
  obtain ⟨s, hs, hany⟩ := Result.map_eq_ok.mp hleft
  obtain ⟨d, hd, hnot⟩ := (Option.any_eq_true _ _).mp hany
  exact ⟨s, d, hs, hd, of_decide_eq_true hnot⟩

end Examples

end Maeto.ControlPlane
