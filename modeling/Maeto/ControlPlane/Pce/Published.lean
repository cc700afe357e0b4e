import Maeto.ControlPlane.Measured
import Maeto.ControlPlane.Pce.Causes
import Maeto.ControlPlane.Pce.HoldDown
import Maeto.ControlPlane.Snapshot

/-!
# What the PCE publishes is finite

An infinite cost marks a saturated link, a link without costs or a path that is
broken. The static utilization is the only dimension in which it gets into the
cost graph: telemetry costs are finite, and the PCE writes nothing else. It does
not get out. A computed path is of finite cost, a stored path keeps its cost when
it breaks, and the causes of a change are about latency.

Nor is any cost negative (`Costs.Measured`), because no bandwidth that is booked
is (`Nonneg`). So an edge costs at least one, and the cost of a computed path, by
which the gating test divides, is not zero (`one_le_candidatePath_cost`).
-/

namespace Maeto.ControlPlane

open Foundation GoMap

section Telemetry

/-- A cost that telemetry writes is finite and not negative. -/
def TelemetryEvent.Measured : TelemetryEvent → Prop
  | .cost _ _ c => 0 ≤ c ∧ c ≠ ⊤
  | _ => True

theorem Costs.Measured.observe {cg : CostGraph} (h : cg.costs.Measured) {event : TelemetryEvent}
    (hevent : event.Measured) : (cg.observe event).costs.Measured := by
  cases event with
  | cost id dim c => exact h.updateCost id hevent.1 fun _ => hevent.2
  | seen id time => exact h
  | converged id => exact h

theorem Costs.Measured.foldl_observe {cg : CostGraph} (h : cg.costs.Measured)
    {events : List TelemetryEvent} (hevents : ∀ event ∈ events, event.Measured) :
    (events.foldl CostGraph.observe cg).costs.Measured :=
  List.foldlRecOn (motive := fun cg : CostGraph => cg.costs.Measured) events _ h
    fun _ hcg event hevent => hcg.observe (hevents event hevent)

end Telemetry

section Booked

open BandwidthReservationRegistry

theorem OnceSums.nonneg_add {s : OnceSums} (h : ∀ l, 0 ≤ s.sums.getD l 0) (pop : NodeID)
    (label : Label) {rate : ℚ} (hrate : 0 ≤ rate) :
    ∀ l, 0 ≤ (s.add pop label rate).sums.getD l 0 := by
  intro l
  unfold OnceSums.add
  split_ifs
  · exact h l
  · rw [getD_insert]
    split_ifs
    · exact add_nonneg (h label) hrate
    · exact h l

theorem calculateReservedBandwidth_nonneg {e : BandwidthReservationTenantEntry}
    (h : ∀ k r, e.reservations.lookup k = some r → 0 ≤ r.sourceBandwidth ∧ 0 ≤ r.sinkBandwidth)
    (ord : RangeOrder) : 0 ≤ e.calculateReservedBandwidth ord := by
  have hsums : (∀ l, 0 ≤ (e.getBandwidthSums ord).1.getD l 0) ∧
      ∀ l, 0 ≤ (e.getBandwidthSums ord).2.getD l 0 := by
    refine List.foldlRecOn (motive := fun s : OnceSums × OnceSums =>
      (∀ l, 0 ≤ s.1.sums.getD l 0) ∧ ∀ l, 0 ≤ s.2.sums.getD l 0) _ _ ?_ ?_
    · exact ⟨fun l => (getD_empty l 0).ge, fun l => (getD_empty l 0).ge⟩
    · rintro s ⟨hsources, hsinks⟩ r hr
      obtain ⟨⟨k, r⟩, hmem, rfl⟩ := List.mem_map.mp hr
      obtain ⟨hsource, hsink⟩ := h k r ((mem_range ord _ k r).mp hmem)
      exact ⟨OnceSums.nonneg_add hsources _ _ hsource, OnceSums.nonneg_add hsinks _ _ hsink⟩
  refine (List.sum_nonneg ?_).trans_eq (Rounding.sum_exact _).symm
  intro x hx
  obtain ⟨l, -, rfl⟩ := List.mem_map.mp hx
  exact le_min (hsums.1 _) (hsums.2 _)

namespace BandwidthReservationRegistry

/-- No reservation is of a negative bandwidth. -/
def Nonneg (reg : BandwidthReservationRegistry) : Prop :=
  ∀ id t k r, reservationAt reg id t k = some r → 0 ≤ r.sourceBandwidth ∧ 0 ≤ r.sinkBandwidth

theorem nonneg_empty : Nonneg ∅ := by
  intro id t k r h
  rw [reservationAt_empty] at h
  cases h

theorem Nonneg.of_move {ord : RangeOrder} {reg reg' : BandwidthReservationRegistry}
    {src : List PCEEdgeID} {dst : List PCEEdge} {t : TenantID} {c : BandwidthReservation}
    (hm : move ord reg src dst t c = .ok reg') (h : reg.Nonneg)
    (hc : 0 ≤ c.sourceBandwidth ∧ 0 ≤ c.sinkBandwidth) : reg'.Nonneg := by
  intro id' t' k' r hr
  rw [reservationAt_move hm] at hr
  split_ifs at hr
  · cases hr
    exact hc
  · exact h id' t' k' r hr
  · exact h id' t' k' r hr

theorem Nonneg.getD_reservedMap {reg : BandwidthReservationRegistry} (h : reg.Nonneg)
    (ord : RangeOrder) (id : PCEEdgeID) : 0 ≤ (reg.reservedMap ord).getD id 0 := by
  rw [GoMap.getD, reservedMap, lookup_copyInto, AList.lookup_empty, Option.or_none]
  cases hb : reg.lookup id with
  | none => exact le_rfl
  | some b =>
    refine (List.sum_nonneg ?_).trans_eq (Rounding.sum_exact _).symm
    intro x hx
    obtain ⟨⟨t, e⟩, he, rfl⟩ := List.mem_map.mp hx
    have hlookup := (mem_range ord _ t e).mp he
    refine calculateReservedBandwidth_nonneg ?_ ord
    intro k r hr
    exact h id t k r ((reservationAt_of_lookup hb hlookup k).trans hr)

end BandwidthReservationRegistry

theorem linkUtilizationCost_nonneg {r : ℚ} (hr : 0 ≤ r) (e : Edge) :
    0 ≤ linkUtilizationCost r e := by
  unfold linkUtilizationCost
  split_ifs with hcap
  · exact staticUtilizationCost_nonneg (div_nonneg hr hcap.le)
  · exact le_top

theorem Costs.Measured.updateStatic {cg : CostGraph} (h : cg.costs.Measured)
    {reg : BandwidthReservationRegistry} (hreg : reg.Nonneg) (ord : RangeOrder) (g : PCEGraph) :
    (updateStaticBandwidthUtilizationCost ord reg g cg).costs.Measured := by
  refine List.foldlRecOn (motive := fun cg : CostGraph => cg.costs.Measured) _ _ h ?_
  intro cg hcg e _
  refine List.foldlRecOn (motive := fun cg : CostGraph => cg.costs.Measured) _ _ hcg ?_
  intro cg hcg real _
  exact hcg.updateCost real.id (linkUtilizationCost_nonneg (hreg.getD_reservedMap ord e.1) real)
    (fun hne => absurd rfl hne)

end Booked

section Ratio

theorem Cost.Measured.worst {w c : Cost} (hw : w.Measured) (hc : c.Measured) :
    (worstCost w c).Measured := by
  refine List.foldlRecOn (motive := Cost.Measured) _ _ hw ?_
  intro w hw e he
  obtain ⟨hnonneg, hfinite⟩ := hc e.1 e.2 (AList.mem_lookup_iff.mpr he)
  split
  · exact hw.insert hnonneg hfinite
  · split_ifs
    · exact hw.insert hnonneg hfinite
    · exact hw

theorem Costs.Measured.cost {costs : Costs} (h : costs.Measured) (e : PCEEdge) :
    ∀ c, e.cost costs = some c → Cost.Measured c := by
  refine List.foldlRecOn
    (motive := fun worst : Option Cost => ∀ c, worst = some c → Cost.Measured c) _ _ ?_ ?_
  · intro c hc
    cases hc
  · intro worst hworst edge _ c hc
    cases hedge : costs.lookup (costKey edge) with
    | none =>
      simp only [hedge] at hc
      exact hworst c hc
    | some cost =>
      simp only [hedge] at hc
      cases worst with
      | none =>
        cases hc
        exact h _ _ hedge
      | some w =>
        cases hc
        exact (hworst w rfl).worst (h _ _ hedge)

theorem classObjective_pos (c : TrafficClass) {dim : CostDimension} {w : ℚ}
    (h : (classObjective c).lookup dim = some w) : 0 < w := by
  unfold classObjective at h
  split_ifs at h
  · refine forall_lookup_insert (P := fun _ w => 0 < w) ?_ zero_lt_one dim w h
    exact forall_lookup_empty _
  · exact c.objective_pos dim w h

theorem weighted_nonneg {w : ℚ} (hw : 0 ≤ w) {c : ExtCost} (hc : 0 ≤ c) :
    0 ≤ (w : ExtCost) * c := by
  by_cases htop : c = ⊤
  · rcases hw.eq_or_lt with rfl | hpos
    · rw [WithTop.coe_zero, zero_mul]
    · rw [htop, WithTop.mul_top (WithTop.coe_ne_zero.mpr hpos.ne')]
      exact le_top
  · obtain ⟨v, rfl⟩ := WithTop.ne_top_iff_exists.mp htop
    rw [← WithTop.coe_mul]
    exact WithTop.coe_nonneg.mpr (mul_nonneg hw (WithTop.coe_nonneg.mp hc))

theorem one_le_objective (d : Demand) (e : PCEEdge) {c : Option Cost}
    (hc : ∀ cost, c = some cost → Cost.Measured cost) : 1 ≤ d.objective e c := by
  unfold Demand.objective weightedCost
  cases c with
  | none => exact le_top
  | some cost =>
    refine le_add_of_nonneg_right ?_
    refine List.foldlRecOn (motive := fun total : ExtCost => 0 ≤ total) _ _ le_rfl ?_
    intro total htotal dim _
    have hweight : 0 ≤ (classObjective d.trafficClass).getD dim 0 := by
      rw [GoMap.getD]
      cases hw : (classObjective d.trafficClass).lookup dim with
      | none => exact le_rfl
      | some w => exact (classObjective_pos d.trafficClass hw).le
    exact add_nonneg htotal
      (weighted_nonneg hweight ((hc cost rfl).getD_nonneg dim))

variable {ctx : TickContext} {env : DemandEnv} {st : TickState} {d : Demand} {path : Path}
  {edges : List PCEEdge}

theorem one_le_candidatePath_cost (hadj : ctx.pceGraph.AdjFrom)
    (hcosts : st.costGraph.costs.Measured) (hends : d.fromNode ≠ d.toNode)
    (h : candidatePath ctx env st d = some (path, edges)) : 1 ≤ path.cost := by
  obtain ⟨⟨found, hfound, rfl⟩, -⟩ := candidatePath_eq_some h
  have hwalk := computePath_walk (pruneGraph_adjFrom hadj) hfound
  have hcost := computePath_cost (pruneGraph_adjFrom hadj) hfound
  rw [rescorePath_eq_sum] at hcost
  have hedge : ∀ id, 1 ≤ edgeCost (st.registry.pruneGraph env.prune ctx.pceGraph d.tenant.id
      d.bandwidthReservation) st.costGraph.costs d.objective id := by
    intro id
    unfold edgeCost
    cases (st.registry.pruneGraph env.prune ctx.pceGraph d.tenant.id
      d.bandwidthReservation).edges.lookup id with
    | none => exact le_top
    | some e => exact one_le_objective d e (hcosts.cost e)
  change 1 ≤ found.cost
  rw [hcost]
  cases hids : found.edges with
  | nil =>
    rw [hids] at hwalk
    generalize d.fromNode = src at hwalk hends
    cases hwalk
    exact absurd rfl hends
  | cons id ids =>
    rw [List.map_cons, List.sum_cons]
    refine le_add_of_le_of_nonneg (hedge id) (List.sum_nonneg ?_)
    intro x hx
    obtain ⟨id', -, rfl⟩ := List.mem_map.mp hx
    exact zero_le_one.trans (hedge id')

end Ratio

section Causes

variable {dim : CostDimension} {was now : Costs}

theorem costRise_isNumber {w n : ExtCost} (hw : w ≠ ⊤) (hn : n ≠ ⊤) :
    (costRise w n).IsNumber := by
  obtain ⟨w, rfl⟩ := WithTop.ne_top_iff_exists.mp hw
  obtain ⟨n, rfl⟩ := WithTop.ne_top_iff_exists.mp hn
  exact ⟨n - w, rfl⟩

theorem costShare_isNumber {delta total : CostFloat} (hdelta : delta.IsNumber)
    (htotal : total ≠ ⊤) : (costShare delta total).IsNumber := by
  obtain ⟨delta, rfl⟩ := hdelta
  rcases number_or_inf htotal with ⟨t, rfl⟩ | rfl
  · exact ⟨delta / t, rfl⟩
  · exact ⟨0, rfl⟩

theorem riseOf_isNumber (hdim : dim ≠ .staticUtilization) (hwas : was.Measured)
    (hnow : now.Measured) {e : CostGraphEdge × Cost} (he : was.lookup e.1 = some e.2) :
    (riseOf dim now e).IsNumber := by
  unfold riseOf
  split
  · exact ⟨0, rfl⟩
  · next curr hcurr =>
      obtain ⟨v, hv⟩ := costRise_isNumber ((hwas _ _ he).getD_ne_top hdim)
        ((hnow _ _ hcurr).getD_ne_top hdim)
      rcases max_choice 0 (costRise (e.2.getD dim 0) (curr.getD dim 0)) with hmax | hmax
      · exact ⟨0, hmax⟩
      · exact ⟨v, hmax.trans hv⟩

theorem attributeCauses_finite (hdim : dim ≠ .staticUtilization) (hwas : was.Measured)
    (hnow : now.Measured) (ord : RangeOrder) (path : Path) :
    ∀ c ∈ attributeCauses ord path dim was now, ∀ x ∈ c.numbers, CostFloat.IsNumber x := by
  intro c hc
  have hranked : c ∈ ranked ord path dim was now := by
    rw [attributeCauses_eq] at hc
    split_ifs at hc
    · cases hc
    · cases hc
    · exact (List.mem_insertionSort _).mp hc
  obtain ⟨e, he, c₀, hcause, rfl, -⟩ := mem_ranked.mp hranked
  have hbefore := (hwas _ _ (mem_hopLinks.mp he).1).getD_ne_top hdim
  unfold causeOf at hcause
  split at hcause
  · cases hcause
  · next curr hcurr =>
      have hafter := (hnow _ _ hcurr).getD_ne_top hdim
      have hrise := costRise_isNumber hbefore hafter
      have htotal : hopRise ord dim was now path ≠ ⊤ := by
        refine hopRise_ne_top fun e he => ?_
        obtain ⟨v, hv⟩ := riseOf_isNumber hdim hwas hnow (mem_hopLinks.mp he).1
        exact hv ▸ WithTop.coe_ne_top
      dsimp only at hcause
      split_ifs at hcause
      cases hcause
      intro x hx
      simp only [PathChangeCause.numbers, shared, List.mem_cons, List.not_mem_nil, or_false] at hx
      rcases hx with rfl | rfl | rfl | rfl
      · exact CostFloat.isNumber_coe.mpr hbefore
      · exact CostFloat.isNumber_coe.mpr hafter
      · exact hrise
      · exact costShare_isNumber hrise htotal

end Causes

section Run

structure TickContext.Finite (ctx : TickContext) : Prop where
  costSnapshot : ctx.costSnapshot.Measured
  previousCosts : ctx.previousCosts.Measured
  previous : ∀ k p, ctx.previous.lookup k = some p → p.cost ≠ ⊤

structure TickState.Finite (st : TickState) : Prop where
  registry : st.registry.Nonneg
  costs : st.costGraph.costs.Measured
  paths : ∀ k p, st.paths.lookup k = some p → p.cost ≠ ⊤
  reroutes : ∀ c ∈ st.reroutes, ∀ x ∈ c.numbers, CostFloat.IsNumber x
  gatedReroutes : ∀ c ∈ st.gatedReroutes, ∀ x ∈ c.numbers, CostFloat.IsNumber x

structure PCEState.Finite (s : PCEState) : Prop where
  registry : s.registry.Nonneg
  costs : s.costGraph.costs.Measured
  previousCosts : s.previousCosts.Measured
  paths : ∀ k p, s.pathStore.lookup k = some p → p.cost ≠ ⊤
  changes : ∀ c ∈ s.changes, ∀ x ∈ c.numbers, CostFloat.IsNumber x

section Demand

variable {ctx : TickContext} {env : DemandEnv} {st : TickState} {d : Demand} {path : Path}
  {edges : List PCEEdge}

theorem candidatePath_finite (h : candidatePath ctx env st d = some (path, edges)) :
    path.cost ≠ ⊤ := by
  obtain ⟨⟨found, hfound, rfl⟩, -⟩ := candidatePath_eq_some h
  have hfinite : found.cost ≠ ⊤ := computePath_finite hfound
  exact hfinite

theorem rescored_finite (ctx : TickContext) (d : Demand) {stored : Path} (h : stored.cost ≠ ⊤) :
    (rescored ctx d stored).cost ≠ ⊤ := by
  unfold rescored
  split_ifs with hbroken
  · exact h
  · exact hbroken

theorem rerouteReport_finite (ctx : TickContext) (d : Demand) (kind : PathChangeKind)
    {fromPath toPath : Path} {causes : List PathChangeCause} (hfrom : fromPath.cost ≠ ⊤)
    (hto : toPath.cost ≠ ⊤) (hcauses : ∀ c ∈ causes, ∀ x ∈ c.numbers, CostFloat.IsNumber x) :
    ∀ x ∈ (rerouteReport ctx d kind fromPath toPath causes).numbers, CostFloat.IsNumber x := by
  intro x hx
  rcases List.mem_append.mp hx with hcost | hcause
  · simp only [rerouteReport, List.mem_cons, List.not_mem_nil, or_false] at hcost
    rcases hcost with rfl | rfl
    · exact CostFloat.isNumber_coe.mpr hfrom
    · exact CostFloat.isNumber_coe.mpr hto
  · obtain ⟨c, hc, hx⟩ := List.mem_flatMap.mp hcause
    exact hcauses c hc x hx

theorem TickState.Finite.bookPath (ctx : TickContext) (env : DemandEnv) (d : Demand)
    (h : st.Finite) {reg : BandwidthReservationRegistry} (hreg : reg.Nonneg)
    (hpath : path.cost ≠ ⊤) {report : PCETickReportReroute}
    (hreport : ∀ x ∈ report.numbers, CostFloat.IsNumber x) :
    (bookPath ctx env st d reg path report).Finite where
  registry := hreg
  costs := h.costs.updateStatic hreg env.utilization ctx.pceGraph
  paths := forall_lookup_insert h.paths hpath
  reroutes := List.forall_mem_append.mpr ⟨h.reroutes, List.forall_mem_singleton.mpr hreport⟩
  gatedReroutes := h.gatedReroutes

theorem TickState.Finite.demandStep (hctx : ctx.Finite)
    (henv : ∀ event ∈ env.telemetry, event.Measured) (h : st.Finite)
    (hbandwidth : 0 ≤ d.fromMbps ∧ 0 ≤ d.toMbps) : (demandStep ctx env st d).Finite := by
  have hobserved : (st.observe env).Finite :=
    ⟨h.registry, h.costs.foldl_observe henv, h.paths, h.reroutes, h.gatedReroutes⟩
  have hcauses : ∀ p : Path, ∀ c ∈ attributeCauses env.causes p .latency ctx.previousCosts
      ctx.costSnapshot, ∀ x ∈ c.numbers, CostFloat.IsNumber x :=
    attributeCauses_finite (by decide) hctx.previousCosts hctx.costSnapshot env.causes
  have houtcome := demandStep_outcome ctx env st d
  generalize ControlPlane.demandStep ctx env st d = st' at houtcome ⊢
  generalize st.observe env = st at hobserved houtcome
  cases houtcome with
  | skipped => exact hobserved
  | placed hcandidate _ hmove =>
    have hpath := candidatePath_finite hcandidate
    refine hobserved.bookPath ctx env d (hobserved.registry.of_move hmove hbandwidth) hpath ?_
    exact rerouteReport_finite ctx d .new WithTop.zero_ne_top hpath
      (List.forall_mem_nil _)
  | unchanged hcandidate =>
    exact { hobserved with
      paths := forall_lookup_insert hobserved.paths (candidatePath_finite hcandidate) }
  | @kept path edges stored kind hcandidate hprevious =>
    have hkept := rescored_finite ctx d (hctx.previous _ _ hprevious)
    have hreport := rerouteReport_finite ctx d kind hkept (candidatePath_finite hcandidate)
      (hcauses (rescored ctx d stored))
    exact { hobserved with
      paths := forall_lookup_insert hobserved.paths hkept
      gatedReroutes := List.forall_mem_append.mpr
        ⟨hobserved.gatedReroutes, List.forall_mem_singleton.mpr hreport⟩ }
  | @moved path edges stored reg hcandidate hprevious _ hmove =>
    have hpath := candidatePath_finite hcandidate
    have hleft := rescored_finite ctx d (hctx.previous _ _ hprevious)
    have hreport := rerouteReport_finite ctx d
      (if previousCost ctx d stored = ⊤ then .linkDown else .rerouted) hleft hpath
      (hcauses (rescored ctx d stored))
    have hbooked := hobserved.bookPath ctx env d
      (hobserved.registry.of_move hmove hbandwidth) hpath hreport
    exact ⟨hbooked.registry, hbooked.costs, hbooked.paths, hbooked.reroutes,
      hbooked.gatedReroutes⟩

end Demand

/-- All costs that telemetry writes during the tick are finite and not negative. -/
structure TickInput.Measured (input : TickInput) : Prop where
  telemetry : ∀ event ∈ input.telemetry, event.Measured
  snapshotTelemetry : ∀ event ∈ input.snapshotTelemetry, event.Measured
  env : ∀ i, ∀ event ∈ (input.env i).telemetry, event.Measured

variable {s : PCEState} {input : TickInput}

theorem PCEState.Finite.costGraph (h : s.Finite) (hinput : input.Measured) :
    (input.costGraph s).costs.Measured :=
  ((h.costs.foldl_observe hinput.telemetry).updateStatic h.registry input.utilization
    (newPCEGraph (input.graph s))).foldl_observe hinput.snapshotTelemetry

theorem PCEState.Finite.midTick (h : s.Finite) (hinput : input.Measured) (holdDown : Time)
    (r : TenantRepository) (n : ℕ) : (midTick holdDown r input s n).Finite := by
  have hcosts := h.costGraph hinput
  refine midTick_induction ?_ ?_ n
  · exact ⟨h.registry, hcosts, h.paths, List.forall_mem_nil _,
      List.forall_mem_nil _⟩
  · intro i st d hd hst
    obtain ⟨-, -, -, -, hfrom, hto⟩ := mem_buildDemands hd
    exact hst.demandStep ⟨hcosts, h.previousCosts, h.paths⟩ (hinput.env i) ⟨hfrom.le, hto.le⟩

theorem forall_recordChanges {P : PCETickReportReroute → Prop}
    {changes recent : List PCETickReportReroute} (hchanges : ∀ c ∈ changes, P c)
    (hrecent : ∀ c ∈ recent, P c) : ∀ c ∈ recordChanges changes recent, P c := by
  unfold recordChanges
  split_ifs
  · exact hrecent
  · intro c hc
    exact List.forall_mem_append.mpr ⟨hchanges, hrecent⟩ c (List.mem_of_mem_take hc)

theorem PCEState.Finite.tick (h : s.Finite) (hinput : input.Measured) (holdDown : Time)
    (r : TenantRepository) : (tick holdDown r input s).Finite := by
  unfold ControlPlane.tick
  split_ifs
  · have hend := h.midTick hinput holdDown r (buildDemands r input.orders).length
    exact ⟨hend.registry, hend.costs, h.costGraph hinput, hend.paths,
      forall_recordChanges hend.gatedReroutes (forall_recordChanges hend.reroutes h.changes)⟩
  · exact { h with costs := h.costs.foldl_observe hinput.telemetry }

theorem PCEState.finite_run {holdDown : Time} {topo : Graph} {cg : CostGraph}
    (hcg : cg.costs.Measured) {ticks : List (TenantRepository × TickInput)}
    (hticks : ∀ t ∈ ticks, t.2.Measured) : (run holdDown ticks (.initial topo cg)).Finite := by
  refine run_induction ?_ ?_
  · exact ⟨BandwidthReservationRegistry.nonneg_empty, hcg, Costs.measured_empty,
      forall_lookup_empty _, List.forall_mem_nil _⟩
  · intro t ht s hs
    exact hs.tick (hticks t ht) holdDown t.1

/-- Nothing that is published is infinite or undefined. The stores are those of the state; the
topology, the costs, the bookings and the tenants are whatever they are when a snapshot is
taken. -/
structure PublishesFinite (s : PCEState) : Prop where
  paths : ∀ k p, s.pathStore.lookup k = some p → p.cost ≠ ⊤
  changes : ∀ c ∈ s.changes, c.fromPath.cost ≠ ⊤ ∧ c.toPath.cost ≠ ⊤ ∧
    ∀ cause ∈ c.causes, cause.was ≠ ⊤ ∧ cause.now ≠ ⊤ ∧ cause.delta.IsNumber ∧
      cause.share.IsNumber
  snapshot : ∀ (p : SnapshotPublisher) (ords : SnapshotOrders), p.paths = s.pathStore →
    p.changes = s.changes → (∀ x ∈ (p.snapshot ords).numbers, CostFloat.IsNumber x) ∧
      ∃ json, (p.snapshot ords).marshal = .ok json

theorem PCEState.Finite.publishesFinite (h : s.Finite) : PublishesFinite s where
  paths := h.paths
  changes := by
    intro c hc
    have hnumbers := h.changes c hc
    simp only [PCETickReportReroute.numbers, List.forall_mem_append,
      List.forall_mem_cons] at hnumbers
    obtain ⟨⟨hfrom, hto, -⟩, hcauses⟩ := hnumbers
    refine ⟨CostFloat.isNumber_coe.mp hfrom, CostFloat.isNumber_coe.mp hto, ?_⟩
    intro cause hcause
    have hmem : ∀ x ∈ cause.numbers, CostFloat.IsNumber x := fun x hx =>
      hcauses x (List.mem_flatMap.mpr ⟨cause, hcause, hx⟩)
    simp only [PathChangeCause.numbers, List.forall_mem_cons] at hmem
    exact ⟨CostFloat.isNumber_coe.mp hmem.1, CostFloat.isNumber_coe.mp hmem.2.1, hmem.2.2.1,
      hmem.2.2.2.1⟩
  snapshot := by
    intro p ords hpaths hchanges
    have hfinite : ∀ x ∈ (p.snapshot ords).numbers, CostFloat.IsNumber x :=
      SnapshotPublisher.snapshot_finite (hpaths ▸ h.paths) (hchanges ▸ h.changes)
    exact ⟨hfinite, ControlSnapshot.exists_marshal hfinite⟩

def GateDefined (holdDown : Time) (r : TenantRepository) (input : TickInput) (s : PCEState) :
    Prop :=
  ∀ n d path edges, (buildDemands r input.orders)[n]? = some d →
    candidatePath (input.context holdDown s) (input.env n)
      ((midTick holdDown r input s n).observe (input.env n)) d = some (path, edges) →
        path.cost ≠ 0

theorem PCEState.Finite.gateDefined (h : s.Finite) (hinput : input.Measured) (holdDown : Time)
    (r : TenantRepository) : GateDefined holdDown r input s := by
  intro n d path edges hd hcandidate
  have hcosts := ((h.midTick hinput holdDown r n).costs).foldl_observe (hinput.env n)
  have hends := (mem_buildDemands (List.mem_of_getElem? hd)).2.1
  have hle := one_le_candidatePath_cost (newPCEGraph_adjFrom _) hcosts hends hcandidate
  exact (zero_lt_one.trans_le hle).ne'

/-- In every run whose telemetry costs are finite and not negative, nothing infinite is published
after any tick or during one, and the gating test of the next tick does not divide by zero. Links
that are booked up to their bookable share, whose utilization cost is infinite, are no exception. -/
theorem run_publishesFinite (holdDown : Time) (topo : Graph) (cg : CostGraph)
    (hcg : cg.costs.Measured) (ticks : List (TenantRepository × TickInput))
    (hticks : ∀ t ∈ ticks, t.2.Measured) :
    PublishesFinite (run holdDown ticks (.initial topo cg)) ∧
      ∀ r input, input.Measured →
        GateDefined holdDown r input (run holdDown ticks (.initial topo cg)) := by
  have hfinite : (run holdDown ticks (.initial topo cg)).Finite := PCEState.finite_run hcg hticks
  exact ⟨hfinite.publishesFinite, fun r input hinput => hfinite.gateDefined hinput holdDown r⟩

theorem quietTick_measured {telemetry : List TelemetryEvent}
    (h : ∀ event ∈ telemetry, event.Measured) (time : Time) :
    (quietTick telemetry time).Measured where
  telemetry := h
  snapshotTelemetry := List.forall_mem_nil _
  env := fun _ _ hevent => absurd hevent List.not_mem_nil

/-- A tenant has booked the whole bookable share of a link, so a cost of the link is infinite. -/
theorem saturated_publishesFinite :
    ∃ cg, CostGraph.newCostGraph .listed parallelLinks 0 = .ok cg ∧
      (∃ e ∈ (run 60000000000 (bothUp.map (tenantsAB [(1, 95)], ·))
          (.initial parallelLinks cg)).costGraph.graph.entries,
        e.2.lookup .staticUtilization = some ⊤) ∧
      PublishesFinite (run 60000000000 (bothUp.map (tenantsAB [(1, 95)], ·))
        (.initial parallelLinks cg)) := by
  have hrun : (CostGraph.newCostGraph .listed parallelLinks 0).map (fun cg => decide
      (∃ e ∈ (run 60000000000 (bothUp.map (tenantsAB [(1, 95)], ·))
          (.initial parallelLinks cg)).costGraph.graph.entries,
        e.2.lookup .staticUtilization = some ⊤)) = .ok true := by
    decide +kernel
  obtain ⟨cg, hcg, hsaturated⟩ := Result.map_eq_ok.mp hrun
  refine ⟨cg, hcg, of_decide_eq_true hsaturated, ?_⟩
  refine (run_publishesFinite 60000000000 parallelLinks cg ?_ _ ?_).1
  · refine newCostGraph_measured ?_ hcg
    intro id e he
    obtain ⟨hmem, -⟩ := of_lookup_collect he
    simp only [List.mem_cons, List.not_mem_nil, or_false] at hmem
    rcases hmem with rfl | rfl
    · decide
    · decide
  · intro t ht
    obtain ⟨input, hinput, rfl⟩ := List.mem_map.mp ht
    simp only [bothUp, List.mem_cons, List.not_mem_nil, or_false] at hinput
    rcases hinput with rfl | rfl | rfl
    · refine quietTick_measured ?_ 0
      simp only [List.forall_mem_cons, TelemetryEvent.Measured, true_and]
      exact List.forall_mem_nil _
    · exact quietTick_measured (List.forall_mem_nil _) 1
    · exact quietTick_measured (List.forall_mem_nil _) 2

end Run

end Maeto.ControlPlane
