import Maeto.ControlPlane.DemandOrder
import Maeto.ControlPlane.Pce.HoldDown
import Maeto.ControlPlane.Pce.Orders

/-!
# A demand and its own load

To the default class an edge costs the more the more of it is booked, and the bookings of the
demand itself count too. So a demand raises the cost of the path it is placed on, and in the
next tick another path may look cheaper by more than the ten percent that a move takes.

Here nothing but the PCE changes anything: the links keep their states, telemetry repeats the
costs it has written, and no other demand has a way through the network. Then everything
that a tick sees follows from what the demand has booked (`Settled.updateStatic`), and the
run is in one of few phases: the demand has no path yet, or it is on the path it was placed
on. It is never rerouted exactly when its path, with its own load on it, is kept
(`placed_once_iff`), which is the case for every class whose objective does not weigh the
static utilization (`keepsPlacement_of_unweighed`).

`BuildDemands` never builds a demand without its reverse. The only demand of a run is
therefore one whose reverse has no way through the network (`OnlyDemand`).
-/

namespace Maeto.ControlPlane

open Foundation BandwidthReservationRegistry AList

section Costs

def TelemetryEvent.Steady (cg : CostGraph) : TelemetryEvent → Prop
  | .cost id dim c => dim ≠ .staticUtilization ∧ ∀ key, cg.byID.lookup id = some key →
      ∃ costs, cg.costAt key = some costs ∧ costs dim = some c
  | .seen _ _ => True
  | .converged _ => True

def utilized (topo : Graph) (cg : CostGraph) (reg : BandwidthReservationRegistry) : CostGraph :=
  updateStaticBandwidthUtilizationCost .listed reg (newPCEGraph topo) cg

namespace CostGraph

theorem write_write (old : Option (CostDimension → Option ExtCost)) (dim : CostDimension)
    (c c' : ExtCost) : write (some (write old dim c)) dim c' = write old dim c' := by
  simp [write]

theorem write_eq_self {costs : CostDimension → Option ExtCost} {dim : CostDimension} {c : ExtCost}
    (h : costs dim = some c) : write (some costs) dim c = costs := by
  simp [write, ← h]

theorem writeAll_writeAll {dim : CostDimension} {cg : CostGraph} (hkeyed : cg.Keyed)
    {ws ws' : List (EdgeID × ExtCost)} (hws : (ws.map Prod.fst).Nodup)
    (hws' : (ws'.map Prod.fst).Nodup) (hids : ∀ id, id ∈ ws.map Prod.fst ↔ id ∈ ws'.map Prod.fst) :
    ((cg.writeAll dim ws).writeAll dim ws').Alike (cg.writeAll dim ws') := by
  refine ⟨by simp, fun key => ?_⟩
  have hkeyed' : (cg.writeAll dim ws).Keyed := hkeyed.of_byID (writeAll_byID dim ws cg)
  by_cases hw' : ∃ w ∈ ws', cg.byID.lookup w.1 = some key
  · obtain ⟨w', hw', hkey⟩ := hw'
    obtain ⟨w, hw, hid⟩ := List.mem_map.mp ((hids w'.1).mpr (List.mem_map_of_mem hw'))
    rw [costAt_writeAll_of_mem hws' hkeyed' hw' (by rw [writeAll_byID, hkey]),
      costAt_writeAll_of_mem hws hkeyed hw (by rw [hid, hkey]), write_write,
      costAt_writeAll_of_mem hws' hkeyed hw' hkey]
  · have hnot' : ∀ w ∈ ws', cg.byID.lookup w.1 ≠ some key := fun w hw hkey => hw' ⟨w, hw, hkey⟩
    have hnot : ∀ w ∈ ws, cg.byID.lookup w.1 ≠ some key := by
      intro w hw hkey
      obtain ⟨w', hw', hid⟩ := List.mem_map.mp ((hids w.1).mp (List.mem_map_of_mem hw))
      exact hnot' w' hw' (hid ▸ hkey)
    rw [costAt_writeAll_of_notMem (by rwa [writeAll_byID]), costAt_writeAll_of_notMem hnot,
      costAt_writeAll_of_notMem hnot']

end CostGraph

variable {rates : Rates} {topo : Graph} {cg X : CostGraph}
  {reg : BandwidthReservationRegistry}

theorem updateStatic_updateStatic (hkeyed : cg.Keyed) {reg' : BandwidthReservationRegistry}
    (hreg : reg.Carries rates) (hreg' : reg'.Carries rates) (ord ord' : RangeOrder) :
    (updateStaticBandwidthUtilizationCost ord' reg' (newPCEGraph topo)
        (updateStaticBandwidthUtilizationCost ord reg (newPCEGraph topo) cg)).Alike
      (updateStaticBandwidthUtilizationCost ord' reg' (newPCEGraph topo) cg) := by
  simp only [updateStaticBandwidthUtilizationCost_eq]
  refine CostGraph.writeAll_writeAll hkeyed (utilizationWrites_nodup ord reg topo)
    (utilizationWrites_nodup ord' reg' topo) fun id => ?_
  simp only [List.mem_map, mem_utilizationWrites hreg, mem_utilizationWrites hreg']
  constructor
  · rintro ⟨_, ⟨e, he, hup, rfl⟩, rfl⟩
    exact ⟨_, ⟨e, he, hup, rfl⟩, rfl⟩
  · rintro ⟨_, ⟨e, he, hup, rfl⟩, rfl⟩
    exact ⟨_, ⟨e, he, hup, rfl⟩, rfl⟩

variable (rates topo cg) in
/-- The costs are those the run started with, with the utilization costs of some bookings
or as they were. -/
def Settled (X : CostGraph) : Prop :=
  X.Alike cg ∨ ∃ reg, reg.Carries rates ∧ X.Alike (utilized topo cg reg)

theorem Settled.of_utilized (hreg : reg.Carries rates)
    (h : X.Alike (utilized topo cg reg)) : Settled rates topo cg X :=
  Or.inr ⟨reg, hreg, h⟩

theorem Settled.of_alike {Y : CostGraph} (h : Settled rates topo cg X) (hY : Y.Alike X) :
    Settled rates topo cg Y := by
  rcases h with h | ⟨reg, hreg, h⟩
  · exact Or.inl (hY.trans h)
  · exact Or.inr ⟨reg, hreg, hY.trans h⟩

theorem Settled.byID (h : Settled rates topo cg X) : X.byID = cg.byID := by
  rcases h with h | ⟨reg, -, h⟩
  · exact h.byID
  · rw [h.byID, utilized, updateStaticBandwidthUtilizationCost_byID]

theorem Settled.costAt (hkeyed : cg.Keyed) (h : Settled rates topo cg X) {key : CostGraphEdge}
    {costs : CostDimension → Option ExtCost} (hkey : cg.costAt key = some costs)
    {dim : CostDimension} (hdim : dim ≠ .staticUtilization) :
    ∃ costs', X.costAt key = some costs' ∧ costs' dim = costs dim := by
  rcases h with h | ⟨reg, hreg, h⟩
  · exact ⟨costs, (h.costAt key).trans hkey, rfl⟩
  · rw [h.costAt key, utilized, updateStaticBandwidthUtilizationCost_eq]
    by_cases hw : ∃ w ∈ utilizationWrites .listed reg (newPCEGraph topo),
        cg.byID.lookup w.1 = some key
    · obtain ⟨w, hw, hid⟩ := hw
      refine ⟨_, CostGraph.costAt_writeAll_of_mem (utilizationWrites_nodup _ _ _) hkeyed hw hid, ?_⟩
      simp [CostGraph.write, hkey, Function.update_of_ne hdim]
    · refine ⟨costs, ?_, rfl⟩
      rw [CostGraph.costAt_writeAll_of_notMem fun w hmem hid => hw ⟨w, hmem, hid⟩, hkey]

theorem Settled.observe (hkeyed : cg.Keyed) (h : Settled rates topo cg X) {event : TelemetryEvent}
    (hevent : event.Steady cg) : (X.observe event).Alike X := by
  cases event with
  | seen id time => exact ⟨rfl, fun _ => rfl⟩
  | converged id => exact ⟨rfl, fun _ => rfl⟩
  | cost id dim cost =>
    obtain ⟨hdim, hknown⟩ := hevent
    refine ⟨CostGraph.observe_byID X _, fun key => ?_⟩
    change (X.updateCost id dim cost).costAt key = _
    rw [CostGraph.costAt_updateCost]
    split_ifs with hid
    · obtain ⟨costs, hcosts, hcost⟩ := hknown key (h.byID ▸ hid)
      obtain ⟨costs', hcosts', hsame⟩ := h.costAt hkeyed hcosts hdim
      rw [hcosts', CostGraph.write_eq_self (hsame.trans hcost)]
    · rfl

theorem Settled.foldl_observe (hkeyed : cg.Keyed) (h : Settled rates topo cg X)
    {events : List TelemetryEvent} (hevents : ∀ event ∈ events, event.Steady cg) :
    (events.foldl CostGraph.observe X).Alike X := by
  induction events generalizing X with
  | nil => exact .refl X
  | cons event events ih =>
    have hstep := h.observe hkeyed (hevents event List.mem_cons_self)
    have hrest := ih (h.of_alike hstep) fun e he => hevents e (List.mem_cons_of_mem event he)
    exact hrest.trans hstep

theorem Settled.updateStatic (hkeyed : cg.Keyed) (h : Settled rates topo cg X)
    {reg' : BandwidthReservationRegistry} (halike : reg'.Alike reg) (hreg : reg.Carries rates)
    (hreg' : reg'.Carries rates) (ord : RangeOrder) :
    (updateStaticBandwidthUtilizationCost ord reg' (newPCEGraph topo) X).Alike
      (utilized topo cg reg) := by
  have hX : X.Keyed := hkeyed.of_byID h.byID
  rcases h with h | ⟨old, hold, h⟩
  · exact h.updateStatic hX hreg' hreg halike topo ord .listed
  · exact (h.updateStatic hX hreg' hreg halike topo ord .listed).trans
      (updateStatic_updateStatic hkeyed hold hreg .listed .listed)

end Costs

section Choice

variable (topo : Graph) (cg : CostGraph)

def choice (reg : BandwidthReservationRegistry) (d : Demand) : Option (Path × List PCEEdge) :=
  candidatePath
    { timestamp := 0, holdDown := 0, pceGraph := newPCEGraph topo, costSnapshot := ∅,
      previousCosts := ∅, previous := ∅ }
    ⟨[], .listed, .listed, .listed, .listed⟩
    { registry := reg, costGraph := utilized topo cg reg, lastReroute := ∅, paths := ∅,
      reroutes := [], gatedReroutes := [] } d

def costUnder (reg : BandwidthReservationRegistry) (d : Demand) (path : Path) : ExtCost :=
  rescorePath (newPCEGraph topo) (utilized topo cg reg).costs d.objective path

def ownLoad (d : Demand) (edges : List PCEEdge) : BandwidthReservationRegistry :=
  edges.foldl (BandwidthReservationRegistry.addAt d.tenant.id d.bandwidthReservation) ∅

/-- The path on which the demand is placed is kept when its own load is on it: no other path
is computed, or none for which the change is worth it. -/
def KeepsPlacement (d : Demand) : Prop :=
  ∀ p edges q edges', choice topo cg ∅ d = some (p, edges) →
    choice topo cg (ownLoad d edges) d = some (q, edges') →
      p.equal q = true ∨ costUnder topo cg (ownLoad d edges) d p ≠ ⊤ ∧
        costRatioBelow (costUnder topo cg (ownLoad d edges) d p) q.cost = true

/-- The demand is the only one that has a way through the network. -/
structure OnlyDemand (r : TenantRepository) (d : Demand) : Prop where
  mem : ∀ ords, d ∈ buildDemands r ords
  others : ∀ ords, ∀ d' ∈ buildDemands r ords, d' ≠ d →
    ∀ ids, ¬ (newPCEGraph topo).Walk d'.fromNode ids d'.toNode

/-- The links have the states they have in `topo`, and telemetry repeats the costs in
`cg`. -/
structure TickInput.ConstantAt (input : TickInput) (s : PCEState) : Prop where
  links : ∀ id, (input.graph s).edges.lookup id = topo.edges.lookup id
  telemetry : ∀ event ∈ input.telemetry, event.Steady cg
  snapshotTelemetry : ∀ event ∈ input.snapshotTelemetry, event.Steady cg
  env : ∀ n, ∀ event ∈ (input.env n).telemetry, event.Steady cg

structure SteadyAt (rates : Rates)
    (reg : BandwidthReservationRegistry) (s : PCEState) : Prop where
  nodes : s.graph.nodes = topo.nodes
  settled : Settled rates topo cg s.costGraph
  alike : s.registry.Alike reg
  carries : s.registry.Carries rates
  carries' : reg.Carries rates

end Choice

section Tick

variable {holdDown : Time} {r : TenantRepository} {topo : Graph} {cg : CostGraph}
  {reg : BandwidthReservationRegistry} {d : Demand} {input : TickInput} {s : PCEState}

theorem SteadyAt.graph (h : SteadyAt topo cg r.rates reg s) (hinput : input.ConstantAt topo cg s) :
    newPCEGraph (input.graph s) = newPCEGraph topo :=
  newPCEGraph_congr h.nodes hinput.links

variable {st : TickState} {i : ℕ}

theorem demandStep_of_no_walk {ctx : TickContext} {env : DemandEnv} {d' : Demand}
    (hadj : ctx.pceGraph.AdjFrom)
    (h : ∀ ids, ¬ ctx.pceGraph.Walk d'.fromNode ids d'.toNode) :
    demandStep ctx env st d' = st.observe env := by
  have hnone : candidatePath ctx env (st.observe env) d' = none := by
    by_contra hne
    obtain ⟨⟨path, edges⟩, hcandidate⟩ := Option.ne_none_iff_exists'.mp hne
    obtain ⟨⟨found, hfound, -⟩, -⟩ := candidatePath_eq_some hcandidate
    have hwalk : ctx.pceGraph.Walk d'.fromNode found.edges d'.toNode :=
      (computePath_walk (pruneGraph_adjFrom hadj) hfound).of_subgraph (by rfl)
        fun id e he => (of_lookup_pruneGraph he).1
    exact h _ hwalk
  rw [demandStep, hnone]

theorem SteadyAt.costGraph (hkeyed : cg.Keyed) (h : SteadyAt topo cg r.rates reg s)
    (hinput : input.ConstantAt topo cg s) : (input.costGraph s).Alike (utilized topo cg reg) := by
  unfold TickInput.costGraph
  rw [h.graph hinput]
  have hsettled := h.settled.of_alike (h.settled.foldl_observe hkeyed hinput.telemetry)
  have hutilized := hsettled.updateStatic hkeyed h.alike h.carries' h.carries input.utilization
  have hsettled' := Settled.of_utilized h.carries' hutilized
  exact (hsettled'.foldl_observe hkeyed hinput.snapshotTelemetry).trans hutilized

structure Quiet (topo : Graph) (cg : CostGraph) (reg : BandwidthReservationRegistry)
    (s : PCEState) (st : TickState) : Prop where
  registry : st.registry = s.registry
  costs : st.costGraph.Alike (utilized topo cg reg)
  paths : st.paths = s.pathStore
  lastReroute : st.lastReroute = s.lastReroute
  reroutes : st.reroutes = []

theorem Quiet.observe (hkeyed : cg.Keyed) {rates : Rates}
    (hreg : reg.Carries rates) (h : Quiet topo cg reg s st) {env : DemandEnv}
    (henv : ∀ event ∈ env.telemetry, event.Steady cg) : Quiet topo cg reg s (st.observe env) := by
  refine ⟨h.registry, ?_, h.paths, h.lastReroute, h.reroutes⟩
  exact ((Settled.of_utilized hreg h.costs).foldl_observe hkeyed henv).trans h.costs

theorem midTick_quiet (holdDown : Time) (hkeyed : cg.Keyed) (honly : OnlyDemand topo r d)
    (h : SteadyAt topo cg r.rates reg s) (hinput : input.ConstantAt topo cg s)
    (hi : (buildDemands r input.orders)[i]? = some d) {n : ℕ} (hn : n ≤ i) :
    Quiet topo cg reg s (midTick holdDown r input s n) := by
  induction n with
  | zero => exact ⟨rfl, h.costGraph hkeyed hinput, rfl, rfl, rfl⟩
  | succ n ih =>
    obtain ⟨d', hd'⟩ : ∃ d', (buildDemands r input.orders)[n]? = some d' :=
      ⟨_, List.getElem?_eq_getElem (hn.trans (List.getElem?_eq_some_iff.mp hi).1.le)⟩
    have hne : d' ≠ d := fun heq =>
      pathKey_ne_of_ne (Nat.lt_of_succ_le hn).ne hd' hi (congrArg Demand.pathKey heq)
    have hwalk := honly.others _ d' (List.mem_of_getElem? hd') hne
    rw [← h.graph hinput] at hwalk
    rw [midTick_succ hd', demandStep_of_no_walk (newPCEGraph_adjFrom _) hwalk]
    exact (ih (Nat.le_of_succ_le hn)).observe hkeyed h.carries' (hinput.env n)

theorem midTick_rest (holdDown : Time) (hkeyed : cg.Keyed) (honly : OnlyDemand topo r d)
    (h : SteadyAt topo cg r.rates reg s) (hinput : input.ConstantAt topo cg s)
    (hi : (buildDemands r input.orders)[i]? = some d)
    (hst : midTick holdDown r input s (i + 1) = st)
    (hsettled : Settled r.rates topo cg st.costGraph) {n : ℕ} (hn : i < n)
    (hlength : n ≤ (buildDemands r input.orders).length) :
    let st' := midTick holdDown r input s n
    st'.registry = st.registry ∧ st'.paths = st.paths ∧ st'.lastReroute = st.lastReroute ∧
      st'.reroutes = st.reroutes ∧ Settled r.rates topo cg st'.costGraph := by
  induction n, hn using Nat.le_induction with
  | base => exact hst ▸ ⟨rfl, rfl, rfl, rfl, hst ▸ hsettled⟩
  | succ n hin ih =>
    obtain ⟨d', hd'⟩ : ∃ d', (buildDemands r input.orders)[n]? = some d' :=
      ⟨_, List.getElem?_eq_getElem hlength⟩
    have hne : d' ≠ d := fun heq =>
      pathKey_ne_of_ne (Nat.lt_of_succ_le hin).ne' hd' hi (congrArg Demand.pathKey heq)
    have hwalk := honly.others _ d' (List.mem_of_getElem? hd') hne
    rw [← h.graph hinput] at hwalk
    obtain ⟨hreg, hpaths, hlast, hreroutes, hcosts⟩ := ih (Nat.le_of_succ_le hlength)
    rw [midTick_succ hd', demandStep_of_no_walk (newPCEGraph_adjFrom _) hwalk]
    exact ⟨hreg, hpaths, hlast, hreroutes,
      hcosts.of_alike (hcosts.foldl_observe hkeyed (hinput.env n))⟩

theorem tick_of_turn (hkeyed : cg.Keyed) (honly : OnlyDemand topo r d)
    (h : SteadyAt topo cg r.rates reg s) (hinput : input.ConstantAt topo cg s)
    (hready : (input.telemetry.foldl CostGraph.observe s.costGraph).isReady input.readyAt = true)
    (hi : (buildDemands r input.orders)[i]? = some d)
    (hst : demandStep (input.context holdDown s) (input.env i) (midTick holdDown r input s i) d =
      st) (hsettled : Settled r.rates topo cg st.costGraph) :
    let s' := tick holdDown r input s
    tickReroutes holdDown r input s = st.reroutes ∧ s'.registry = st.registry ∧
      s'.pathStore = st.paths ∧ s'.lastReroute = st.lastReroute ∧
      Settled r.rates topo cg s'.costGraph ∧ s'.graph.nodes = topo.nodes := by
  have hlt := (List.getElem?_eq_some_iff.mp hi).1
  obtain ⟨hreg, hpaths, hlast, hreroutes, hcosts⟩ := midTick_rest holdDown hkeyed
    honly h hinput hi ((midTick_succ hi).trans hst) hsettled hlt le_rfl
  unfold tickReroutes tick
  rw [if_pos hready, if_pos hready]
  exact ⟨hreroutes, hreg, hpaths, hlast, hcosts, h.nodes⟩

end Tick

section Named

theorem Path.equal_refl (p : Path) : p.equal p = true := by
  simp [Path.equal]

variable {rates : Rates} {topo : Graph} {cg : CostGraph}
  {d : Demand}

theorem ownLoad_carries
    (hd : CarriesRates rates d.tenant.id d.bandwidthReservation.key
      d.bandwidthReservation) (edges : List PCEEdge) : (ownLoad d edges).Carries rates := by
  intro id t k res hres
  rw [ownLoad, reservationAt_foldl_addAt] at hres
  split_ifs at hres with hkey
  · cases hres
    rw [hkey.2.1, hkey.2.2]
    exact hd
  · simp at hres

theorem checkCapacity_ownLoad
    (hd : CarriesRates rates d.tenant.id d.bandwidthReservation.key
      d.bandwidthReservation) (edges : List PCEEdge) (ord ord' : RangeOrder) (e : PCEEdge) :
    (ownLoad d edges).checkCapacity ord e d.tenant.id d.bandwidthReservation =
      BandwidthReservationRegistry.checkCapacity ord' ∅ e d.tenant.id d.bandwidthReservation := by
  have hkeys : ∀ t k, k ∈ keysAt (ownLoad d edges) e.id t →
      t = d.tenant.id ∧ k = d.bandwidthReservation.key := by
    intro t k hk
    obtain ⟨res, hres⟩ := mem_keysAt.mp hk
    rw [ownLoad, reservationAt_foldl_addAt] at hres
    split_ifs at hres with hkey
    · exact hkey.2
    · simp at hres
  have hnone : ∀ t, keysAt ∅ e.id t = ∅ := by
    intro t
    ext k
    simp [mem_keysAt]
  refine (ownLoad_carries hd edges).checkCapacity_congr
    (carries_empty rates) hd ord ord' ?_ ?_
  · intro t ht
    rw [hnone, Finset.eq_empty_iff_forall_notMem]
    exact fun k hk => ht (hkeys t k hk).1
  · rw [hnone, insert_empty_eq, Finset.insert_eq, Finset.union_eq_left]
    exact fun k hk => Finset.mem_singleton.mpr (hkeys _ k hk).2

theorem utilized_seenBy (hkeyed : cg.Keyed) {reg reg' : BandwidthReservationRegistry}
    (hreg : reg.Carries rates) (hreg' : reg'.Carries rates) {weights : GoMap CostDimension ℚ}
    (hweights : .staticUtilization ∉ weights) (key : CostGraphEdge) :
    (utilized topo cg reg).seenBy weights key = (utilized topo cg reg').seenBy weights key := by
  have hsame : ∀ old c c', (fun dim => if dim ∈ weights then
      CostGraph.write old .staticUtilization c dim else none) =
        fun dim => if dim ∈ weights then
          CostGraph.write old .staticUtilization c' dim else none := by
    intro old c c'
    funext dim
    split_ifs with hdim
    · have hne : dim ≠ .staticUtilization := fun heq => hweights (heq ▸ hdim)
      rw [CostGraph.write, CostGraph.write, Function.update_of_ne hne, Function.update_of_ne hne]
    · rfl
  unfold utilized CostGraph.seenBy
  rw [updateStaticBandwidthUtilizationCost_eq, updateStaticBandwidthUtilizationCost_eq]
  by_cases hw : ∃ e : Edge, topo.edges.lookup e.id = some e ∧ e.up = true ∧
      cg.byID.lookup e.id = some key
  · obtain ⟨e, he, hup, hkey⟩ := hw
    rw [CostGraph.costAt_writeAll_of_mem (utilizationWrites_nodup _ _ _) hkeyed
        ((mem_utilizationWrites hreg _ _ _).mpr ⟨e, he, hup, rfl⟩) hkey,
      CostGraph.costAt_writeAll_of_mem (utilizationWrites_nodup _ _ _) hkeyed
        ((mem_utilizationWrites hreg' _ _ _).mpr ⟨e, he, hup, rfl⟩) hkey,
      Option.map_some, Option.map_some, hsame]
  · have hnot : ∀ {reg : BandwidthReservationRegistry}, reg.Carries rates →
        ∀ w ∈ utilizationWrites .listed reg (newPCEGraph topo), cg.byID.lookup w.1 ≠ some key := by
      intro reg hreg w hmem hkey
      obtain ⟨e, he, hup, rfl⟩ := (mem_utilizationWrites hreg _ _ _).mp hmem
      exact hw ⟨e, he, hup, hkey⟩
    rw [CostGraph.costAt_writeAll_of_notMem (hnot hreg),
      CostGraph.costAt_writeAll_of_notMem (hnot hreg')]

theorem keepsPlacement_of_unweighed (hkeyed : cg.Keyed) {r : TenantRepository} {ords : DemandOrders}
    (hd : d ∈ buildDemands r ords)
    (hweights : .staticUtilization ∉ classObjective d.trafficClass) :
    KeepsPlacement topo cg d := by
  intro p edges q edges' hp hq
  have hrates := Demand.carriesRates hd
  have hsame : choice topo cg (ownLoad d edges) d = choice topo cg ∅ d :=
    candidatePath_congr rfl rfl
      (utilized_seenBy hkeyed (ownLoad_carries hrates edges)
        (carries_empty _) hweights)
      (checkCapacity_ownLoad hrates edges _ _)
  rw [hsame, hp] at hq
  cases hq
  exact Or.inl p.equal_refl

end Named

section Turn

variable {holdDown : Time} {r : TenantRepository} {topo : Graph} {cg : CostGraph}
  {reg : BandwidthReservationRegistry} {d : Demand} {input : TickInput} {s : PCEState}
  {st : TickState} {env : DemandEnv}

theorem Quiet.candidatePath_eq (holdDown : Time) (env : DemandEnv)
    (hd : ∀ ords, d ∈ buildDemands r ords) (h : SteadyAt topo cg r.rates reg s)
    (hinput : input.ConstantAt topo cg s)
    (hst : Quiet topo cg reg s st) :
    candidatePath (input.context holdDown s) env st d = choice topo cg reg d := by
  refine candidatePath_congr (h.graph hinput) rfl (hst.costs.seenBy _) fun e => ?_
  rw [hst.registry]
  exact h.alike.checkCapacity h.carries h.carries' (Demand.carriesRates (hd input.orders)) _ _ e

theorem SteadyAt.previousCost_eq (hkeyed : cg.Keyed) (h : SteadyAt topo cg r.rates reg s)
    (hinput : input.ConstantAt topo cg s) (stored : Path) :
    previousCost (input.context holdDown s) d stored = costUnder topo cg reg d stored := by
  have hgraph : (input.context holdDown s).pceGraph = newPCEGraph topo := h.graph hinput
  unfold previousCost costUnder
  rw [hgraph]
  exact rescorePath_congr (newPCEGraph_agrees ((h.costGraph hkeyed hinput).seenBy _) topo) stored

theorem Path.equal_congr {p q : Path} (h : p.equal q = true) (path : Path) :
    p.equal path = q.equal path := by
  simp only [Path.equal, Bool.and_eq_true, beq_iff_eq] at h
  simp [Path.equal, h]

theorem costUnder_congr {p q : Path} (h : p.equal q = true) :
    costUnder topo cg reg d p = costUnder topo cg reg d q := by
  unfold costUnder rescorePath
  rw [Path.equal_edges h]

theorem demandStep_of_stays {ctx : TickContext} {stored : Path}
    (h : ∀ path edges, ¬ Leaves ctx env (st.observe env) d stored path edges)
    (hprevious : ctx.previous.lookup d.pathKey = some stored)
    (hpaths : st.paths.lookup d.pathKey = some stored) :
    let st' := demandStep ctx env st d
    st'.registry = st.registry ∧ st'.costGraph = (st.observe env).costGraph ∧
      st'.lastReroute = st.lastReroute ∧ st'.reroutes = st.reroutes ∧
      ∃ path, st'.paths.lookup d.pathKey = some path ∧ path.equal stored = true := by
  unfold demandStep
  cases hcandidate : candidatePath ctx env (st.observe env) d with
  | none => exact ⟨rfl, rfl, rfl, rfl, stored, hpaths, stored.equal_refl⟩
  | some found =>
    obtain ⟨path, edges⟩ := found
    simp only [hprevious, replacePath, rescored_equal]
    split_ifs with hequal hgated hheld
    · refine ⟨rfl, rfl, rfl, rfl, path, lookup_insert _, ?_⟩
      rw [← Path.equal_congr hequal]
      exact stored.equal_refl
    · refine ⟨rfl, rfl, rfl, rfl, _, lookup_insert _, ?_⟩
      rw [rescored_equal]
      exact stored.equal_refl
    · refine ⟨rfl, rfl, rfl, rfl, _, lookup_insert _, ?_⟩
      rw [rescored_equal]
      exact stored.equal_refl
    · refine absurd ⟨hcandidate, hprevious, ?_, ?_⟩ (h path edges)
      · simpa using hequal
      · by_cases htop : previousCost ctx d stored = ⊤
        · exact Or.inl htop
        · simp only [rescored, htop, decide_false, Bool.not_false, Bool.true_and,
            Bool.not_eq_true, if_false] at hgated hheld
          exact Or.inr ⟨hgated, hheld⟩

end Turn

section Run

variable (holdDown : Time) (r : TenantRepository) (topo : Graph) (cg : CostGraph)

def pathChanges : PCEState → List TickInput → List PCETickReportReroute
  | _, [] => []
  | s, input :: inputs =>
    tickReroutes holdDown r input s ++ pathChanges (tick holdDown r input s) inputs

/-- Link states and telemetry costs stay constant over a run. -/
def ConstantRun : PCEState → List TickInput → Prop
  | _, [] => True
  | s, input :: inputs =>
    input.ConstantAt topo cg s ∧ ConstantRun (tick holdDown r input s) inputs

def readyTicks : PCEState → List TickInput → ℕ
  | _, [] => 0
  | s, input :: inputs =>
    (if (input.telemetry.foldl CostGraph.observe s.costGraph).isReady input.readyAt then 1
      else 0) + readyTicks (tick holdDown r input s) inputs

structure Unplaced (d : Demand) (s : PCEState) : Prop where
  steady : SteadyAt topo cg r.rates ∅ s
  path : s.pathStore.lookup d.pathKey = none
  lastReroute : s.lastReroute.lookup d.pathKey = none

structure PlacedOn (d : Demand) (p : Path) (edges : List PCEEdge) (s : PCEState) : Prop where
  steady : SteadyAt topo cg r.rates (ownLoad d edges) s
  path : ∃ stored, s.pathStore.lookup d.pathKey = some stored ∧ stored.equal p = true
  lastReroute : s.lastReroute.lookup d.pathKey = none

variable {holdDown r topo cg} {reg : BandwidthReservationRegistry} {d : Demand}
  {input : TickInput} {s : PCEState}

theorem SteadyAt.tick_of_not_ready (holdDown : Time) (hkeyed : cg.Keyed)
    (h : SteadyAt topo cg r.rates reg s) (hinput : input.ConstantAt topo cg s)
    (hready : ¬ (input.telemetry.foldl CostGraph.observe s.costGraph).isReady input.readyAt =
      true) :
    tickReroutes holdDown r input s = [] ∧ SteadyAt topo cg r.rates reg (tick holdDown r input s) ∧
      (tick holdDown r input s).pathStore = s.pathStore ∧
      (tick holdDown r input s).lastReroute = s.lastReroute := by
  unfold tickReroutes tick
  rw [if_neg hready, if_neg hready]
  refine ⟨rfl, ⟨h.nodes, ?_, h.alike, h.carries, h.carries'⟩, rfl, rfl⟩
  exact h.settled.of_alike (h.settled.foldl_observe hkeyed hinput.telemetry)

theorem SteadyAt.admitsPruned (h : SteadyAt topo cg r.rates reg s)
    (hd : ∀ ords, d ∈ buildDemands r ords) {st : TickState} (hst : Quiet topo cg reg s st)
    (env : DemandEnv) : AdmitsPruned (input.context holdDown s) env st d := by
  have hcarries : st.registry.Carries r.rates := hst.registry ▸ h.carries
  exact ControlPlane.admitsPruned (fun _ _ hpe => newPCEGraph_id _ hpe) (newPCEGraph_adjFrom _)
    hcarries (Demand.carriesRates (hd input.orders))

variable {edges : List PCEEdge} {p : Path}

theorem ownLoad_alike {reg : BandwidthReservationRegistry} (h : reg.Alike ∅) {ord : RangeOrder}
    {reg' : BandwidthReservationRegistry}
    (hmove : reg.move ord [] edges d.tenant.id d.bandwidthReservation = .ok reg') :
    reg'.Alike (ownLoad d edges) := by
  intro id t k
  rw [reservationAt_move hmove, ownLoad,
    reservationAt_foldl_addAt, h id t k]
  by_cases hkey : t = d.tenant.id ∧ k = d.bandwidthReservation.key
  · simp [hkey]
  · rw [if_neg hkey, if_neg fun hall => hkey hall.2]

/-- The first tick in which the demand has a path places it, and the ticks before that do
nothing. -/
theorem Unplaced.tick (holdDown : Time) (hkeyed : cg.Keyed) (honly : OnlyDemand topo r d)
    (h : Unplaced r topo cg d s) (hinput : input.ConstantAt topo cg s)
    (hready : (input.telemetry.foldl CostGraph.observe s.costGraph).isReady input.readyAt = true) :
    (choice topo cg ∅ d = none ∧ tickReroutes holdDown r input s = [] ∧
      Unplaced r topo cg d (tick holdDown r input s)) ∨
    ∃ p edges, choice topo cg ∅ d = some (p, edges) ∧
      (tickReroutes holdDown r input s).map PCETickReportReroute.kind = [.new] ∧
      PlacedOn r topo cg d p edges (tick holdDown r input s) := by
  obtain ⟨i, hi⟩ := List.getElem?_of_mem (honly.mem input.orders)
  have hquiet := midTick_quiet holdDown hkeyed honly h.steady hinput hi le_rfl
  have hobserved := hquiet.observe hkeyed h.steady.carries' (hinput.env i)
  have hchoice := hobserved.candidatePath_eq holdDown (input.env i) honly.mem h.steady hinput
  rcases demandStep_of_new (h.steady.admitsPruned honly.mem hobserved (input.env i)) h.path with
    ⟨hnone, hstep⟩ | ⟨p, edges, reg, hsome, hmove, hstep⟩
  · obtain ⟨hreroutes, hreg, hpaths, hlast, hsettled, hnodes⟩ := tick_of_turn hkeyed honly
      h.steady hinput hready hi hstep (.of_utilized h.steady.carries' hobserved.costs)
    refine Or.inl ⟨hchoice ▸ hnone, hreroutes.trans hobserved.reroutes, ?_, ?_, ?_⟩
    · refine ⟨hnodes, hsettled, ?_, ?_, h.steady.carries'⟩
      · rw [hreg, hobserved.registry]
        exact h.steady.alike
      · rw [hreg, hobserved.registry]
        exact h.steady.carries
    · rw [hpaths, hobserved.paths, h.path]
    · rw [hlast, hobserved.lastReroute, h.lastReroute]
  · have halike := ownLoad_alike (hobserved.registry ▸ h.steady.alike) hmove
    have hcarries := (hobserved.registry ▸ h.steady.carries).of_move hmove
      (Demand.carriesRates (honly.mem input.orders))
    have hown := hcarries.of_alike halike
    have hcosts : (bookPath (input.context holdDown s) (input.env i)
        ((midTick holdDown r input s i).observe (input.env i)) d reg p
        (rerouteReport (input.context holdDown s) d .new emptyPath p [])).costGraph.Alike
          (utilized topo cg (ownLoad d edges)) := by
      have hgraph : (input.context holdDown s).pceGraph = newPCEGraph topo :=
        h.steady.graph hinput
      unfold bookPath
      rw [hgraph]
      exact (Settled.of_utilized h.steady.carries' hobserved.costs).updateStatic hkeyed halike
        hown hcarries _
    obtain ⟨hreroutes, hreg, hpaths, hlast, hsettled, hnodes⟩ := tick_of_turn hkeyed honly
      h.steady hinput hready hi hstep (.of_utilized hown hcosts)
    refine Or.inr ⟨p, edges, hchoice ▸ hsome, ?_, ?_, ⟨p, ?_, p.equal_refl⟩, ?_⟩
    · rw [hreroutes, bookPath, hobserved.reroutes]
      rfl
    · exact ⟨hnodes, hsettled, hreg ▸ halike, hreg ▸ hcarries, hown⟩
    · rw [hpaths]
      exact lookup_insert _
    · rw [hlast, bookPath, hobserved.lastReroute, h.lastReroute]

theorem PlacedOn.tick_of_keeps (holdDown : Time) (hkeyed : cg.Keyed) (honly : OnlyDemand topo r d)
    (hp : choice topo cg ∅ d = some (p, edges))
    (hkeeps : KeepsPlacement topo cg d) (h : PlacedOn r topo cg d p edges s)
    (hinput : input.ConstantAt topo cg s)
    (hready : (input.telemetry.foldl CostGraph.observe s.costGraph).isReady input.readyAt = true) :
    tickReroutes holdDown r input s = [] ∧
      PlacedOn r topo cg d p edges (tick holdDown r input s) := by
  obtain ⟨i, hi⟩ := List.getElem?_of_mem (honly.mem input.orders)
  obtain ⟨stored, hstored, hequal⟩ := h.path
  have hquiet := midTick_quiet holdDown hkeyed honly h.steady hinput hi le_rfl
  have hobserved := hquiet.observe hkeyed h.steady.carries' (hinput.env i)
  have hstays : ∀ path edges, ¬ Leaves (input.context holdDown s) (input.env i)
      ((midTick holdDown r input s i).observe (input.env i)) d stored path edges := by
    intro q edges' hleaves
    have hq := hleaves.candidate
    rw [hobserved.candidatePath_eq holdDown (input.env i) honly.mem h.steady hinput] at hq
    have hdiffers := hleaves.differs
    have hworth := hleaves.worth
    rw [Path.equal_congr hequal] at hdiffers
    rw [h.steady.previousCost_eq hkeyed hinput, costUnder_congr hequal] at hworth
    rcases hkeeps p edges q edges' hp hq with hsame | ⟨hfinite, hbelow⟩
    · rw [hsame] at hdiffers
      cases hdiffers
    · rcases hworth with htop | ⟨hnot, -⟩
      · exact hfinite htop
      · rw [hbelow] at hnot
        cases hnot
  obtain ⟨hreg', hcosts', hlast', hreroutes', path, hpath, hsame⟩ :=
    demandStep_of_stays hstays hstored (hquiet.paths ▸ hstored)
  have hsettled' : Settled r.rates topo cg (demandStep (input.context holdDown s) (input.env i)
      (midTick holdDown r input s i) d).costGraph := by
    rw [hcosts']
    exact .of_utilized h.steady.carries' hobserved.costs
  obtain ⟨hreroutes, hreg, hpaths, hlast, hsettled, hnodes⟩ := tick_of_turn hkeyed honly
    h.steady hinput hready hi rfl hsettled'
  refine ⟨?_, ?_, ⟨path, ?_, ?_⟩, ?_⟩
  · rw [hreroutes, hreroutes', hquiet.reroutes]
  · refine ⟨hnodes, hsettled, ?_, ?_, h.steady.carries'⟩
    · rw [hreg, hreg', hquiet.registry]
      exact h.steady.alike
    · rw [hreg, hreg', hquiet.registry]
      exact h.steady.carries
  · rw [hpaths, hpath]
  · rw [Path.equal_congr hsame]
    exact hequal
  · rw [hlast, hlast', hquiet.lastReroute, h.lastReroute]

theorem PlacedOn.tick_of_not_keeps (holdDown : Time) (hkeyed : cg.Keyed)
    (honly : OnlyDemand topo r d)
    (hp : choice topo cg ∅ d = some (p, edges))
    (hkeeps : ¬ KeepsPlacement topo cg d) (h : PlacedOn r topo cg d p edges s)
    (hinput : input.ConstantAt topo cg s)
    (hready : (input.telemetry.foldl CostGraph.observe s.costGraph).isReady input.readyAt = true) :
    tickReroutes holdDown r input s ≠ [] := by
  obtain ⟨i, hi⟩ := List.getElem?_of_mem (honly.mem input.orders)
  obtain ⟨stored, hstored, hequal⟩ := h.path
  have hquiet := midTick_quiet holdDown hkeyed honly h.steady hinput hi le_rfl
  have hobserved := hquiet.observe hkeyed h.steady.carries' (hinput.env i)
  unfold KeepsPlacement at hkeeps
  push Not at hkeeps
  obtain ⟨p', edges', q, edges'', hp', hq, hdiffers, hworth⟩ := hkeeps
  obtain ⟨rfl, rfl⟩ := Prod.mk.inj (Option.some.inj (hp.symm.trans hp'))
  have hleaves : Leaves (input.context holdDown s) (input.env i)
      ((midTick holdDown r input s i).observe (input.env i)) d stored q edges'' := by
    refine ⟨?_, hstored, ?_, ?_⟩
    · rw [hobserved.candidatePath_eq holdDown (input.env i) honly.mem h.steady hinput, hq]
    · rw [Path.equal_congr hequal]
      simpa using hdiffers
    · rw [h.steady.previousCost_eq hkeyed hinput, costUnder_congr hequal]
      by_cases htop : costUnder topo cg (ownLoad d edges) d p = ⊤
      · exact Or.inl htop
      · refine Or.inr ⟨by simpa using hworth htop, ?_⟩
        rw [heldDown, hobserved.lastReroute, h.lastReroute]
  have hstep := (demandStep_of_leaves (h.steady.admitsPruned honly.mem hobserved (input.env i))
    hleaves).1
  have hturn := (tick_of_demand holdDown s hi hready).1
  intro hnil
  rw [hnil, hstep, reroutesOf, reroutesOf, List.filter_append] at hturn
  simp [leaveReport_kind, leaveReport_pathKey] at hturn

theorem PlacedOn.pathChanges_eq_nil_iff (hkeyed : cg.Keyed) (honly : OnlyDemand topo r d)
    (hp : choice topo cg ∅ d = some (p, edges))
    {inputs : List TickInput} (h : PlacedOn r topo cg d p edges s)
    (hconstant : ConstantRun holdDown r topo cg s inputs) :
    pathChanges holdDown r s inputs = [] ↔
      (0 < readyTicks holdDown r s inputs → KeepsPlacement topo cg d) := by
  induction inputs generalizing s with
  | nil => simp [pathChanges, readyTicks]
  | cons input inputs ih =>
    obtain ⟨hinput, hrest⟩ := hconstant
    unfold pathChanges readyTicks
    by_cases hready :
        (input.telemetry.foldl CostGraph.observe s.costGraph).isReady input.readyAt = true
    · rw [if_pos hready]
      by_cases hkeeps : KeepsPlacement topo cg d
      · obtain ⟨hnil, hnext⟩ := h.tick_of_keeps holdDown hkeyed honly hp hkeeps hinput hready
        rw [hnil, List.nil_append, ih hnext hrest]
        exact iff_of_true (fun _ => hkeeps) fun _ => hkeeps
      · have hne := h.tick_of_not_keeps holdDown hkeyed honly hp hkeeps hinput
          hready
        refine iff_of_false (fun hnil => hne (List.append_eq_nil_iff.mp hnil).1) fun hall => ?_
        exact hkeeps (hall (Nat.add_pos_left Nat.one_pos _))
    · obtain ⟨hnil, hsteady, hpaths, hlast⟩ :=
        h.steady.tick_of_not_ready holdDown hkeyed hinput hready
      rw [if_neg hready, hnil, List.nil_append, Nat.zero_add]
      exact ih ⟨hsteady, hpaths ▸ h.path, hlast ▸ h.lastReroute⟩ hrest

theorem Unplaced.pathChanges_iff (hkeyed : cg.Keyed) (honly : OnlyDemand topo r d)
    {inputs : List TickInput} (h : Unplaced r topo cg d s)
    (hconstant : ConstantRun holdDown r topo cg s inputs) :
    (pathChanges holdDown r s inputs).map PCETickReportReroute.kind = [.new] ↔
      0 < readyTicks holdDown r s inputs ∧ (choice topo cg ∅ d).isSome = true ∧
        (1 < readyTicks holdDown r s inputs → KeepsPlacement topo cg d) := by
  induction inputs generalizing s with
  | nil => simp [pathChanges, readyTicks]
  | cons input inputs ih =>
    obtain ⟨hinput, hrest⟩ := hconstant
    unfold pathChanges readyTicks
    rw [List.map_append]
    by_cases hready :
        (input.telemetry.foldl CostGraph.observe s.costGraph).isReady input.readyAt = true
    · rw [if_pos hready]
      rcases h.tick holdDown hkeyed honly hinput hready with
        ⟨hnone, hnil, hnext⟩ | ⟨p, edges, hp, hnew, hnext⟩
      · rw [hnil, List.map_nil, List.nil_append, ih hnext hrest, hnone]
        simp
      · have hplaced := hnext.pathChanges_eq_nil_iff hkeyed honly hp hrest
        have hrerouted : (pathChanges holdDown r (ControlPlane.tick holdDown r input s)
            inputs).map PCETickReportReroute.kind = [] ↔
              (0 < readyTicks holdDown r (ControlPlane.tick holdDown r input s) inputs →
                KeepsPlacement topo cg d) := by
          rw [List.map_eq_nil_iff, hplaced]
        rw [hnew, List.append_right_eq_self, hrerouted, hp]
        simp
    · obtain ⟨hnil, hsteady, hpaths, hlast⟩ :=
        h.steady.tick_of_not_ready holdDown hkeyed hinput hready
      rw [if_neg hready, hnil, List.map_nil, List.nil_append, Nat.zero_add]
      exact ih ⟨hsteady, hpaths ▸ h.path, hlast ▸ h.lastReroute⟩ hrest

/-- With constant link states and telemetry costs, the only demand is placed once and never
rerouted exactly when it can be placed at all and its own load does not drive it away. -/
theorem placed_once_iff (holdDown : Time) (r : TenantRepository) {start topo : Graph}
    (hnodes : start.nodes = topo.nodes) {ord : RangeOrder} {startedAt : Time} {cg : CostGraph}
    (hcg : CostGraph.newCostGraph ord start startedAt = .ok cg) (before : List TelemetryEvent)
    {d : Demand} (honly : OnlyDemand topo r d) {inputs : List TickInput}
    (hconstant : ConstantRun holdDown r topo (before.foldl CostGraph.observe cg)
      (.initial start (before.foldl CostGraph.observe cg)) inputs) :
    let costs := before.foldl CostGraph.observe cg
    let s := PCEState.initial start costs
    (pathChanges holdDown r s inputs).map PCETickReportReroute.kind = [.new] ↔
      0 < readyTicks holdDown r s inputs ∧ (choice topo costs ∅ d).isSome = true ∧
        (1 < readyTicks holdDown r s inputs → KeepsPlacement topo costs d) := by
  have hkeyed := (CostGraph.newCostGraph_keyed hcg).of_byID
    (CostGraph.foldl_observe_byID cg before)
  have hcarries := carries_empty r.rates
  have hsteady : SteadyAt topo (before.foldl CostGraph.observe cg) r.rates ∅
      (.initial start (before.foldl CostGraph.observe cg)) :=
    ⟨hnodes, Or.inl (CostGraph.Alike.refl _), BandwidthReservationRegistry.Alike.refl _,
      hcarries, hcarries⟩
  exact Unplaced.pathChanges_iff hkeyed honly ⟨hsteady, rfl, rfl⟩ hconstant

def upLinks : Graph where
  nodes := parallelLinks.nodes
  edges := GoMap.collect Edge.id [linkAB "x" true, linkAB "y" true]
  adj := parallelLinks.adj
  edges_id := fun _ _ h => (GoMap.of_lookup_collect h).2

def constantTicks : List TickInput :=
  [quietTick [.converged "x", .converged "y"] 0, quietTick [] 1]

theorem walk_upLinks {src dst : NodeID} {ids : List PCEEdgeID}
    (h : (newPCEGraph upLinks).Walk src ids dst) : src = dst ∨ src = "A" := by
  cases h with
  | nil => exact Or.inl rfl
  | cons hedge =>
    obtain ⟨link, hlink, -, -, rfl⟩ := (newPCEGraph_lookup _ _ _).mp hedge
    have hmem := (GoMap.of_lookup_collect hlink).1
    simp only [List.mem_cons, List.not_mem_nil, or_false] at hmem
    rcases hmem with rfl | rfl <;> exact Or.inr rfl

theorem exists_onlyDemand {r : TenantRepository} (input : TickInput)
    (hkey : keyAB ∈ (buildDemands r input.orders).map Demand.pathKey)
    (hkeys : ∀ d ∈ buildDemands r input.orders, d.fromNode = "A" → d.pathKey = keyAB) :
    ∃ d, OnlyDemand upLinks r d := by
  obtain ⟨d, hd, hkeyd⟩ := List.mem_map.mp hkey
  have hmem : ∀ {d' : Demand} {ords' : DemandOrders},
      d' ∈ buildDemands r ords' ↔ d' ∈ buildDemands r input.orders :=
    mem_buildDemands_iff.trans mem_buildDemands_iff.symm
  refine ⟨d, fun ords' => hmem.mpr hd, ?_⟩
  intro ords' d' hd' hne ids hwalk
  rcases walk_upLinks hwalk with heq | hsource
  · exact (mem_buildDemands_iff.mp hd').2.2.1 heq
  · obtain ⟨i, hi⟩ := List.getElem?_of_mem hd
    obtain ⟨j, hj⟩ := List.getElem?_of_mem (hmem.mp hd')
    refine hne (place_eq_of_pathKey_eq hj hi ?_).2
    rw [hkeys d' (hmem.mp hd') hsource, hkeyd]

theorem quietTick_constantAt {topo : Graph} {cg : CostGraph} {s : PCEState}
    {telemetry : List TelemetryEvent} {time : Time}
    (htelemetry : ∀ event ∈ telemetry, event.Steady cg)
    (hlinks : ((quietTick telemetry time).graph s).edges.entries.Perm topo.edges.entries) :
    (quietTick telemetry time).ConstantAt topo cg s := by
  refine ⟨fun id => perm_lookup hlinks, htelemetry, ?_, ?_⟩
  · intro event hevent
    cases hevent
  · intro n event hevent
    cases hevent

def LinksConstant (r : TenantRepository) (cg : CostGraph) : Prop :=
  ∀ n < 2, ∀ input ∈ constantTicks[n]?,
    (input.graph (stateAt 60000000000 r upLinks cg constantTicks n)).edges.entries.Perm
      upLinks.edges.entries

instance (r : TenantRepository) (cg : CostGraph) : Decidable (LinksConstant r cg) :=
  inferInstanceAs (Decidable (∀ n < 2, ∀ input ∈ constantTicks[n]?, List.Perm _ _))

theorem constantRun_upLinks {r : TenantRepository} {cg : CostGraph} (h : LinksConstant r cg) :
    ConstantRun 60000000000 r upLinks cg (.initial upLinks cg) constantTicks := by
  refine ⟨quietTick_constantAt ?_ (h 0 (by decide) _ rfl),
    quietTick_constantAt ?_ (h 1 (by decide) _ rfl), trivial⟩
  · intro event hevent
    simp only [List.mem_cons, List.not_mem_nil, or_false] at hevent
    rcases hevent with rfl | rfl <;> exact trivial
  · exact List.forall_mem_nil _

theorem keepsPlacement_ten :
    ∃ cg d, CostGraph.newCostGraph .listed upLinks 0 = .ok cg ∧
      OnlyDemand upLinks (tenantsAB [(1, 10)]) d ∧ (choice upLinks cg ∅ d).isSome = true ∧
      KeepsPlacement upLinks cg d := by
  have hrun : (CostGraph.newCostGraph .listed upLinks 0).map (fun cg => decide
      (LinksConstant (tenantsAB [(1, 10)]) cg ∧
        (pathChanges 60000000000 (tenantsAB [(1, 10)]) (.initial upLinks cg) constantTicks).map
          PCETickReportReroute.kind = [.new] ∧
        1 < readyTicks 60000000000 (tenantsAB [(1, 10)]) (.initial upLinks cg) constantTicks)) =
      .ok true := by
    decide +kernel
  obtain ⟨cg, hcg, hplaced⟩ := Result.map_eq_ok.mp hrun
  obtain ⟨hlinks, honce, hready⟩ := of_decide_eq_true hplaced
  obtain ⟨d, honly⟩ := exists_onlyDemand (r := tenantsAB [(1, 10)]) (quietTick [] 0)
    (by decide +kernel) (by decide +kernel)
  have hiff := placed_once_iff 60000000000 (tenantsAB [(1, 10)]) rfl hcg [] honly
    (constantRun_upLinks hlinks)
  obtain ⟨-, hsome, hkeeps⟩ := hiff.mp honce
  exact ⟨cg, d, hcg, honly, hsome, hkeeps hready⟩

/-- A tenant that books 30 of 95 bookable Mbps is driven away by its own load: it is placed
on `x`, which then costs more than a tenth more than `y`. -/
theorem ownLoad_reroutes :
    ∃ cg d, CostGraph.newCostGraph .listed upLinks 0 = .ok cg ∧
      OnlyDemand upLinks (tenantsAB [(1, 30)]) d ∧
      ConstantRun 60000000000 (tenantsAB [(1, 30)]) upLinks cg (.initial upLinks cg)
        constantTicks ∧
      (pathChanges 60000000000 (tenantsAB [(1, 30)]) (.initial upLinks cg) constantTicks).map
        PCETickReportReroute.kind = [.new, .rerouted] := by
  have hrun : (CostGraph.newCostGraph .listed upLinks 0).map (fun cg => decide
      (LinksConstant (tenantsAB [(1, 30)]) cg ∧
        (pathChanges 60000000000 (tenantsAB [(1, 30)]) (.initial upLinks cg) constantTicks).map
          PCETickReportReroute.kind = [.new, .rerouted])) = .ok true := by
    decide +kernel
  obtain ⟨cg, hcg, hmoves⟩ := Result.map_eq_ok.mp hrun
  obtain ⟨hlinks, hkinds⟩ := of_decide_eq_true hmoves
  obtain ⟨d, honly⟩ := exists_onlyDemand (r := tenantsAB [(1, 30)]) (quietTick [] 0)
    (by decide +kernel) (by decide +kernel)
  exact ⟨cg, d, hcg, honly, constantRun_upLinks hlinks, hkinds⟩

end Run

end Maeto.ControlPlane
