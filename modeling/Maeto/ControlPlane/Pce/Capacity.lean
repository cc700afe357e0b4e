import Maeto.ControlPlane.Pce.Tick
import Maeto.ControlPlane.Reservation.Capacity

/-!
# No link is booked above its bookable share

The tenant repository and the bandwidths of the links are fixed; the telemetry,
the link states and the order of all loops are not. Every demand carries the
rates of its pops, so every reservation in the registry does
(`Admissible.carries`), and the capacity check of a move then bounds the load of
each edge after the move. `Admissible` is kept by the step of every demand, and
so it holds at every point of every run.
-/

namespace Maeto.ControlPlane

open Foundation BandwidthReservationRegistry

def TenantRepository.rates (r : TenantRepository) : Rates :=
  fun t pop label => (r.tenant t).elim 0 fun tenant => popMbps tenant pop label

variable {r : TenantRepository} {ords : DemandOrders} {d : Demand} {topo : Graph}

theorem Demand.carriesRates (h : d ∈ buildDemands r ords) :
    CarriesRates r.rates d.tenant.id d.bandwidthReservation.key
      d.bandwidthReservation := by
  obtain ⟨htenant, -, hfrom, hto, hfromPos, htoPos⟩ := mem_buildDemands h
  refine ⟨rfl, ?_, ?_, hfromPos.le, htoPos.le⟩
  · rw [TenantRepository.rates, htenant]
    exact hfrom
  · rw [TenantRepository.rates, htenant]
    exact hto

def Graph.SameBandwidths (topo g : Graph) : Prop :=
  ∀ id e, g.edges.lookup id = some e →
    ∃ e₀, topo.edges.lookup id = some e₀ ∧ e₀.bandwidth = e.bandwidth

theorem Graph.sameBandwidths_refl (topo : Graph) : topo.SameBandwidths topo :=
  fun _ e h => ⟨e, h, rfl⟩

theorem Graph.SameBandwidths.updateLinkStates {g : Graph} (h : topo.SameBandwidths g)
    (ord : RangeOrder) (lastSeen : GoMap EdgeID Time) (now : Time) :
    topo.SameBandwidths (updateLinkStates ord lastSeen now g) := by
  intro id e he
  simp only [ControlPlane.updateLinkStates, GoMap.lookup_copyInto] at he
  cases hold : g.edges.lookup id with
  | none => simp [hold] at he
  | some e' =>
    rw [hold, Option.bind_some, Option.some_or] at he
    cases he
    obtain ⟨e₀, he₀, hbw⟩ := h id e' hold
    exact ⟨e₀, he₀, by rw [hbw, linkState_bandwidth]⟩

/-- The logical edge stands for a link of the topology, with its bandwidth. -/
def PCEEdge.IsLinkOf (topo : Graph) (pe : PCEEdge) : Prop :=
  ∃ e, topo.edges.lookup pe.id.link = some e ∧ pe.capacity = e.bandwidth

theorem newPCEGraph_isLinkOf {g : Graph} (h : topo.SameBandwidths g) {id : PCEEdgeID}
    {pe : PCEEdge} (hpe : (newPCEGraph g).edges.lookup id = some pe) : pe.IsLinkOf topo := by
  obtain ⟨e, he, -, rfl, rfl⟩ := (newPCEGraph_lookup g id pe).mp hpe
  obtain ⟨e₀, he₀, hbw⟩ := h e.id e he
  exact ⟨e₀, he₀, by rw [PCEEdge.capacity_ofLink, hbw]⟩

def linkCapacity (topo : Graph) (id : PCEEdgeID) : ℚ :=
  (topo.edges.lookup id.link).elim 0 Edge.bandwidth

theorem PCEEdge.IsLinkOf.capacity_eq {pe : PCEEdge} (h : pe.IsLinkOf topo) :
    pe.capacity = linkCapacity topo pe.id := by
  obtain ⟨e, he, hcap⟩ := h
  rw [hcap, linkCapacity, he, Option.elim_some]

structure Admissible (topo : Graph) (r : TenantRepository) (reg : BandwidthReservationRegistry) :
    Prop where
  wellFormed : reg.WellFormed
  carries : reg.Carries r.rates
  forEdges : reg.ForEdges (PCEEdge.IsLinkOf topo)
  within : reg.WithinCapacity (linkCapacity topo) r.rates

theorem admissible_empty (topo : Graph) (r : TenantRepository) : Admissible topo r ∅ where
  wellFormed := wellFormed_empty
  carries := carries_empty _
  forEdges := forEdges_empty _
  within := withinCapacity_empty _ _

theorem Admissible.move
    (hd : d ∈ buildDemands r ords) {ord : RangeOrder} {reg reg' : BandwidthReservationRegistry}
    {src : List PCEEdgeID} {dst : List PCEEdge} (h : Admissible topo r reg)
    (hdst : ∀ e ∈ dst, e.IsLinkOf topo)
    (hm : reg.move ord src dst d.tenant.id d.bandwidthReservation = .ok reg') :
    Admissible topo r reg' where
  wellFormed := h.wellFormed.of_move hm
  carries := h.carries.of_move hm (Demand.carriesRates hd)
  forEdges := h.forEdges.of_move hm hdst
  within := h.within.of_move hm h.wellFormed h.carries (Demand.carriesRates hd)
    fun e he => (hdst e he).capacity_eq

theorem Admissible.demandStep {ctx : TickContext} (hkeyed : ctx.pceGraph.Keyed)
    (hgraph : ∀ id pe, ctx.pceGraph.edges.lookup id = some pe → pe.IsLinkOf topo)
    (env : DemandEnv) {st : TickState} (hd : d ∈ buildDemands r ords)
    (h : Admissible topo r st.registry) :
    Admissible topo r (demandStep ctx env st d).registry := by
  have hlinks : ∀ {path : Path} {edges : List PCEEdge},
      candidatePath ctx env (st.observe env) d = some (path, edges) →
        ∀ e ∈ edges, e.IsLinkOf topo := by
    intro path edges hcandidate e he
    have hedges := lookupEdges_eq_some hkeyed (candidatePath_eq_some hcandidate).2
    exact hgraph e.id e (hedges.2 e he)
  have houtcome := demandStep_outcome ctx env st d
  generalize ControlPlane.demandStep ctx env st d = st' at houtcome ⊢
  cases houtcome with
  | skipped => exact h
  | placed hcandidate _ hmove => exact Admissible.move hd h (hlinks hcandidate) hmove
  | unchanged => exact h
  | kept => exact h
  | moved hcandidate _ _ hmove => exact Admissible.move hd h (hlinks hcandidate) hmove

theorem Admissible.midTick {s : PCEState}
    (hgraph : topo.SameBandwidths s.graph) (h : Admissible topo r s.registry) (holdDown : Time)
    (input : TickInput) (n : ℕ) :
    Admissible topo r (midTick holdDown r input s n).registry := by
  apply midTick_induction (P := fun st => Admissible topo r st.registry)
  · exact h
  · intro i st d hd hst
    apply Admissible.demandStep _ _ (input.env i) hd hst
    · intro id pe hpe
      exact newPCEGraph_id _ hpe
    · intro id pe hpe
      exact newPCEGraph_isLinkOf (hgraph.updateLinkStates _ _ _) hpe

theorem Admissible.run (holdDown : Time) (r : TenantRepository) (topo : Graph) (cg : CostGraph)
    (inputs : List TickInput) :
    let s := run holdDown (inputs.map (r, ·)) (PCEState.initial topo cg)
    topo.SameBandwidths s.graph ∧ Admissible topo r s.registry := by
  apply run_induction (P := fun s => topo.SameBandwidths s.graph ∧ Admissible topo r s.registry)
  · exact ⟨topo.sameBandwidths_refl, admissible_empty topo r⟩
  · rintro ⟨r', input⟩ hmem s ⟨hgraph, hreg⟩
    obtain ⟨input', -, heq⟩ := List.mem_map.mp hmem
    obtain ⟨rfl, rfl⟩ := Prod.mk.inj heq
    unfold tick
    split_ifs
    · exact ⟨hgraph.updateLinkStates _ _ _, hreg.midTick hgraph holdDown _ _⟩
    · exact ⟨hgraph, hreg⟩

/-- Every edge in the registry stands for a link of the topology, and what is
booked on it is at most its bookable share, whatever order the sums are taken
in. -/
def BookedWithinCapacity (topo : Graph) (reg : BandwidthReservationRegistry) : Prop :=
  ∀ (ord : RangeOrder) id b, reg.lookup id = some b →
    ∃ e, topo.edges.lookup id.link = some e ∧ b.forEdge.id = id ∧
      b.forEdge.capacity = e.bandwidth ∧
        b.loadAndCapacity ord ≤ b.forEdge.capacity * (1 - capacityHeadroom)

theorem Admissible.bookedWithinCapacity
    {reg : BandwidthReservationRegistry} (h : Admissible topo r reg) :
    BookedWithinCapacity topo reg := by
  intro ord id b hb
  have hid := h.wellFormed.forEdge_id id b hb
  have hlink := h.forEdges id b hb
  have hload := h.within id b hb
  obtain ⟨e, he, hcap⟩ := hlink
  refine ⟨e, hid ▸ he, hid, hcap, ?_⟩
  rw [h.carries.loadAndCapacity_eq ord hb, PCEEdge.IsLinkOf.capacity_eq ⟨e, he, hcap⟩, hid]
  exact hload

/-- No link is booked above its bookable share at any point of any run: after
any ticks and, in the next tick, after any number of demands. -/
theorem midTick_bookedWithinCapacity (holdDown : Time) (r : TenantRepository) (topo : Graph)
    (cg : CostGraph) (inputs : List TickInput) (input : TickInput) (n : ℕ) :
    BookedWithinCapacity topo
      (midTick holdDown r input
        (run holdDown (inputs.map (r, ·)) (PCEState.initial topo cg)) n).registry := by
  obtain ⟨hgraph, hreg⟩ := Admissible.run holdDown r topo cg inputs
  exact (hreg.midTick hgraph holdDown input n).bookedWithinCapacity

end Maeto.ControlPlane
