import Maeto.ControlPlane.Pce.Tick
import Maeto.ControlPlane.Reservation.Capacity

/-!
# The bookings are those of the paths

After every tick the registry holds exactly the reservations of the stored paths:
a tenant has a reservation on an edge under a key when and only when the path of
that key uses the edge. The demand loop keeps the registry and the paths that the
tick builds in step (`Aligned.demandStep`); it relies on the path of a demand
being the one of the last tick when its turn comes, which holds because no two
demands share a path key.
-/

namespace Maeto.ControlPlane

open Foundation BandwidthReservationRegistry AList

def PathKey.reservationKey (k : PathKey) : BandwidthReservationKey where
  sourcePop := k.fromNode
  sinkPop := k.toNode
  label := k.label

/-- Something is booked on an edge for a path key exactly when the path of the
key uses the edge. -/
def Aligned (reg : BandwidthReservationRegistry) (paths : PathSet) : Prop :=
  ∀ (k : PathKey) (id : PCEEdgeID),
    (∃ b, reg.reservationAt id k.tenant k.reservationKey = some b) ↔
      ∃ p, paths.lookup k = some p ∧ id ∈ p.edges

theorem aligned_empty : Aligned ∅ ∅ := by
  intro k id
  simp

theorem PathKey.eq_iff (k k' : PathKey) :
    k = k' ↔ k.tenant = k'.tenant ∧ k.reservationKey = k'.reservationKey := by
  cases k
  cases k'
  simp [PathKey.reservationKey]

section Step

variable {reg : BandwidthReservationRegistry} {paths : PathSet}

theorem Aligned.insert_of_edges_eq (h : Aligned reg paths) {k : PathKey} {p q : Path}
    (hold : paths.lookup k = some p) (hedges : p.edges = q.edges) :
    Aligned reg (paths.insert k q) := by
  intro k' id
  rw [h k' id, GoMap.lookup_insert_eq]
  by_cases hk : k' = k
  · subst hk
    simp [hold, hedges]
  · simp [hk]

theorem Aligned.move {ord : RangeOrder} {reg' : BandwidthReservationRegistry} {d : Demand}
    {src : List PCEEdgeID} {edges : List PCEEdge} {path : Path} (h : Aligned reg paths)
    (hsrc : ∀ p id, paths.lookup d.pathKey = some p → id ∈ p.edges → id ∈ src)
    (hedges : edges.map PCEEdge.id = path.edges)
    (hm : reg.move ord src edges d.tenant.id d.bandwidthReservation = .ok reg') :
    Aligned reg' (paths.insert d.pathKey path) := by
  intro k id
  rw [reservationAt_move hm, hedges, GoMap.lookup_insert_eq]
  have hkey : (k.tenant = d.tenant.id ∧ k.reservationKey = d.bandwidthReservation.key) ↔
      k = d.pathKey := (PathKey.eq_iff k d.pathKey).symm
  by_cases hk : k = d.pathKey
  · rw [if_pos (hkey.mpr hk), if_pos hk]
    by_cases hid : id ∈ path.edges
    · simp [hid]
    · rw [if_neg hid]
      have hnone : id ∉ src → ¬ ∃ b, reg.reservationAt id k.tenant k.reservationKey = some b := by
        intro hnot hbooked
        obtain ⟨p, hp, hmem⟩ := (h k id).mp hbooked
        exact hnot (hsrc p id (hk ▸ hp) hmem)
      by_cases hmem : id ∈ src
      · simp [hmem, hid]
      · rw [if_neg hmem]
        simp [hnone hmem, hid]
  · rw [if_neg fun hplace => hk (hkey.mp hplace), if_neg hk]
    exact h k id

theorem Aligned.demandStep {ctx : TickContext} (hkeyed : ctx.pceGraph.Keyed) (env : DemandEnv)
    {st : TickState} {d : Demand} (h : Aligned st.registry st.paths)
    (hprevious : st.paths.lookup d.pathKey = ctx.previous.lookup d.pathKey) :
    Aligned (demandStep ctx env st d).registry (demandStep ctx env st d).paths := by
  have houtcome := demandStep_outcome ctx env st d
  generalize ControlPlane.demandStep ctx env st d = st' at houtcome ⊢
  cases houtcome with
  | skipped => exact h
  | placed hcandidate hnone hmove =>
    have hedges := lookupEdges_eq_some hkeyed (candidatePath_eq_some hcandidate).2
    refine Aligned.move h ?_ hedges.1 hmove
    intro p id hp _
    rw [TickState.observe_paths, hprevious, hnone] at hp
    cases hp
  | unchanged _ hstored hequal =>
    exact Aligned.insert_of_edges_eq h (hprevious.trans hstored) hequal
  | kept kind _ hstored _ =>
    exact Aligned.insert_of_edges_eq h (hprevious.trans hstored) (rescored_edges _ _ _).symm
  | moved hcandidate hstored _ hmove =>
    have hedges := lookupEdges_eq_some hkeyed (candidatePath_eq_some hcandidate).2
    refine Aligned.move h ?_ hedges.1 hmove
    intro p id hp hid
    rw [TickState.observe_paths, hprevious, hstored] at hp
    cases hp
    exact hid

end Step

theorem demandStep_paths_of_ne (ctx : TickContext) (env : DemandEnv) (st : TickState) {d : Demand}
    {k : PathKey} (hk : k ≠ d.pathKey) :
    (demandStep ctx env st d).paths.lookup k = st.paths.lookup k := by
  have houtcome := demandStep_outcome ctx env st d
  generalize demandStep ctx env st d = st' at houtcome ⊢
  cases houtcome with
  | skipped => rfl
  | placed => exact lookup_insert_ne hk
  | unchanged => exact lookup_insert_ne hk
  | kept => exact lookup_insert_ne hk
  | moved => exact lookup_insert_ne hk

theorem demandStep_wellFormed (ctx : TickContext) (env : DemandEnv) {st : TickState} (d : Demand)
    (h : st.registry.WellFormed) : (demandStep ctx env st d).registry.WellFormed := by
  have houtcome := demandStep_outcome ctx env st d
  generalize demandStep ctx env st d = st' at houtcome ⊢
  cases houtcome with
  | skipped => exact h
  | placed _ _ hmove => exact BandwidthReservationRegistry.WellFormed.of_move hmove h
  | unchanged => exact h
  | kept => exact h
  | moved _ _ _ hmove => exact BandwidthReservationRegistry.WellFormed.of_move hmove h

/-- Demands with distinct path keys, each of which still has the path of the last
tick, keep the registry and the paths in step. -/
theorem Aligned.foldl_demandStep {ctx : TickContext} (hkeyed : ctx.pceGraph.Keyed)
    (env : ℕ → DemandEnv) (l : List (Demand × ℕ)) (hnodup : (l.map fun d => d.1.pathKey).Nodup)
    {st : TickState} (h : Aligned st.registry st.paths)
    (hprevious : ∀ d ∈ l, st.paths.lookup d.1.pathKey = ctx.previous.lookup d.1.pathKey) :
    let st' := l.foldl (fun st d => ControlPlane.demandStep ctx (env d.2) st d.1) st
    Aligned st'.registry st'.paths := by
  induction l generalizing st with
  | nil => exact h
  | cons d l ih =>
    rw [List.map_cons, List.nodup_cons] at hnodup
    apply ih hnodup.2
    · exact h.demandStep hkeyed (env d.2) (hprevious d List.mem_cons_self)
    · intro d' hd'
      have hne : d'.1.pathKey ≠ d.1.pathKey := fun heq =>
        hnodup.1 (heq ▸ List.mem_map_of_mem hd')
      rw [demandStep_paths_of_ne ctx (env d.2) st hne]
      exact hprevious d' (List.mem_cons_of_mem d hd')

/-- The bookings of a state are those of its paths, and no map is empty. -/
structure BookingsMatchPaths (s : PCEState) : Prop where
  booked_iff : ∀ (id : PCEEdgeID) (t : TenantID) (key : BandwidthReservationKey),
    (∃ b, s.registry.reservationAt id t key = some b) ↔
      ∃ p, s.pathStore.lookup ⟨t, key.sourcePop, key.sinkPop, key.label⟩ = some p ∧ id ∈ p.edges
  bookings_ne : ∀ id b, s.registry.lookup id = some b → b.bookings.entries ≠ []
  reservations_ne : ∀ id b, s.registry.lookup id = some b →
    ∀ t e, b.bookings.lookup t = some e → e.reservations.entries ≠ []

theorem Aligned.tick {s : PCEState} (h : Aligned s.registry s.pathStore) (holdDown : Time)
    (r : TenantRepository) (input : TickInput) :
    Aligned (tick holdDown r input s).registry (tick holdDown r input s).pathStore := by
  unfold ControlPlane.tick
  split_ifs
  · have hkeys := buildDemands_pathKeys_nodup r input.orders
    have hzip : ((buildDemands r input.orders).zipIdx.map fun d => d.1.pathKey) =
        (buildDemands r input.orders).map Demand.pathKey := by
      calc ((buildDemands r input.orders).zipIdx.map fun d => d.1.pathKey)
          = ((buildDemands r input.orders).zipIdx.map Prod.fst).map Demand.pathKey := by
            rw [List.map_map]
            rfl
        _ = (buildDemands r input.orders).map Demand.pathKey := by rw [List.zipIdx_map_fst]
    simp only [midTick]
    rw [List.take_of_length_le (by simp)]
    apply Aligned.foldl_demandStep
    · intro id pe hpe
      exact newPCEGraph_id _ hpe
    · rw [hzip]
      exact hkeys
    · exact h
    · intro d _
      rfl
  · exact h

theorem tick_wellFormed {s : PCEState} (h : s.registry.WellFormed) (holdDown : Time)
    (r : TenantRepository) (input : TickInput) :
    (tick holdDown r input s).registry.WellFormed := by
  unfold tick
  split_ifs
  · apply midTick_induction (P := fun st => st.registry.WellFormed)
    · exact h
    · intro i st d _ hst
      exact demandStep_wellFormed _ (input.env i) d hst
  · exact h

/-- At every tick boundary of every run, whatever the demands of each tick are,
the registry holds the reservations of the stored paths and nothing else. -/
theorem run_bookingsMatchPaths (holdDown : Time) (topo : Graph) (cg : CostGraph)
    (ticks : List (TenantRepository × TickInput)) :
    BookingsMatchPaths (run holdDown ticks (PCEState.initial topo cg)) := by
  have hrun : Aligned (run holdDown ticks (PCEState.initial topo cg)).registry
        (run holdDown ticks (PCEState.initial topo cg)).pathStore ∧
      (run holdDown ticks (PCEState.initial topo cg)).registry.WellFormed := by
    apply run_induction (P := fun s => Aligned s.registry s.pathStore ∧ s.registry.WellFormed)
    · exact ⟨aligned_empty, wellFormed_empty⟩
    · rintro t _ s ⟨haligned, hwf⟩
      exact ⟨haligned.tick holdDown t.1 t.2, tick_wellFormed hwf holdDown t.1 t.2⟩
  refine ⟨?_, hrun.2.bookings_ne, hrun.2.reservations_ne⟩
  intro id t key
  exact hrun.1 ⟨t, key.sourcePop, key.sinkPop, key.label⟩ id

end Maeto.ControlPlane
