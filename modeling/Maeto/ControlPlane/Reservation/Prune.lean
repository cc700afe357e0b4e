import Maeto.ControlPlane.Cspf.Optimal
import Maeto.ControlPlane.Reservation.Capacity

/-!
# The graph without the edges that have no room

Pruning keeps the edges that pass `checkCapacity` and drops the others from the adjacency
lists (`lookup_pruneGraph`, `adj_pruneGraph`). The pruned graph is then as good for the path
search as the whole one.

When the reservations carry the rates of their pops, the check depends on the reservations
and not on the order in which the bookings are visited (`Alike.checkCapacity`). So a move that
visits the bookings once more, in another order, finds room where pruning has found it.
-/

namespace Maeto.ControlPlane

open Foundation GoMap AList

theorem newPCEGraph_listed (g : Graph) : (newPCEGraph g).Listed :=
  (newPCEGraph_consistent g).listed

theorem newPCEGraph_adjFrom (g : Graph) : (newPCEGraph g).AdjFrom :=
  (newPCEGraph_consistent g).adjFrom

section Prune

variable (ord : RangeOrder) (reg : BandwidthReservationRegistry) (g : PCEGraph)
  (t : TenantID) (c : BandwidthReservation)

theorem lookup_pruneGraph (id : PCEEdgeID) :
    (reg.pruneGraph ord g t c).edges.lookup id =
      (g.edges.lookup id).filter fun e => reg.checkCapacity ord e t c := by
  unfold BandwidthReservationRegistry.pruneGraph
  rw [lookup_copyInto, lookup_empty, Option.or_none]
  cases g.edges.lookup id with
  | none => rfl
  | some e => by_cases hroom : reg.checkCapacity ord e t c = true <;> simp [Option.filter, hroom]

theorem adj_pruneGraph (n : NodeID) :
    (reg.pruneGraph ord g t c).adj.getD n [] =
      (g.adj.getD n []).filter fun id => decide (id ∈ (reg.pruneGraph ord g t c).edges) := by
  have hpruned : (reg.pruneGraph ord g t c).adj.lookup n = (g.adj.lookup n).bind fun ids =>
      if 0 < (ids.filter fun id => decide (id ∈ (reg.pruneGraph ord g t c).edges)).length then
        some (ids.filter fun id => decide (id ∈ (reg.pruneGraph ord g t c).edges))
      else none := by
    unfold BandwidthReservationRegistry.pruneGraph
    rw [lookup_copyInto, lookup_empty, Option.or_none]
  rw [GoMap.getD, GoMap.getD, hpruned]
  cases g.adj.lookup n with
  | none => rfl
  | some ids =>
    rw [Option.bind_some]
    split_ifs with hsome
    · rfl
    · have hnil := List.length_eq_zero_iff.mp (Nat.eq_zero_of_not_pos hsome)
      rw [Option.getD_some, hnil]
      rfl

variable {ord reg g t c}

theorem of_lookup_pruneGraph {id : PCEEdgeID} {e : PCEEdge}
    (h : (reg.pruneGraph ord g t c).edges.lookup id = some e) :
    g.edges.lookup id = some e ∧ reg.checkCapacity ord e t c = true := by
  rw [lookup_pruneGraph] at h
  exact Option.filter_eq_some_iff.mp h

theorem pruneGraph_adjFrom (hg : g.AdjFrom) : (reg.pruneGraph ord g t c).AdjFrom := by
  intro n id e hid he
  rw [adj_pruneGraph] at hid
  exact hg n id e (List.mem_filter.mp hid).1 (of_lookup_pruneGraph he).1

theorem pruneGraph_listed (hg : g.Listed) : (reg.pruneGraph ord g t c).Listed := by
  intro id e he
  rw [adj_pruneGraph, List.mem_filter]
  exact ⟨hg id e (of_lookup_pruneGraph he).1, decide_eq_true (mem_iff.mpr ⟨e, he⟩)⟩

end Prune

namespace BandwidthReservationRegistry

/-- The same reservations. -/
def Alike (reg reg' : BandwidthReservationRegistry) : Prop :=
  ∀ id t k, reservationAt reg id t k = reservationAt reg' id t k

theorem Alike.refl (reg : BandwidthReservationRegistry) : Alike reg reg := fun _ _ _ => rfl

variable {rates : Rates} {reg reg' : BandwidthReservationRegistry} {t : TenantID}
  {c : BandwidthReservation}

theorem Carries.of_alike (h : Carries rates reg) (halike : Alike reg reg') :
    Carries rates reg' :=
  fun id t k r hr => h id t k r ((halike id t k).trans hr)

theorem Alike.keysAt (h : Alike reg reg') (id : PCEEdgeID) (t : TenantID) :
    keysAt reg id t = keysAt reg' id t := by
  ext k
  rw [mem_keysAt, mem_keysAt, h id t k]

theorem Alike.edgeLoad (h : Alike reg reg') (rates : Rates) (id : PCEEdgeID) :
    edgeLoad rates reg id = edgeLoad rates reg' id := by
  rw [edgeLoad_eq_sum rates reg id Finset.subset_union_left,
    edgeLoad_eq_sum rates reg' id (T := tenantsAt reg id ∪ tenantsAt reg' id)
      Finset.subset_union_right]
  apply Finset.sum_congr rfl
  intro t _
  rw [h.keysAt id t]

theorem Carries.loadExcluding_eq_sum (h : Carries rates reg) (ord : RangeOrder)
    (hc : CarriesRates rates t c.key c) (id : PCEEdgeID) {T : Finset TenantID}
    (hT : tenantsAt reg id ⊆ T) :
    BandwidthReservationEdge.loadExcluding ord (reg.lookup id) t c.key (some c) =
      ∑ t' ∈ T.filter (fun t' => t' ≠ t), hoseLoad (rates t') (rates t') (keysAt reg id t') +
        hoseLoad (rates t) (rates t) (insert c.key (keysAt reg id t)) := by
  rw [h.loadExcluding_eq ord hc id]
  congr 1
  apply Finset.sum_subset (Finset.filter_subset_filter _ hT)
  intro t' ht' hnot
  have hnotMem : t' ∉ tenantsAt reg id := fun hmem =>
    hnot (Finset.mem_filter.mpr ⟨hmem, (Finset.mem_filter.mp ht').2⟩)
  rw [keysAt_eq_empty_of_notMem hnotMem, hoseLoad_empty]

theorem Carries.checkCapacity_congr (hreg : Carries rates reg) (hreg' : Carries rates reg')
    (hc : CarriesRates rates t c.key c) (ord ord' : RangeOrder) {e : PCEEdge}
    (hothers : ∀ t' ≠ t, keysAt reg e.id t' = keysAt reg' e.id t')
    (hown : insert c.key (keysAt reg e.id t) = insert c.key (keysAt reg' e.id t)) :
    reg.checkCapacity ord e t c = reg'.checkCapacity ord' e t c := by
  unfold BandwidthReservationRegistry.checkCapacity
  rw [hreg.loadExcluding_eq_sum ord hc e.id
      (T := tenantsAt reg e.id ∪ tenantsAt reg' e.id) Finset.subset_union_left,
    hreg'.loadExcluding_eq_sum ord' hc e.id
      (T := tenantsAt reg e.id ∪ tenantsAt reg' e.id) Finset.subset_union_right, hown]
  congr 3
  apply Finset.sum_congr rfl
  intro t' ht'
  rw [hothers t' (Finset.mem_filter.mp ht').2]

theorem Alike.checkCapacity (h : Alike reg reg') (hreg : Carries rates reg)
    (hreg' : Carries rates reg') (hc : CarriesRates rates t c.key c) (ord ord' : RangeOrder)
    (e : PCEEdge) : reg.checkCapacity ord e t c = reg'.checkCapacity ord' e t c :=
  hreg.checkCapacity_congr hreg' hc ord ord' (fun t' _ => h.keysAt e.id t')
    (by rw [h.keysAt e.id t])

theorem Carries.getD_reservedMap (h : Carries rates reg) (ord : RangeOrder) (id : PCEEdgeID) :
    (reg.reservedMap ord).getD id 0 = BandwidthReservationRegistry.edgeLoad rates reg id := by
  unfold reservedMap GoMap.getD
  rw [lookup_copyInto, lookup_empty, Option.or_none]
  cases hb : reg.lookup id with
  | none => simp [BandwidthReservationRegistry.edgeLoad, tenantsAt, hb]
  | some b => simp [h.loadAndCapacity_eq ord hb]

theorem Alike.move (h : Alike reg reg') {ord ord' : RangeOrder} {src : List PCEEdgeID}
    {dst : List PCEEdge} {reg₁ reg₁' : BandwidthReservationRegistry}
    (hm : reg.move ord src dst t c = .ok reg₁) (hm' : reg'.move ord' src dst t c = .ok reg₁') :
    Alike reg₁ reg₁' := by
  intro id t' k
  rw [reservationAt_move hm, reservationAt_move hm', h id t' k]

theorem move_of_room {ord : RangeOrder} {dst : List PCEEdge} (src : List PCEEdgeID)
    (hroom : ∀ e ∈ dst, reg.checkCapacity ord e t c = true) :
    reg.move ord src dst t c =
      .ok (dst.foldl (addAt t c) (src.foldl (removeAt t c.key) reg)) := by
  have hnone : dst.find? (fun e => !reg.checkCapacity ord e t c) = none := by
    rw [List.find?_eq_none]
    intro e he
    simp [hroom e he]
  rw [move, hnone]

end BandwidthReservationRegistry

end Maeto.ControlPlane
