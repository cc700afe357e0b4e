import Maeto.ControlPlane.Reservation.Registry
import Maeto.Foundation.InPlace

/-!
# A move on the registry in place

`moveInPlace` runs the three loops of `Move` on the registry itself, where an error ends the
run and leaves the registry as it is at that moment. It fails in the first loop only, which
does not change anything, so it is `move` with the registry kept on an error
(`exec_moveInPlace`). A move that succeeds changes the bookings of its tenant and key on the
two paths and nothing else, and it leaves no empty map behind.
-/

namespace Maeto.ControlPlane

open Foundation GoMap

namespace BandwidthReservationRegistry

abbrev RegistryM := InPlace BandwidthReservationRegistry String

def requireCapacity [Rounding] (ord : RangeOrder) (t : TenantID) (c : BandwidthReservation)
    (edge : PCEEdge) : RegistryM Unit := do
  let reg ← get
  if checkCapacity ord reg edge t c then pure ()
  else throw ("one of the edges cannot support capacity, edge: " ++ edge.id.toString)

def moveInPlace [Rounding] (ord : RangeOrder) (src : List PCEEdgeID) (dst : List PCEEdge)
    (t : TenantID) (c : BandwidthReservation) : RegistryM Unit := do
  dst.forM (requireCapacity ord t c)
  src.forM fun id => modify fun reg => removeAt t c.key reg id
  dst.forM fun edge => modify fun reg => addAt t c reg edge

section Runs

variable {ord : RangeOrder} {t : TenantID} {c : BandwidthReservation}
  {reg : BandwidthReservationRegistry}

def capacityCheck [Rounding] (ord : RangeOrder) (t : TenantID) (c : BandwidthReservation)
    (reg : BandwidthReservationRegistry) (edge : PCEEdge) : Except String Unit :=
  if checkCapacity ord reg edge t c then .ok ()
  else .error ("one of the edges cannot support capacity, edge: " ++ edge.id.toString)

theorem exec_requireCapacity (edge : PCEEdge) :
    (requireCapacity ord t c edge).exec reg = (capacityCheck ord t c reg edge, reg) := by
  unfold requireCapacity capacityCheck
  rw [InPlace.exec_bind_of_ok (InPlace.exec_get reg)]
  split_ifs with hroom
  · rfl
  · rfl

theorem forM_capacityCheck (dst : List PCEEdge) :
    dst.forM (capacityCheck ord t c reg) =
      match dst.find? fun e => !checkCapacity ord reg e t c with
      | some e => .error ("one of the edges cannot support capacity, edge: " ++ e.id.toString)
      | none => .ok () := by
  induction dst with
  | nil => rfl
  | cons e dst ih =>
    change (capacityCheck ord t c reg e >>= fun _ => dst.forM (capacityCheck ord t c reg)) = _
    rw [List.find?_cons]
    unfold capacityCheck
    cases hroom : checkCapacity ord reg e t c with
    | true => exact ih
    | false => rfl

/-- The registry after a move: changed by one that succeeds, and as it was after one that
fails. -/
theorem exec_moveInPlace (src : List PCEEdgeID) (dst : List PCEEdge) :
    (moveInPlace ord src dst t c).exec reg =
      match move ord reg src dst t c with
      | .ok reg' => (.ok (), reg')
      | .error err => (.error err, reg) := by
  have hchecks := InPlace.exec_forM_of_check (@exec_requireCapacity ord t c reg) dst
  rw [forM_capacityCheck] at hchecks
  unfold moveInPlace move
  cases hfind : dst.find? fun e => !checkCapacity ord reg e t c with
  | some e =>
    rw [hfind] at hchecks
    exact InPlace.exec_bind_of_error hchecks
  | none =>
    rw [hfind] at hchecks
    rw [InPlace.exec_bind_of_ok hchecks,
      InPlace.exec_bind_of_ok
        (InPlace.exec_forM_modify src (fun id reg => removeAt t c.key reg id) reg),
      InPlace.exec_forM_modify dst fun edge reg => addAt t c reg edge]

end Runs

section Effect

/-- No map of bookings and no map of reservations is empty. -/
def NoEmptyMaps (reg : BandwidthReservationRegistry) : Prop :=
  ∀ id b, reg.lookup id = some b → b.bookings.entries ≠ [] ∧
    ∀ t e, b.bookings.lookup t = some e → e.reservations.entries ≠ []

/-- What a move that succeeds has done to the bookings. -/
structure Moved (reg : BandwidthReservationRegistry) (src : List PCEEdgeID) (dst : List PCEEdge)
    (t : TenantID) (c : BandwidthReservation) (reg' : BandwidthReservationRegistry) : Prop where
  booked : ∀ e ∈ dst, reservationAt reg' e.id t c.key = some c
  released : ∀ id ∈ src, id ∉ dst.map PCEEdge.id → reservationAt reg' id t c.key = none
  others : ∀ id t' k, t' ≠ t ∨ k ≠ c.key → reservationAt reg' id t' k = reservationAt reg id t' k
  elsewhere : ∀ id, id ∉ src → id ∉ dst.map PCEEdge.id →
    reservationAt reg' id t c.key = reservationAt reg id t c.key
  noEmptyMaps : NoEmptyMaps reg'

variable {ord : RangeOrder} {reg reg' : BandwidthReservationRegistry} {src : List PCEEdgeID}
  {dst : List PCEEdge} {t : TenantID} {c : BandwidthReservation}

theorem NoEmptyMaps.booked {b : BandwidthReservationEdge}
    (h : ∀ t' e, b.bookings.lookup t' = some e → e.reservations.entries ≠ []) :
    (booked t c b).bookings.entries ≠ [] ∧
      ∀ t' e, (booked t c b).bookings.lookup t' = some e → e.reservations.entries ≠ [] := by
  constructor
  · exact List.cons_ne_nil _ _
  · exact forall_lookup_insert h (List.cons_ne_nil _ _)

theorem NoEmptyMaps.of_move (hm : move ord reg src dst t c = .ok reg') (h : NoEmptyMaps reg) :
    NoEmptyMaps reg' := by
  refine forall_lookup_move hm h ?_ ?_ ?_
  · rintro id b ⟨-, hentries⟩ hne
    exact ⟨hne, forall_lookup_release hentries fun e _ hne => hne⟩
  · rintro id b ⟨-, hentries⟩
    exact NoEmptyMaps.booked hentries
  · intro e _
    exact NoEmptyMaps.booked (forall_lookup_empty _)

theorem moved_of_move (hm : move ord reg src dst t c = .ok reg') (h : NoEmptyMaps reg) :
    Moved reg src dst t c reg' where
  booked := by
    intro e he
    rw [reservationAt_move hm, if_pos ⟨rfl, rfl⟩, if_pos (List.mem_map_of_mem he)]
  released := by
    intro id hsrc hdst
    rw [reservationAt_move hm, if_pos ⟨rfl, rfl⟩, if_neg hdst, if_pos hsrc]
  others := by
    intro id t' k hother
    rw [reservationAt_move hm, if_neg fun hsame => hother.elim (· hsame.1) (· hsame.2)]
  elsewhere := by
    intro id hsrc hdst
    rw [reservationAt_move hm, if_pos ⟨rfl, rfl⟩, if_neg hdst, if_neg hsrc]
  noEmptyMaps := h.of_move hm

/-- A move is made as a whole or not at all, and it touches nothing else. -/
theorem moveInPlace_allOrNothing (ord : RangeOrder) (src : List PCEEdgeID) (dst : List PCEEdge)
    (t : TenantID) (c : BandwidthReservation) (h : NoEmptyMaps reg) :
    match (moveInPlace ord src dst t c).exec reg with
    | (.error _, reg') => reg' = reg
    | (.ok (), reg') => Moved reg src dst t c reg' := by
  rw [exec_moveInPlace]
  cases hm : move ord reg src dst t c with
  | error err => rfl
  | ok reg' => exact moved_of_move hm h

def wireAB (id : EdgeID) : PCEEdge :=
  .ofLink
    { id, localNode := "A", remote := "B", localIface := "", remoteIface := "", bandwidth := 100,
      delay := 0, up := true, endX := .invalid }

def voiceAB : BandwidthReservation :=
  { key := { sourcePop := "A", sinkPop := "B", label := 1 }
    sourceBandwidth := 30
    sinkBandwidth := 30 }

def bookedOnX : BandwidthReservationRegistry := addAt 1 voiceAB ∅ (wireAB "x")

theorem noEmptyMaps_bookedOnX : NoEmptyMaps bookedOnX := by
  refine forall_lookup_singleton ?_
  exact NoEmptyMaps.booked (forall_lookup_empty _)

/-- The booking moves from `x` to `y`. -/
theorem moveInPlace_x_to_y :
    NoEmptyMaps bookedOnX ∧ ∃ reg',
      (moveInPlace .listed [(wireAB "x").id] [wireAB "y"] 1 voiceAB).exec bookedOnX =
        (.ok (), reg') ∧ Moved bookedOnX [(wireAB "x").id] [wireAB "y"] 1 voiceAB reg' := by
  have hok : ((moveInPlace .listed [(wireAB "x").id] [wireAB "y"] 1 voiceAB).exec
      bookedOnX).1.isOk = true := by decide +kernel
  have hmoved := moveInPlace_allOrNothing .listed [(wireAB "x").id] [wireAB "y"] 1 voiceAB
    noEmptyMaps_bookedOnX
  refine ⟨noEmptyMaps_bookedOnX, ?_⟩
  generalize (moveInPlace .listed [(wireAB "x").id] [wireAB "y"] 1 voiceAB).exec bookedOnX = out
    at hok hmoved ⊢
  obtain ⟨res, reg'⟩ := out
  cases res with
  | error err => cases hok
  | ok u => exact ⟨reg', rfl, hmoved⟩

end Effect

end BandwidthReservationRegistry

end Maeto.ControlPlane
