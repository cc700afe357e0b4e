import Maeto.ControlPlane.Reservation.Load

/-!
# The bandwidth reservation registry

`move` releases the reservation of a key from one path and books it on another,
after checking that every edge of the new path has room for it. The check
counts the candidate in the place of the reservation that the key may already
hold on the edge, so that rebooking is not counted twice.

The registry is read through `reservationAt`, which says what is booked on an
edge for a tenant and a key. The two rounds of `move` change it at one place
each (`reservationAt_removeAt`, `reservationAt_addAt`), and what a successful
`move` does follows for whole paths (`reservationAt_move`).
-/

namespace Maeto.ControlPlane

open Foundation GoMap AList

def capacityHeadroom : ℚ := 1 / 20

namespace BandwidthReservationEdge

def loadAndCapacity [Rounding] (ord : RangeOrder) (b : BandwidthReservationEdge) : ℚ :=
  Rounding.sum ((b.bookings.range ord).map fun e => e.2.calculateReservedBandwidth ord)

def rest (ord : RangeOrder) (entry : Option BandwidthReservationTenantEntry)
    (key : BandwidthReservationKey) (candidate : Option BandwidthReservation) :
    GoMap BandwidthReservationKey BandwidthReservation :=
  let start : GoMap BandwidthReservationKey BandwidthReservation :=
    match candidate with
    | none => ∅
    | some r => (∅ : GoMap BandwidthReservationKey BandwidthReservation).insert key r
  match entry with
  | none => start
  | some e => e.reservations.copyInto ord (fun k r => if k ≠ key then some r else none) start

def loadExcluding [Rounding] (ord : RangeOrder) (b : Option BandwidthReservationEdge)
    (tenantID : TenantID) (key : BandwidthReservationKey) (candidate : Option BandwidthReservation)
    : ℚ :=
  match b with
  | none =>
    BandwidthReservationTenantEntry.calculateReservedBandwidth ord
      ⟨tenantID, rest ord none key candidate⟩
  | some b =>
    Rounding.add
      (Rounding.sum (((b.bookings.range ord).filter fun e => e.1 ≠ tenantID).map
        fun e => e.2.calculateReservedBandwidth ord))
      (BandwidthReservationTenantEntry.calculateReservedBandwidth ord
        ⟨tenantID, rest ord (b.bookings.lookup tenantID) key candidate⟩)

end BandwidthReservationEdge

namespace BandwidthReservationRegistry

def reservedMap [Rounding] (ord : RangeOrder) (reg : BandwidthReservationRegistry) :
    GoMap PCEEdgeID ℚ :=
  reg.copyInto ord (fun _ b => some (b.loadAndCapacity ord)) ∅

def checkCapacity [Rounding] (ord : RangeOrder) (reg : BandwidthReservationRegistry)
    (edge : PCEEdge) (tenantID : TenantID) (candidate : BandwidthReservation) : Bool :=
  decide (BandwidthReservationEdge.loadExcluding ord (reg.lookup edge.id) tenantID candidate.key
    (some candidate) ≤ Rounding.round (edge.capacity * Rounding.round (1 - capacityHeadroom)))

def pruneGraph [Rounding] (ord : RangeOrder) (reg : BandwidthReservationRegistry) (g : PCEGraph)
    (tenantID : TenantID) (candidate : BandwidthReservation) : PCEGraph :=
  let edges : GoMap PCEEdgeID PCEEdge := g.edges.copyInto ord
    (fun _ e => if checkCapacity ord reg e tenantID candidate then some e else none) ∅
  { nodes := g.nodes
    edges := edges
    adj := g.adj.copyInto ord
      (fun _ ids =>
        let kept := ids.filter fun id => decide (id ∈ edges)
        if 0 < kept.length then some kept else none)
      ∅ }

def release (tenantID : TenantID) (key : BandwidthReservationKey)
    (bookings : GoMap TenantID BandwidthReservationTenantEntry) :
    GoMap TenantID BandwidthReservationTenantEntry :=
  match bookings.lookup tenantID with
  | none => bookings
  | some e =>
    if (e.reservations.erase key).entries = [] then bookings.erase tenantID
    else bookings.insert tenantID { e with reservations := e.reservations.erase key }

def removeAt (tenantID : TenantID) (key : BandwidthReservationKey)
    (reg : BandwidthReservationRegistry) (edgeID : PCEEdgeID) : BandwidthReservationRegistry :=
  match reg.lookup edgeID with
  | none => reg
  | some b =>
    if (release tenantID key b.bookings).entries = [] then reg.erase edgeID
    else reg.insert edgeID { b with bookings := release tenantID key b.bookings }

def addAt (tenantID : TenantID) (candidate : BandwidthReservation)
    (reg : BandwidthReservationRegistry) (edge : PCEEdge) : BandwidthReservationRegistry :=
  let b : BandwidthReservationEdge := (reg.lookup edge.id).getD ⟨edge, ∅⟩
  let e : BandwidthReservationTenantEntry := (b.bookings.lookup tenantID).getD ⟨tenantID, ∅⟩
  reg.insert edge.id
    { b with
      bookings := b.bookings.insert tenantID
        { e with reservations := e.reservations.insert candidate.key candidate } }

def move [Rounding] (ord : RangeOrder) (reg : BandwidthReservationRegistry) (src : List PCEEdgeID)
    (dst : List PCEEdge) (tenantID : TenantID) (candidate : BandwidthReservation) :
    Except String BandwidthReservationRegistry :=
  match dst.find? fun e => !checkCapacity ord reg e tenantID candidate with
  | some e => .error ("one of the edges cannot support capacity, edge: " ++ e.id.toString)
  | none => .ok (dst.foldl (addAt tenantID candidate)
      (src.foldl (removeAt tenantID candidate.key) reg))

def reservationAt (reg : BandwidthReservationRegistry) (id : PCEEdgeID) (t : TenantID)
    (k : BandwidthReservationKey) : Option BandwidthReservation :=
  (reg.lookup id).bind fun b => (b.bookings.lookup t).bind fun e => e.reservations.lookup k

@[simp] theorem reservationAt_empty (id : PCEEdgeID) (t : TenantID) (k : BandwidthReservationKey) :
    reservationAt (∅ : BandwidthReservationRegistry) id t k = none := by
  simp [reservationAt]

variable {reg : BandwidthReservationRegistry} {t : TenantID}

theorem reservationAt_of_lookup {id : PCEEdgeID}
    {b : BandwidthReservationEdge} {e : BandwidthReservationTenantEntry}
    (hb : reg.lookup id = some b) (he : b.bookings.lookup t = some e)
    (k : BandwidthReservationKey) : reservationAt reg id t k = e.reservations.lookup k := by
  simp [reservationAt, hb, he]

section View

variable (t : TenantID) (reg : BandwidthReservationRegistry)

theorem lookup_release (key : BandwidthReservationKey)
    (bookings : GoMap TenantID BandwidthReservationTenantEntry) (t' : TenantID)
    (k' : BandwidthReservationKey) :
    (((release t key bookings).lookup t').bind fun e => e.reservations.lookup k') =
      if t' = t ∧ k' = key then none
      else (bookings.lookup t').bind fun e => e.reservations.lookup k' := by
  unfold release
  cases he : bookings.lookup t with
  | none =>
    by_cases h : t' = t ∧ k' = key
    · rw [if_pos h, h.1]
      simp [he]
    · simp [h]
  | some e =>
    simp only
    by_cases ht : t' = t
    · subst ht
      simp only [he, Option.bind_some, true_and]
      by_cases hempty : (e.reservations.erase key).entries = []
      · have hnone := (entries_eq_nil_iff _).mp hempty k'
        rw [lookup_erase_eq] at hnone
        rw [if_pos hempty, lookup_erase]
        exact hnone.symm
      · rw [if_neg hempty, lookup_insert]
        exact lookup_erase_eq _ _ _
    · have hne : ¬ (t' = t ∧ k' = key) := fun h => ht h.1
      rw [if_neg hne]
      by_cases hempty : (e.reservations.erase key).entries = []
      · rw [if_pos hempty, lookup_erase_ne ht]
      · rw [if_neg hempty, lookup_insert_ne ht]

theorem reservationAt_removeAt (key : BandwidthReservationKey) (id id' : PCEEdgeID)
    (t' : TenantID) (k' : BandwidthReservationKey) :
    reservationAt (removeAt t key reg id) id' t' k' =
      if id' = id ∧ t' = t ∧ k' = key then none else reservationAt reg id' t' k' := by
  unfold removeAt
  cases hb : reg.lookup id with
  | none =>
    by_cases h : id' = id ∧ t' = t ∧ k' = key
    · rw [if_pos h, h.1, reservationAt, hb]
      rfl
    · rw [if_neg h]
  | some b =>
    simp only
    by_cases hid : id' = id
    · subst hid
      have hview := lookup_release t key b.bookings t' k'
      simp only [true_and]
      rw [reservationAt, reservationAt, hb, Option.bind_some, ← hview]
      by_cases hempty : (release t key b.bookings).entries = []
      · rw [if_pos hempty, lookup_erase, (entries_eq_nil_iff _).mp hempty t']
        rfl
      · rw [if_neg hempty, lookup_insert]
        rfl
    · have hne : ¬ (id' = id ∧ t' = t ∧ k' = key) := fun h => hid h.1
      rw [if_neg hne]
      by_cases hempty : (release t key b.bookings).entries = []
      · simp [hempty, reservationAt, lookup_erase_ne hid]
      · simp [hempty, reservationAt, lookup_insert_ne hid]

theorem reservationAt_addAt (candidate : BandwidthReservation) (edge : PCEEdge)
    (id' : PCEEdgeID) (t' : TenantID) (k' : BandwidthReservationKey) :
    reservationAt (addAt t candidate reg edge) id' t' k' =
      if id' = edge.id ∧ t' = t ∧ k' = candidate.key then some candidate
      else reservationAt reg id' t' k' := by
  by_cases hid : id' = edge.id
  · subst hid
    by_cases ht : t' = t
    · subst ht
      simp only [addAt, reservationAt, lookup_insert, Option.bind_some, true_and,
        lookup_insert_eq]
      by_cases hk : k' = candidate.key
      · simp [hk]
      · rw [if_neg hk, if_neg hk]
        cases hb : reg.lookup edge.id with
        | none => simp
        | some b => cases he : b.bookings.lookup t' <;> simp [he]
    · have hne : ¬ (edge.id = edge.id ∧ t' = t ∧ k' = candidate.key) := fun h => ht h.2.1
      rw [if_neg hne]
      simp only [addAt, reservationAt, lookup_insert, Option.bind_some,
        lookup_insert_ne ht]
      cases hb : reg.lookup edge.id <;> simp
  · rw [if_neg fun h => hid h.1]
    simp only [addAt, reservationAt, lookup_insert_ne hid]

theorem reservationAt_foldl_removeAt (key : BandwidthReservationKey) (src : List PCEEdgeID)
    (id' : PCEEdgeID) (t' : TenantID) (k' : BandwidthReservationKey) :
    reservationAt (src.foldl (removeAt t key) reg) id' t' k' =
      if id' ∈ src ∧ t' = t ∧ k' = key then none else reservationAt reg id' t' k' := by
  induction src generalizing reg with
  | nil => simp
  | cons id src ih =>
    rw [List.foldl_cons, ih, reservationAt_removeAt]
    by_cases hplace : t' = t ∧ k' = key
    · by_cases hid : id' = id <;> by_cases hmem : id' ∈ src <;> simp [hplace, hid, hmem]
    · simp [hplace]

theorem reservationAt_foldl_addAt (candidate : BandwidthReservation) (dst : List PCEEdge)
    (id' : PCEEdgeID) (t' : TenantID) (k' : BandwidthReservationKey) :
    reservationAt (dst.foldl (addAt t candidate) reg) id' t' k' =
      if id' ∈ dst.map PCEEdge.id ∧ t' = t ∧ k' = candidate.key then some candidate
      else reservationAt reg id' t' k' := by
  induction dst generalizing reg with
  | nil => simp
  | cons e dst ih =>
    rw [List.foldl_cons, ih, reservationAt_addAt, List.map_cons]
    by_cases hplace : t' = t ∧ k' = candidate.key
    · by_cases hid : id' = e.id <;> by_cases hmem : id' ∈ dst.map PCEEdge.id <;>
        simp [hplace, hid, hmem]
    · simp [hplace]

end View

theorem move_eq_ok {ord : RangeOrder} {reg' : BandwidthReservationRegistry}
    {src : List PCEEdgeID} {dst : List PCEEdge} {c : BandwidthReservation}
    (h : move ord reg src dst t c = .ok reg') :
    (∀ e ∈ dst, checkCapacity ord reg e t c = true) ∧
      reg' = dst.foldl (addAt t c) (src.foldl (removeAt t c.key) reg) := by
  unfold move at h
  split at h
  · cases h
  · rename_i hnone
    refine ⟨?_, (Except.ok.inj h).symm⟩
    intro e he
    have := List.find?_eq_none.mp hnone e he
    simpa using this

theorem reservationAt_move {ord : RangeOrder} {reg' : BandwidthReservationRegistry}
    {src : List PCEEdgeID} {dst : List PCEEdge} {c : BandwidthReservation}
    (h : move ord reg src dst t c = .ok reg') (id' : PCEEdgeID) (t' : TenantID)
    (k' : BandwidthReservationKey) :
    reservationAt reg' id' t' k' =
      if t' = t ∧ k' = c.key then
        if id' ∈ dst.map PCEEdge.id then some c
        else if id' ∈ src then none else reservationAt reg id' t' k'
      else reservationAt reg id' t' k' := by
  obtain ⟨-, rfl⟩ := move_eq_ok h
  rw [reservationAt_foldl_addAt, reservationAt_foldl_removeAt]
  by_cases hplace : t' = t ∧ k' = c.key
  · simp only [hplace, and_self, and_true, if_true]
  · simp [hplace]

section Entries

variable {t : TenantID} {reg reg' : BandwidthReservationRegistry}

/-- What holds of the entries of an edge holds after a release if it holds of the entry that
lost its reservation. -/
theorem forall_lookup_release {P : TenantID → BandwidthReservationTenantEntry → Prop}
    {key : BandwidthReservationKey} {bookings : GoMap TenantID BandwidthReservationTenantEntry}
    (h : ∀ t' e, bookings.lookup t' = some e → P t' e)
    (hreleased : ∀ e, P t e → (e.reservations.erase key).entries ≠ [] →
      P t { e with reservations := e.reservations.erase key }) :
    ∀ t' e, (release t key bookings).lookup t' = some e → P t' e := by
  unfold release
  cases he : bookings.lookup t with
  | none => exact h
  | some e =>
    dsimp only
    split_ifs with hlast
    · exact forall_lookup_erase h t
    · exact forall_lookup_insert h (hreleased e (h t e he) hlast)

def booked (t : TenantID) (c : BandwidthReservation) (b : BandwidthReservationEdge) :
    BandwidthReservationEdge :=
  let e := (b.bookings.lookup t).getD ⟨t, ∅⟩
  { b with
    bookings := b.bookings.insert t { e with reservations := e.reservations.insert c.key c } }

theorem addAt_eq (t : TenantID) (c : BandwidthReservation) (reg : BandwidthReservationRegistry)
    (edge : PCEEdge) :
    addAt t c reg edge = reg.insert edge.id (booked t c ((reg.lookup edge.id).getD ⟨edge, ∅⟩)) :=
  rfl

/-- What holds of the edges of a registry holds after a move, if it is kept when a reservation
goes and when one comes, and holds of an edge that is new. -/
theorem forall_lookup_move {P : PCEEdgeID → BandwidthReservationEdge → Prop} {ord : RangeOrder}
    {src : List PCEEdgeID} {dst : List PCEEdge} {c : BandwidthReservation}
    (hm : move ord reg src dst t c = .ok reg') (h : ∀ id b, reg.lookup id = some b → P id b)
    (hreleased : ∀ id b, P id b → (release t c.key b.bookings).entries ≠ [] →
      P id { b with bookings := release t c.key b.bookings })
    (hbooked : ∀ id b, P id b → P id (booked t c b))
    (hnew : ∀ e ∈ dst, P e.id (booked t c ⟨e, ∅⟩)) :
    ∀ id b, reg'.lookup id = some b → P id b := by
  obtain ⟨-, rfl⟩ := move_eq_ok hm
  clear hm
  have hremoved : ∀ id b, (src.foldl (removeAt t c.key) reg).lookup id = some b → P id b := by
    induction src generalizing reg with
    | nil => exact h
    | cons id src ih =>
      apply ih
      unfold removeAt
      cases hb : reg.lookup id with
      | none => exact h
      | some b =>
        dsimp only
        split_ifs with hempty
        · exact forall_lookup_erase h id
        · exact forall_lookup_insert h (hreleased id b (h id b hb) hempty)
  generalize src.foldl (removeAt t c.key) reg = reg₁ at hremoved
  induction dst generalizing reg₁ with
  | nil => exact hremoved
  | cons e dst ih =>
    refine ih (fun e' he' => hnew e' (List.mem_cons_of_mem e he')) _ ?_
    rw [addAt_eq]
    refine forall_lookup_insert hremoved ?_
    cases hb : reg₁.lookup e.id with
    | none => exact hnew e List.mem_cons_self
    | some b => exact hbooked e.id b (hremoved e.id b hb)

end Entries

end BandwidthReservationRegistry

end Maeto.ControlPlane
