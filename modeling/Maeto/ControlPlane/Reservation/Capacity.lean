import Maeto.ControlPlane.Reservation.Registry

/-!
# What a move keeps true of the registry

Two invariants of the registry are kept by every `move`.

`WellFormed` is about its shape: an edge is stored under its own identity, an
entry under its own tenant, and no map is left empty, so that an edge is in the
registry only when something is booked on it.

`Carries` and `WithinCapacity` are about its content. When every reservation
carries the rates of its pops, the load of an edge is a function of the keys
that are booked on it (`edgeLoad`), the load that `checkCapacity` computes for
a candidate is the load after the candidate is booked
(`loadExcluding_eq`), and taking a reservation away does not raise the load.
Hence no edge is booked above its bookable share.
-/

namespace Maeto.ControlPlane

open Foundation GoMap AList

namespace BandwidthReservationRegistry

/-- Everything is stored under its own key, and no map is empty. -/
structure WellFormed (reg : BandwidthReservationRegistry) : Prop where
  forEdge_id : ∀ id b, reg.lookup id = some b → b.forEdge.id = id
  bookings_ne : ∀ id b, reg.lookup id = some b → b.bookings.entries ≠ []
  entry_tenant : ∀ id b, reg.lookup id = some b →
    ∀ t e, b.bookings.lookup t = some e → e.tenant = t
  reservations_ne : ∀ id b, reg.lookup id = some b →
    ∀ t e, b.bookings.lookup t = some e → e.reservations.entries ≠ []

theorem wellFormed_empty : WellFormed ∅ := by
  constructor <;> · intro id b h; simp at h

variable {reg reg' : BandwidthReservationRegistry} {ord : RangeOrder} {src : List PCEEdgeID}
  {dst : List PCEEdge} {t : TenantID} {c : BandwidthReservation} {id : PCEEdgeID}
  {b : BandwidthReservationEdge}

theorem wellFormed_iff :
    WellFormed reg ↔ ∀ id b, reg.lookup id = some b →
      b.forEdge.id = id ∧ b.bookings.entries ≠ [] ∧
        ∀ t e, b.bookings.lookup t = some e → e.tenant = t ∧ e.reservations.entries ≠ [] := by
  constructor
  · intro h id b hb
    exact ⟨h.forEdge_id id b hb, h.bookings_ne id b hb, fun t e he =>
      ⟨h.entry_tenant id b hb t e he, h.reservations_ne id b hb t e he⟩⟩
  · intro h
    exact ⟨fun id b hb => (h id b hb).1, fun id b hb => (h id b hb).2.1,
      fun id b hb t e he => ((h id b hb).2.2 t e he).1,
      fun id b hb t e he => ((h id b hb).2.2 t e he).2⟩

theorem WellFormed.of_move
        (hm : move ord reg src dst t c = .ok reg') (h : WellFormed reg) : WellFormed reg' := by
  have hbooked : ∀ b : BandwidthReservationEdge,
      (∀ t e, b.bookings.lookup t = some e → e.tenant = t ∧ e.reservations.entries ≠ []) →
      (booked t c b).bookings.entries ≠ [] ∧ ∀ t' e, (booked t c b).bookings.lookup t' = some e →
        e.tenant = t' ∧ e.reservations.entries ≠ [] := by
    intro b hentries
    refine ⟨List.cons_ne_nil _ _, forall_lookup_insert hentries ⟨?_, List.cons_ne_nil _ _⟩⟩
    cases he : b.bookings.lookup t with
    | none => rfl
    | some e => exact (hentries t e he).1
  rw [wellFormed_iff] at h ⊢
  refine forall_lookup_move hm h ?_ ?_ ?_
  · rintro id b ⟨hid, -, hentries⟩ hne
    exact ⟨hid, hne, forall_lookup_release hentries fun e he hne => ⟨he.1, hne⟩⟩
  · rintro id b ⟨hid, -, hentries⟩
    exact ⟨hid, hbooked b hentries⟩
  · intro e _
    exact ⟨rfl, hbooked _ (forall_lookup_empty _)⟩

theorem WellFormed.exists_reservationAt (h : WellFormed reg)
    (hb : reg.lookup id = some b) : ∃ t k r, reservationAt reg id t k = some r := by
  obtain ⟨⟨t, e⟩, he⟩ := List.exists_mem_of_ne_nil _ (h.bookings_ne id b hb)
  have he' : b.bookings.lookup t = some e := mem_lookup_iff.mpr he
  obtain ⟨⟨k, r⟩, hr⟩ := List.exists_mem_of_ne_nil _ (h.reservations_ne id b hb t e he')
  refine ⟨t, k, r, ?_⟩
  rw [reservationAt_of_lookup hb he']
  exact mem_lookup_iff.mpr hr

abbrev Rates := TenantID → NodeID → Label → ℚ

/-- A reservation of tenant `t` is under its own key and carries the rates of its
two pops. -/
structure CarriesRates (rates : Rates) (t : TenantID) (k : BandwidthReservationKey)
    (r : BandwidthReservation) : Prop where
  key_eq : r.key = k
  source_eq : r.sourceBandwidth = rates t k.sourcePop k.label
  sink_eq : r.sinkBandwidth = rates t k.sinkPop k.label
  source_nonneg : 0 ≤ r.sourceBandwidth
  sink_nonneg : 0 ≤ r.sinkBandwidth

/-- Every reservation of the registry carries the rates of its pops. -/
def Carries (rates : Rates) (reg : BandwidthReservationRegistry) : Prop :=
  ∀ id t k r, reservationAt reg id t k = some r → CarriesRates rates t k r

theorem carries_empty (rates : Rates) : Carries rates ∅ := by
  intro id t k r h
  simp at h

variable {rates : Rates}

theorem Carries.of_move
        (hm : move ord reg src dst t c = .ok reg')
    (h : Carries rates reg) (hc : CarriesRates rates t c.key c) : Carries rates reg' := by
  intro id' t' k' r hr
  rw [reservationAt_move hm] at hr
  split_ifs at hr with hplace hdst
  · obtain ⟨rfl, rfl⟩ := hplace
    cases hr
    exact hc
  · exact h id' t' k' r hr
  · exact h id' t' k' r hr

def keysAt (reg : BandwidthReservationRegistry) (id : PCEEdgeID) (t : TenantID) :
    Finset BandwidthReservationKey :=
  (((reg.lookup id).bind fun b => b.bookings.lookup t).map
    BandwidthReservationTenantEntry.bookedKeys).getD ∅

def tenantsAt (reg : BandwidthReservationRegistry) (id : PCEEdgeID) : Finset TenantID :=
  ((reg.lookup id).map fun b => b.bookings.keys.toFinset).getD ∅

theorem mem_keysAt {k : BandwidthReservationKey} :
    k ∈ keysAt reg id t ↔ ∃ r, reservationAt reg id t k = some r := by
  unfold keysAt reservationAt
  cases reg.lookup id with
  | none => simp
  | some b =>
    rw [Option.bind_some, Option.bind_some]
    cases b.bookings.lookup t with
    | none => simp
    | some e => simp [BandwidthReservationTenantEntry.mem_bookedKeys]

theorem keysAt_eq_empty_of_notMem (h : t ∉ tenantsAt reg id) : keysAt reg id t = ∅ := by
  unfold tenantsAt at h
  unfold keysAt
  cases hb : reg.lookup id with
  | none => simp
  | some b =>
    rw [hb, Option.map_some, Option.getD_some, List.mem_toFinset, ← mem_keys,
      ← lookup_eq_none] at h
    simp [h]

def edgeLoad (rates : Rates) (reg : BandwidthReservationRegistry) (id : PCEEdgeID) : ℚ :=
  ∑ t ∈ tenantsAt reg id, hoseLoad (rates t) (rates t) (keysAt reg id t)

theorem edgeLoad_eq_sum (rates : Rates) (reg : BandwidthReservationRegistry) (id : PCEEdgeID)
    {T : Finset TenantID} (hT : tenantsAt reg id ⊆ T) :
    edgeLoad rates reg id = ∑ t ∈ T, hoseLoad (rates t) (rates t) (keysAt reg id t) := by
  apply Finset.sum_subset hT
  intro t _ ht
  rw [keysAt_eq_empty_of_notMem ht, hoseLoad_empty]

theorem Carries.agrees (h : Carries rates reg)
    (hb : reg.lookup id = some b) {e : BandwidthReservationTenantEntry}
    (he : b.bookings.lookup t = some e) : e.Agrees (rates t) (rates t) := by
  intro k r hr
  have hcarries := h id t k r (by rw [reservationAt_of_lookup hb he, hr])
  exact ⟨hcarries.key_eq, hcarries.source_eq, hcarries.sink_eq⟩

theorem Carries.calculate_eq (h : Carries rates reg) (ord : RangeOrder)
    (hb : reg.lookup id = some b) {e : BandwidthReservationTenantEntry}
    (he : b.bookings.lookup t = some e) :
    e.calculateReservedBandwidth ord = hoseLoad (rates t) (rates t) (keysAt reg id t) := by
  rw [BandwidthReservationTenantEntry.calculateReservedBandwidth_eq ord (h.agrees hb he), keysAt,
    hb, Option.bind_some, he, Option.map_some, Option.getD_some]

theorem Carries.sum_range_filter (h : Carries rates reg) (ord : RangeOrder)
    (hb : reg.lookup id = some b) (p : TenantID → Bool) :
    (((b.bookings.range ord).filter fun e => p e.1).map
        fun e => e.2.calculateReservedBandwidth ord).sum =
      ∑ t ∈ (tenantsAt reg id).filter fun t => p t,
        hoseLoad (rates t) (rates t) (keysAt reg id t) := by
  have hcalc : ∀ e ∈ (b.bookings.range ord).filter fun e => p e.1,
      e.2.calculateReservedBandwidth ord =
        hoseLoad (rates e.1) (rates e.1) (keysAt reg id e.1) := by
    intro e he
    have hlook := (mem_range ord _ _ _).mp (List.mem_filter.mp he).1
    exact h.calculate_eq ord hb hlook
  have hnodup : (((b.bookings.range ord).filter fun e => p e.1).map Prod.fst).Nodup :=
    (range_keys_nodup ord b.bookings).sublist (List.filter_sublist.map _)
  have hset : (((b.bookings.range ord).filter fun e => p e.1).map Prod.fst).toFinset =
      (tenantsAt reg id).filter fun t => p t := by
    ext t
    rw [List.mem_toFinset, List.mem_map, Finset.mem_filter, tenantsAt, hb, Option.map_some,
      Option.getD_some, List.mem_toFinset, ← mem_keys, mem_iff]
    constructor
    · rintro ⟨⟨t', e⟩, he, rfl⟩
      obtain ⟨hmem, hp⟩ := List.mem_filter.mp he
      exact ⟨⟨e, (mem_range ord _ _ _).mp hmem⟩, hp⟩
    · rintro ⟨⟨e, he⟩, hp⟩
      exact ⟨(t, e), List.mem_filter.mpr ⟨(mem_range ord _ _ _).mpr he, hp⟩, rfl⟩
  rw [List.map_congr_left hcalc, ← hset, List.sum_toFinset _ hnodup, List.map_map]
  rfl

theorem Carries.loadAndCapacity_eq (h : Carries rates reg) (ord : RangeOrder)
    (hb : reg.lookup id = some b) :
    b.loadAndCapacity ord = edgeLoad rates reg id := by
  have hsum := h.sum_range_filter ord hb fun _ => true
  simpa [BandwidthReservationEdge.loadAndCapacity, edgeLoad] using hsum

theorem lookup_rest (ord : RangeOrder) (entry : Option BandwidthReservationTenantEntry)
    (key : BandwidthReservationKey) (c : BandwidthReservation) (k : BandwidthReservationKey) :
    (BandwidthReservationEdge.rest ord entry key (some c)).lookup k =
      if k = key then some c else entry.bind fun e => e.reservations.lookup k := by
  unfold BandwidthReservationEdge.rest
  cases entry with
  | none => exact lookup_insert_eq ∅ key k c
  | some e =>
    simp only [lookup_copyInto, lookup_insert_eq, Option.bind_some]
    by_cases hk : k = key
    · cases e.reservations.lookup k <;> simp [hk]
    · cases e.reservations.lookup k <;> simp [hk]

section Candidate

variable {rates : Rates} {t : TenantID} {c : BandwidthReservation}

theorem calculate_rest_eq (ord : RangeOrder) (hc : CarriesRates rates t c.key c)
    (entry : Option BandwidthReservationTenantEntry)
    (hentry : ∀ e, entry = some e → e.Agrees (rates t) (rates t)) :
    BandwidthReservationTenantEntry.calculateReservedBandwidth ord
        ⟨t, BandwidthReservationEdge.rest ord entry c.key (some c)⟩ =
      hoseLoad (rates t) (rates t)
        (insert c.key ((entry.map BandwidthReservationTenantEntry.bookedKeys).getD ∅)) := by
  have hagrees : BandwidthReservationTenantEntry.Agrees (rates t) (rates t)
      ⟨t, BandwidthReservationEdge.rest ord entry c.key (some c)⟩ := by
    intro k r hr
    simp only [lookup_rest] at hr
    split_ifs at hr with hk
    · cases hr
      rw [hk]
      exact ⟨hc.key_eq, hc.source_eq, hc.sink_eq⟩
    · obtain ⟨e, he, hlook⟩ := Option.bind_eq_some_iff.mp hr
      exact hentry e he k r hlook
  rw [BandwidthReservationTenantEntry.calculateReservedBandwidth_eq ord hagrees]
  congr 1
  ext k
  rw [BandwidthReservationTenantEntry.mem_bookedKeys, Finset.mem_insert]
  simp only [lookup_rest]
  by_cases hk : k = c.key
  · simp [hk]
  · cases entry with
    | none => simp [hk]
    | some e => simp [hk, BandwidthReservationTenantEntry.mem_bookedKeys]

/-- The load that `checkCapacity` computes: the loads of the other tenants, and
that of the tenant with the candidate booked. -/
theorem Carries.loadExcluding_eq {reg : BandwidthReservationRegistry} (h : Carries rates reg)
    (ord : RangeOrder) (hc : CarriesRates rates t c.key c) (id : PCEEdgeID) :
    BandwidthReservationEdge.loadExcluding ord (reg.lookup id) t c.key (some c) =
      ∑ t' ∈ (tenantsAt reg id).filter (fun t' => t' ≠ t),
          hoseLoad (rates t') (rates t') (keysAt reg id t') +
        hoseLoad (rates t) (rates t) (insert c.key (keysAt reg id t)) := by
  cases hb : reg.lookup id with
  | none =>
    simp only [BandwidthReservationEdge.loadExcluding]
    rw [calculate_rest_eq ord hc none (by simp)]
    simp [tenantsAt, keysAt, hb]
  | some b =>
    simp only [BandwidthReservationEdge.loadExcluding, Rounding.add_exact, Rounding.sum_exact]
    rw [calculate_rest_eq ord hc _ fun e he => h.agrees hb he]
    have hsum := h.sum_range_filter ord hb fun t' => decide (t' ≠ t)
    simp only [decide_eq_true_eq] at hsum
    rw [hsum, keysAt, hb, Option.bind_some]

section Move

variable {ord : RangeOrder} {reg reg' : BandwidthReservationRegistry} {src : List PCEEdgeID}
  {dst : List PCEEdge} {id : PCEEdgeID}

theorem keysAt_move_of_mem (hm : move ord reg src dst t c = .ok reg')
    (hid : id ∈ dst.map PCEEdge.id) (t' : TenantID) :
    keysAt reg' id t' = if t' = t then insert c.key (keysAt reg id t') else keysAt reg id t' := by
  ext k
  rw [mem_keysAt, reservationAt_move hm]
  by_cases ht : t' = t
  · by_cases hk : k = c.key <;> simp [ht, hk, hid, mem_keysAt]
  · simp [ht, mem_keysAt]

theorem keysAt_move_subset (hm : move ord reg src dst t c = .ok reg')
    (hid : id ∉ dst.map PCEEdge.id) (t' : TenantID) : keysAt reg' id t' ⊆ keysAt reg id t' := by
  intro k
  rw [mem_keysAt, mem_keysAt, reservationAt_move hm]
  rintro ⟨r, hr⟩
  split_ifs at hr
  · exact ⟨r, hr⟩
  · exact ⟨r, hr⟩

/-- The load of an edge of the new path after the move is the load that was
checked before it. -/
theorem Carries.edgeLoad_move_of_mem (h : Carries rates reg)
    (hc : CarriesRates rates t c.key c) (hm : move ord reg src dst t c = .ok reg')
    (hid : id ∈ dst.map PCEEdge.id) :
    edgeLoad rates reg' id =
      BandwidthReservationEdge.loadExcluding ord (reg.lookup id) t c.key (some c) := by
  have hsub : tenantsAt reg' id ⊆ insert t (tenantsAt reg id ∪ tenantsAt reg' id) :=
    Finset.subset_union_right.trans (Finset.subset_insert _ _)
  rw [edgeLoad_eq_sum rates reg' id hsub,
    ← Finset.add_sum_erase _ _ (Finset.mem_insert_self t _), keysAt_move_of_mem hm hid,
    if_pos rfl, h.loadExcluding_eq ord hc id, add_comm]
  congr 1
  symm
  calc ∑ t' ∈ (tenantsAt reg id).filter (fun t' => t' ≠ t),
          hoseLoad (rates t') (rates t') (keysAt reg id t')
      = ∑ t' ∈ (insert t (tenantsAt reg id ∪ tenantsAt reg' id)).erase t,
          hoseLoad (rates t') (rates t') (keysAt reg id t') := by
        apply Finset.sum_subset
        · intro t' ht'
          obtain ⟨hmem, hne⟩ := Finset.mem_filter.mp ht'
          simp [hmem, hne]
        · intro t' ht' hnot
          have hne : t' ≠ t := Finset.ne_of_mem_erase ht'
          have hnotMem : t' ∉ tenantsAt reg id := fun hmem =>
            hnot (Finset.mem_filter.mpr ⟨hmem, hne⟩)
          rw [keysAt_eq_empty_of_notMem hnotMem, hoseLoad_empty]
    _ = ∑ t' ∈ (insert t (tenantsAt reg id ∪ tenantsAt reg' id)).erase t,
          hoseLoad (rates t') (rates t') (keysAt reg' id t') := by
        apply Finset.sum_congr rfl
        intro t' ht'
        rw [keysAt_move_of_mem hm hid, if_neg (Finset.ne_of_mem_erase ht')]

theorem Carries.edgeLoad_move_le (h : Carries rates reg) (hm : move ord reg src dst t c = .ok reg')
    (hid : id ∉ dst.map PCEEdge.id) : edgeLoad rates reg' id ≤ edgeLoad rates reg id := by
  have hsub : tenantsAt reg id ⊆ tenantsAt reg id ∪ tenantsAt reg' id :=
    Finset.subset_union_left
  rw [edgeLoad_eq_sum rates reg' id Finset.subset_union_right,
    edgeLoad_eq_sum rates reg id hsub]
  apply Finset.sum_le_sum
  intro t' _
  have hnonneg : ∀ k ∈ keysAt reg id t',
      0 ≤ rates t' k.sourcePop k.label ∧ 0 ≤ rates t' k.sinkPop k.label := by
    intro k hk
    obtain ⟨r, hr⟩ := mem_keysAt.mp hk
    have hcarries := h id t' k r hr
    exact ⟨hcarries.source_eq ▸ hcarries.source_nonneg, hcarries.sink_eq ▸ hcarries.sink_nonneg⟩
  exact hoseLoad_mono _ _ (keysAt_move_subset hm hid t') (fun k hk => (hnonneg k hk).1)
    fun k hk => (hnonneg k hk).2

end Move

end Candidate

def ForEdges (P : PCEEdge → Prop) (reg : BandwidthReservationRegistry) : Prop :=
  ∀ id b, reg.lookup id = some b → P b.forEdge

theorem forEdges_empty (P : PCEEdge → Prop) : ForEdges P ∅ := by
  intro id b h
  simp at h

theorem ForEdges.of_move {P : PCEEdge → Prop}
        (hm : move ord reg src dst t c = .ok reg')
    (h : ForEdges P reg) (hdst : ∀ e ∈ dst, P e) : ForEdges P reg' :=
  forall_lookup_move hm h (fun _ _ hb _ => hb) (fun _ _ hb => hb) hdst

def WithinCapacity (cap : PCEEdgeID → ℚ) (rates : Rates) (reg : BandwidthReservationRegistry) :
    Prop :=
  ∀ id b, reg.lookup id = some b → edgeLoad rates reg id ≤ cap id * (1 - capacityHeadroom)

theorem withinCapacity_empty (cap : PCEEdgeID → ℚ) (rates : Rates) :
    WithinCapacity cap rates ∅ := by
  intro id b h
  simp at h

theorem WithinCapacity.of_move {cap : PCEEdgeID → ℚ}
        (hm : move ord reg src dst t c = .ok reg')
    (h : WithinCapacity cap rates reg) (hwf : WellFormed reg) (hcarries : Carries rates reg)
    (hc : CarriesRates rates t c.key c) (hdst : ∀ e ∈ dst, e.capacity = cap e.id) :
    WithinCapacity cap rates reg' := by
  intro id b' hb'
  by_cases hid : id ∈ dst.map PCEEdge.id
  · obtain ⟨e, he, rfl⟩ := List.mem_map.mp hid
    have hchecked := of_decide_eq_true ((move_eq_ok hm).1 e he)
    rw [hcarries.edgeLoad_move_of_mem hc hm hid, ← hdst e he]
    exact hchecked
  · obtain ⟨t', k, r, hr⟩ := (hwf.of_move hm).exists_reservationAt hb'
    obtain ⟨r', hr'⟩ := mem_keysAt.mp (keysAt_move_subset hm hid t' (mem_keysAt.mpr ⟨r, hr⟩))
    obtain ⟨b, hb, -⟩ := Option.bind_eq_some_iff.mp hr'
    exact (hcarries.edgeLoad_move_le hm hid).trans (h id b hb)

end BandwidthReservationRegistry

end Maeto.ControlPlane
