import Maeto.ControlPlane.Demand
import Maeto.Foundation.Hose

/-!
# The reserved bandwidth of an edge

The registry keeps, for every edge, the reservations of every tenant. The
bandwidth a tenant holds on an edge is the hose load of its reservations: a
source pop and a sink pop count once per class, however many reservations use
them. The source finds it in one loop over the reservations that remembers the
pops it has seen.

When the reservations of an entry carry the rates of their pops (`Agrees`), the
loop returns the hose load of the set of reservation keys, so its value depends
neither on the iteration order nor on the reservation a pop was first seen in
(`calculateReservedBandwidth_eq`).
-/

namespace Maeto.ControlPlane

open Foundation GoMap AList

structure BandwidthReservationTenantEntry where
  tenant : TenantID
  reservations : GoMap BandwidthReservationKey BandwidthReservation

structure BandwidthReservationEdge where
  forEdge : PCEEdge
  bookings : GoMap TenantID BandwidthReservationTenantEntry

abbrev BandwidthReservationRegistry := GoMap PCEEdgeID BandwidthReservationEdge

structure OnceSums where
  seen : Finset (NodeID × Label)
  sums : GoMap Label ℚ

namespace OnceSums

def empty : OnceSums := ⟨∅, ∅⟩

def add [Rounding] (s : OnceSums) (pop : NodeID) (label : Label) (rate : ℚ) : OnceSums :=
  if (pop, label) ∈ s.seen then s
  else ⟨insert (pop, label) s.seen, s.sums.insert label (Rounding.add (s.sums.getD label 0) rate)⟩

structure Counts (rate : NodeID → Label → ℚ) (s : OnceSums) : Prop where
  sum_eq : ∀ l, s.sums.getD l 0 = ∑ x ∈ s.seen.filter (fun x => x.2 = l), rate x.1 l
  mem_iff : ∀ l, l ∈ s.sums ↔ l ∈ s.seen.image Prod.snd

theorem counts_empty (rate : NodeID → Label → ℚ) : Counts rate empty where
  sum_eq := fun l => by simp [empty, getD_empty]
  mem_iff := fun l => by simp [empty]

@[simp] theorem add_seen (s : OnceSums) (pop : NodeID) (label : Label) (rate : ℚ) :
    (s.add pop label rate).seen = insert (pop, label) s.seen := by
  unfold add
  split_ifs with h
  · rw [Finset.insert_eq_of_mem h]
  · rfl

theorem Counts.add {rate : NodeID → Label → ℚ} {s : OnceSums} (h : Counts rate s)
    (pop : NodeID) (label : Label) : Counts rate (s.add pop label (rate pop label)) := by
  unfold OnceSums.add
  split_ifs with hseen
  · exact h
  · constructor
    · intro l
      rw [getD_insert, Finset.filter_insert]
      by_cases hl : l = label
      · subst hl
        rw [if_pos rfl, if_pos rfl, Finset.sum_insert, h.sum_eq, Rounding.add_exact, add_comm]
        intro hmem
        exact hseen (Finset.mem_filter.mp hmem).1
      · rw [if_neg hl, if_neg (Ne.symm hl), h.sum_eq]
    · intro l
      rw [mem_insert, h.mem_iff, Finset.image_insert, Finset.mem_insert]

end OnceSums

namespace BandwidthReservationTenantEntry

def sumRound [Rounding] (s : OnceSums × OnceSums) (r : BandwidthReservation) : OnceSums × OnceSums
    :=
  (s.1.add r.key.sourcePop r.key.label r.sourceBandwidth,
    s.2.add r.key.sinkPop r.key.label r.sinkBandwidth)

def getBandwidthSums [Rounding] (ord : RangeOrder) (e : BandwidthReservationTenantEntry) :
    GoMap Label ℚ × GoMap Label ℚ :=
  let s := ((e.reservations.range ord).map Prod.snd).foldl sumRound (OnceSums.empty, OnceSums.empty)
  (s.1.sums, s.2.sums)

def calculateReservedBandwidth [Rounding] (ord : RangeOrder) (e : BandwidthReservationTenantEntry) :
    ℚ :=
  let sums := e.getBandwidthSums ord
  Rounding.sum ((sums.1.range ord).map fun l => min (sums.1.getD l.1 0) (sums.2.getD l.1 0))

def bookedKeys (e : BandwidthReservationTenantEntry) : Finset BandwidthReservationKey :=
  e.reservations.keys.toFinset

theorem mem_bookedKeys {e : BandwidthReservationTenantEntry} {k : BandwidthReservationKey} :
    k ∈ e.bookedKeys ↔ ∃ r, e.reservations.lookup k = some r := by
  rw [bookedKeys, List.mem_toFinset, ← mem_keys, mem_iff]

def carriedKeys (e : BandwidthReservationTenantEntry) : Finset BandwidthReservationKey :=
  (e.reservations.entries.map fun r => r.2.key).toFinset

theorem mem_carriedKeys {e : BandwidthReservationTenantEntry} {k : BandwidthReservationKey} :
    k ∈ e.carriedKeys ↔ ∃ k' r, e.reservations.lookup k' = some r ∧ r.key = k := by
  rw [carriedKeys, List.mem_toFinset, List.mem_map]
  constructor
  · rintro ⟨⟨k', r⟩, hr, rfl⟩
    exact ⟨k', r, mem_lookup_iff.mpr hr, rfl⟩
  · rintro ⟨k', r, hr, rfl⟩
    exact ⟨⟨k', r⟩, mem_lookup_iff.mp hr, rfl⟩

def Agrees (out into : NodeID → Label → ℚ) (e : BandwidthReservationTenantEntry) : Prop :=
  ∀ k r, e.reservations.lookup k = some r →
    r.key = k ∧ r.sourceBandwidth = out k.sourcePop k.label ∧
      r.sinkBandwidth = into k.sinkPop k.label

end BandwidthReservationTenantEntry

def hoseLoad (out into : NodeID → Label → ℚ) (S : Finset BandwidthReservationKey) : ℚ :=
  Hose.load BandwidthReservationKey.label BandwidthReservationKey.sourcePop
    BandwidthReservationKey.sinkPop out into S

@[simp] theorem hoseLoad_empty (out into : NodeID → Label → ℚ) : hoseLoad out into ∅ = 0 :=
  Hose.load_empty _ _ _ _ _

theorem hoseLoad_mono (out into : NodeID → Label → ℚ) {S T : Finset BandwidthReservationKey}
    (hST : S ⊆ T) (hout : ∀ k ∈ T, 0 ≤ out k.sourcePop k.label)
    (hinto : ∀ k ∈ T, 0 ≤ into k.sinkPop k.label) :
    hoseLoad out into S ≤ hoseLoad out into T :=
  Hose.load_mono _ _ _ _ _ hST hout hinto

section Fold

variable {out into : NodeID → Label → ℚ}

def RatesOf (out into : NodeID → Label → ℚ) (rs : List BandwidthReservation) : Prop :=
  ∀ r ∈ rs, r.sourceBandwidth = out r.key.sourcePop r.key.label ∧
    r.sinkBandwidth = into r.key.sinkPop r.key.label

theorem foldl_sumRound_counts (rs : List BandwidthReservation) (h : RatesOf out into rs)
    (s : OnceSums × OnceSums) (hs : OnceSums.Counts out s.1 ∧ OnceSums.Counts into s.2) :
    OnceSums.Counts out (rs.foldl BandwidthReservationTenantEntry.sumRound s).1 ∧
      OnceSums.Counts into (rs.foldl BandwidthReservationTenantEntry.sumRound s).2 := by
  induction rs generalizing s with
  | nil => exact hs
  | cons r rs ih =>
    have hr := h r (by simp)
    rw [List.foldl_cons]
    apply ih (fun r' hr' => h r' (by simp [hr']))
    rw [BandwidthReservationTenantEntry.sumRound, hr.1, hr.2]
    exact ⟨hs.1.add _ _, hs.2.add _ _⟩

theorem foldl_sumRound_seen (rs : List BandwidthReservation) (s : OnceSums × OnceSums) :
    (rs.foldl BandwidthReservationTenantEntry.sumRound s).1.seen =
        s.1.seen ∪ (rs.map fun r => (r.key.sourcePop, r.key.label)).toFinset ∧
      (rs.foldl BandwidthReservationTenantEntry.sumRound s).2.seen =
        s.2.seen ∪ (rs.map fun r => (r.key.sinkPop, r.key.label)).toFinset := by
  induction rs generalizing s with
  | nil => simp
  | cons r rs ih =>
    rw [List.foldl_cons, (ih _).1, (ih _).2]
    simp only [BandwidthReservationTenantEntry.sumRound, OnceSums.add_seen, List.map_cons,
      List.toFinset_cons, Finset.insert_union, Finset.union_insert, and_self]

end Fold

/-- The pops seen in a class, with the class dropped again, are the endpoints of
the keys of that class. -/
theorem sum_seen_eq_endpointSum (endpoint : BandwidthReservationKey → NodeID)
    (rate : NodeID → Label → ℚ) (S : Finset BandwidthReservationKey) (l : Label) :
    (∑ x ∈ (S.image fun k => (endpoint k, k.label)).filter (fun x => x.2 = l), rate x.1 l) =
      Hose.endpointSum BandwidthReservationKey.label endpoint rate S l := by
  have himage : (S.image fun k => (endpoint k, k.label)).filter (fun x => x.2 = l) =
      ((S.filter fun k => k.label = l).image endpoint).image fun p => (p, l) := by
    ext ⟨p, l'⟩
    simp only [Finset.mem_filter, Finset.mem_image, Prod.mk.injEq]
    constructor
    · rintro ⟨⟨k, hk, rfl, rfl⟩, rfl⟩
      exact ⟨endpoint k, ⟨k, ⟨hk, rfl⟩, rfl⟩, rfl, rfl⟩
    · rintro ⟨_, ⟨k, ⟨hk, hl⟩, rfl⟩, rfl, rfl⟩
      exact ⟨⟨k, hk, rfl, hl⟩, rfl⟩
  rw [himage, Finset.sum_image]
  · rfl
  · intro p _ q _ hpq
    exact (Prod.mk.inj hpq).1

namespace BandwidthReservationTenantEntry

variable {out into : NodeID → Label → ℚ}

theorem toFinset_visitedKeys (ord : RangeOrder) (e : BandwidthReservationTenantEntry) :
    ((e.reservations.range ord).map fun kr => kr.2.key).toFinset = e.carriedKeys := by
  have hperm := (range_perm ord e.reservations).map fun kr => kr.2.key
  rw [List.toFinset_eq_of_perm _ _ hperm, List.map_map]
  rfl

variable {e : BandwidthReservationTenantEntry}

/-- The sums by class are those of the sources and of the sinks of the keys, and every
class with a reservation has one. -/
theorem getBandwidthSums_eq (ord : RangeOrder)
    (hrates : RatesOf out into ((e.reservations.range ord).map Prod.snd)) :
    (∀ l, (e.getBandwidthSums ord).1.getD l 0 = Hose.endpointSum BandwidthReservationKey.label
        BandwidthReservationKey.sourcePop out e.carriedKeys l) ∧
      (∀ l, (e.getBandwidthSums ord).2.getD l 0 = Hose.endpointSum BandwidthReservationKey.label
        BandwidthReservationKey.sinkPop into e.carriedKeys l) ∧
      ∀ l, l ∈ (e.getBandwidthSums ord).1 ↔
        l ∈ e.carriedKeys.image BandwidthReservationKey.label := by
  have hcounts := foldl_sumRound_counts _ hrates (OnceSums.empty, OnceSums.empty)
    ⟨OnceSums.counts_empty out, OnceSums.counts_empty into⟩
  have hseen := foldl_sumRound_seen ((e.reservations.range ord).map Prod.snd)
    (OnceSums.empty, OnceSums.empty)
  have hseenImage : ∀ endpoint : BandwidthReservationKey → NodeID,
      (((e.reservations.range ord).map Prod.snd).map
        fun r => (endpoint r.key, r.key.label)).toFinset =
        e.carriedKeys.image fun k => (endpoint k, k.label) := by
    intro endpoint
    rw [← e.toFinset_visitedKeys ord]
    ext x
    simp only [List.mem_toFinset, List.mem_map, Finset.mem_image, exists_exists_and_eq_and]
  simp only [OnceSums.empty, Finset.empty_union, hseenImage] at hcounts hseen
  refine ⟨?_, ?_, ?_⟩
  · intro l
    exact (hcounts.1.sum_eq l).trans (by rw [hseen.1, sum_seen_eq_endpointSum])
  · intro l
    exact (hcounts.2.sum_eq l).trans (by rw [hseen.2, sum_seen_eq_endpointSum])
  · intro l
    exact (hcounts.1.mem_iff l).trans (by rw [hseen.1, Finset.image_image]; rfl)

/-- The loop over reservations that carry the rates of their pops returns the hose load
of their keys. -/
theorem calculateReservedBandwidth_of_rates (ord : RangeOrder)
    (hrates : RatesOf out into ((e.reservations.range ord).map Prod.snd)) :
    e.calculateReservedBandwidth ord = hoseLoad out into e.carriedKeys := by
  obtain ⟨hsource, hsink, hmem⟩ := getBandwidthSums_eq ord hrates
  unfold calculateReservedBandwidth
  generalize e.getBandwidthSums ord = sums at hsource hsink hmem
  have hlabels : ((sums.1.range ord).map Prod.fst).toFinset =
      e.carriedKeys.image BandwidthReservationKey.label := by
    ext l
    rw [← hmem, List.mem_toFinset, mem_range_keys]
  dsimp only
  rw [Rounding.sum_exact]
  calc ((sums.1.range ord).map fun l => min (sums.1.getD l.1 0) (sums.2.getD l.1 0)).sum
      = (((sums.1.range ord).map Prod.fst).map
          fun l => min (sums.1.getD l 0) (sums.2.getD l 0)).sum := by
        rw [List.map_map]
        rfl
    _ = ∑ l ∈ ((sums.1.range ord).map Prod.fst).toFinset,
          min (sums.1.getD l 0) (sums.2.getD l 0) :=
        (List.sum_toFinset _ (range_keys_nodup ord sums.1)).symm
    _ = hoseLoad out into e.carriedKeys := by
        simp only [hlabels, hsource, hsink]
        rfl

theorem Agrees.carriedKeys_eq (h : e.Agrees out into) :
    e.carriedKeys = e.bookedKeys := by
  ext k
  rw [mem_carriedKeys, mem_bookedKeys]
  constructor
  · rintro ⟨k', r, hr, rfl⟩
    exact ⟨r, by rw [(h k' r hr).1, hr]⟩
  · rintro ⟨r, hr⟩
    exact ⟨k, r, hr, (h k r hr).1⟩

theorem calculateReservedBandwidth_eq (ord : RangeOrder) (h : e.Agrees out into) :
    e.calculateReservedBandwidth ord = hoseLoad out into e.bookedKeys := by
  rw [← h.carriedKeys_eq]
  apply calculateReservedBandwidth_of_rates
  intro r hr
  obtain ⟨⟨k, r'⟩, hmem, rfl⟩ := List.mem_map.mp hr
  obtain ⟨hk, hrates⟩ := h k r' ((mem_range ord _ _ _).mp hmem)
  rw [hk]
  exact hrates

end BandwidthReservationTenantEntry

end Maeto.ControlPlane
