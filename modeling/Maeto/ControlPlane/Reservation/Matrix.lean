import Maeto.ControlPlane.Reservation.Load

/-!
# The traffic that reserved bandwidth covers

The reservations of an entry are consistent when those that share a source pop and a
class name the same source bandwidth, and those that share a sink pop and a class the
same sink bandwidth. They then carry the rates of their pops (`Consistent.exists_rates`),
and what `CalculateReservedBandwidth` returns is the hose load of their keys: it does not
depend on the order of the loop, it does not fall when a reservation is added, and it
covers every traffic matrix over the keys in which no pop sends or receives more than its
bandwidth (`reservedBandwidth_covers`).
-/

namespace Maeto.ControlPlane

open Foundation GoMap

namespace BandwidthReservationTenantEntry

/-- The reservations agree on the bandwidths of the pops they share, and no bandwidth is
negative. -/
structure Consistent (e : BandwidthReservationTenantEntry) : Prop where
  source : ∀ k r k' r', e.reservations.lookup k = some r → e.reservations.lookup k' = some r' →
    r.key.sourcePop = r'.key.sourcePop → r.key.label = r'.key.label →
      r.sourceBandwidth = r'.sourceBandwidth
  sink : ∀ k r k' r', e.reservations.lookup k = some r → e.reservations.lookup k' = some r' →
    r.key.sinkPop = r'.key.sinkPop → r.key.label = r'.key.label →
      r.sinkBandwidth = r'.sinkBandwidth
  nonneg : ∀ k r, e.reservations.lookup k = some r → 0 ≤ r.sourceBandwidth ∧ 0 ≤ r.sinkBandwidth

theorem exists_rate {α ι : Type*} (S : α → Prop) (read : α → ι) (value : α → ℚ)
    (h : ∀ a b, S a → S b → read a = read b → value a = value b) :
    ∃ rate : ι → ℚ, ∀ a, S a → value a = rate (read a) := by
  classical
  refine ⟨fun i => if hi : ∃ a, S a ∧ read a = i then value hi.choose else 0, ?_⟩
  intro a ha
  have hi : ∃ b, S b ∧ read b = read a := ⟨a, ha, rfl⟩
  dsimp only
  rw [dif_pos hi]
  exact h a _ ha hi.choose_spec.1 hi.choose_spec.2.symm

variable {e : BandwidthReservationTenantEntry}

theorem Consistent.exists_rates (h : e.Consistent) :
    ∃ out into : NodeID → Label → ℚ, ∀ k r, e.reservations.lookup k = some r →
      r.sourceBandwidth = out r.key.sourcePop r.key.label ∧
        r.sinkBandwidth = into r.key.sinkPop r.key.label := by
  obtain ⟨out, hout⟩ := exists_rate (fun r => ∃ k, e.reservations.lookup k = some r)
    (fun r => (r.key.sourcePop, r.key.label)) BandwidthReservation.sourceBandwidth
    fun r r' ⟨k, hr⟩ ⟨k', hr'⟩ hread =>
      h.source k r k' r' hr hr' (congrArg Prod.fst hread) (congrArg Prod.snd hread)
  obtain ⟨into, hinto⟩ := exists_rate (fun r => ∃ k, e.reservations.lookup k = some r)
    (fun r => (r.key.sinkPop, r.key.label)) BandwidthReservation.sinkBandwidth
    fun r r' ⟨k, hr⟩ ⟨k', hr'⟩ hread =>
      h.sink k r k' r' hr hr' (congrArg Prod.fst hread) (congrArg Prod.snd hread)
  exact ⟨fun p l => out (p, l), fun p l => into (p, l),
    fun k r hr => ⟨hout r ⟨k, hr⟩, hinto r ⟨k, hr⟩⟩⟩

theorem ratesOf_range {out into : NodeID → Label → ℚ} (h : ∀ k r, e.reservations.lookup k = some r →
      r.sourceBandwidth = out r.key.sourcePop r.key.label ∧
        r.sinkBandwidth = into r.key.sinkPop r.key.label) (ord : RangeOrder) :
    RatesOf out into ((e.reservations.range ord).map Prod.snd) := by
  intro r hr
  obtain ⟨⟨k, r'⟩, hmem, rfl⟩ := List.mem_map.mp hr
  exact h k r' ((mem_range ord _ _ _).mp hmem)

def book (e : BandwidthReservationTenantEntry) (k : BandwidthReservationKey)
    (r : BandwidthReservation) : BandwidthReservationTenantEntry :=
  { e with reservations := e.reservations.insert k r }

theorem lookup_book {k : BandwidthReservationKey}
    (hk : k ∉ e.reservations) (r : BandwidthReservation) {k' : BandwidthReservationKey}
    {r' : BandwidthReservation} (h : e.reservations.lookup k' = some r') :
    (e.book k r).reservations.lookup k' = some r' := by
  have hne : k' ≠ k := by
    rintro rfl
    exact hk (mem_iff.mpr ⟨r', h⟩)
  exact (AList.lookup_insert_ne hne).trans h

theorem calculateReservedBandwidth_book
    {k : BandwidthReservationKey} (hk : k ∉ e.reservations) {r : BandwidthReservation}
    (h : (e.book k r).Consistent) (ord : RangeOrder) :
    e.calculateReservedBandwidth ord ≤ (e.book k r).calculateReservedBandwidth ord := by
  obtain ⟨out, into, hrates⟩ := h.exists_rates
  have hold : ∀ k' r', e.reservations.lookup k' = some r' →
      r'.sourceBandwidth = out r'.key.sourcePop r'.key.label ∧
        r'.sinkBandwidth = into r'.key.sinkPop r'.key.label :=
    fun k' r' hr' => hrates k' r' (lookup_book hk r hr')
  rw [calculateReservedBandwidth_of_rates ord (ratesOf_range hold ord),
    calculateReservedBandwidth_of_rates ord (ratesOf_range hrates ord)]
  apply hoseLoad_mono
  · intro key hkey
    obtain ⟨k', r', hr', rfl⟩ := mem_carriedKeys.mp hkey
    exact mem_carriedKeys.mpr ⟨k', r', lookup_book hk r hr', rfl⟩
  · intro key hkey
    obtain ⟨k', r', hr', rfl⟩ := mem_carriedKeys.mp hkey
    rw [← (hrates k' r' hr').1]
    exact (h.nonneg k' r' hr').1
  · intro key hkey
    obtain ⟨k', r', hr', rfl⟩ := mem_carriedKeys.mp hkey
    rw [← (hrates k' r' hr').2]
    exact (h.nonneg k' r' hr').2

structure Carries (e : BandwidthReservationTenantEntry) (t : BandwidthReservationKey → ℚ) :
    Prop where
  nonneg : ∀ k ∈ e.carriedKeys, 0 ≤ t k
  source : ∀ k r, e.reservations.lookup k = some r →
    ∑ k' ∈ e.carriedKeys with k'.sourcePop = r.key.sourcePop ∧ k'.label = r.key.label, t k' ≤
      r.sourceBandwidth
  sink : ∀ k r, e.reservations.lookup k = some r →
    ∑ k' ∈ e.carriedKeys with k'.sinkPop = r.key.sinkPop ∧ k'.label = r.key.label, t k' ≤
      r.sinkBandwidth

theorem Carries.sum_le (h : e.Consistent)
    {t : BandwidthReservationKey → ℚ} (ht : e.Carries t) (ord : RangeOrder) :
    ∑ k ∈ e.carriedKeys, t k ≤ e.calculateReservedBandwidth ord := by
  obtain ⟨out, into, hrates⟩ := h.exists_rates
  rw [calculateReservedBandwidth_of_rates ord (ratesOf_range hrates ord)]
  apply Hose.sum_le_load
  · rintro pop label ⟨key, hkey, rfl, rfl⟩
    obtain ⟨k, r, hr, rfl⟩ := mem_carriedKeys.mp hkey
    rw [← (hrates k r hr).1]
    exact ht.source k r hr
  · rintro pop label ⟨key, hkey, rfl, rfl⟩
    obtain ⟨k, r, hr, rfl⟩ := mem_carriedKeys.mp hkey
    rw [← (hrates k r hr).2]
    exact ht.sink k r hr

/-- The bandwidth of consistent reservations is the same for every order of the loops, does
not fall when a reservation is added, and covers every traffic matrix. -/
theorem reservedBandwidth_covers (e : BandwidthReservationTenantEntry) (h : e.Consistent) :
    (∀ ord ord', e.calculateReservedBandwidth ord = e.calculateReservedBandwidth ord') ∧
      (∀ ord k r, k ∉ e.reservations → (e.book k r).Consistent →
        e.calculateReservedBandwidth ord ≤ (e.book k r).calculateReservedBandwidth ord) ∧
      ∀ ord t, e.Carries t → ∑ k ∈ e.carriedKeys, t k ≤ e.calculateReservedBandwidth ord := by
  refine ⟨?_, ?_, ?_⟩
  · intro ord ord'
    obtain ⟨out, into, hrates⟩ := h.exists_rates
    rw [calculateReservedBandwidth_of_rates ord (ratesOf_range hrates ord),
      calculateReservedBandwidth_of_rates ord' (ratesOf_range hrates ord')]
  · intro ord k r hk hbook
    exact calculateReservedBandwidth_book hk hbook ord
  · intro ord t ht
    exact ht.sum_le h ord

def sharedSource : BandwidthReservationTenantEntry where
  tenant := 1
  reservations :=
    ((∅ : GoMap BandwidthReservationKey BandwidthReservation).insert ⟨"A", "B", 0⟩
      ⟨⟨"A", "B", 0⟩, 10, 20⟩).insert ⟨"A", "C", 0⟩ ⟨⟨"A", "C", 0⟩, 10, 20⟩

theorem sharedSource_covers :
    sharedSource.Consistent ∧
      ∀ ord t, sharedSource.Carries t →
        ∑ k ∈ sharedSource.carriedKeys, t k ≤ sharedSource.calculateReservedBandwidth ord := by
  have hlookup : ∀ k r, sharedSource.reservations.lookup k = some r →
      r.key.sourcePop = "A" ∧ r.sourceBandwidth = 10 ∧ r.sinkBandwidth = 20 := by
    intro k r hr
    simp only [sharedSource, lookup_insert_eq, AList.lookup_empty] at hr
    split_ifs at hr <;> cases hr <;> exact ⟨rfl, rfl, rfl⟩
  have hconsistent : sharedSource.Consistent := by
    constructor
    · intro k r k' r' hr hr' _ _
      rw [(hlookup k r hr).2.1, (hlookup k' r' hr').2.1]
    · intro k r k' r' hr hr' _ _
      rw [(hlookup k r hr).2.2, (hlookup k' r' hr').2.2]
    · intro k r hr
      rw [(hlookup k r hr).2.1, (hlookup k r hr).2.2]
      decide
  exact ⟨hconsistent, (reservedBandwidth_covers sharedSource hconsistent).2.2⟩

end BandwidthReservationTenantEntry

end Maeto.ControlPlane
