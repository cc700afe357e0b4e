import Mathlib.Algebra.Order.BigOperators.Group.Finset

/-!
# The source-sink hose load

A flow leaves a source, enters a sink and belongs to a class. A source and a
class have a rate at which the source can send in that class, and a sink and a
class have a rate at which the sink can receive. The hose load of a finite set
of flows counts every source and every sink of a class once, whatever the
number of flows that share it, and takes for each class the smaller of the two
sums.

The load does not see the flows one by one, so it grows with the set of flows
but adding a flow may leave it unchanged. It covers every assignment of traffic to
the flows that keeps to the rates (`sum_le_load`). The functions `label`, `source` and
`sink` that read a flow are parameters, and so is the ordered monoid of rates.
-/

namespace Foundation

namespace Hose

variable {F ι κ Λ M : Type*} [DecidableEq ι] [DecidableEq κ] [DecidableEq Λ]
  [AddCommMonoid M]

def endpointSum (label : F → Λ) (endpoint : F → ι) (rate : ι → Λ → M)
    (S : Finset F) (l : Λ) : M :=
  ∑ i ∈ (S.filter fun f => label f = l).image endpoint, rate i l

def load [LinearOrder M] (label : F → Λ) (source : F → ι) (sink : F → κ)
    (out : ι → Λ → M) (into : κ → Λ → M) (S : Finset F) : M :=
  ∑ l ∈ S.image label,
    min (endpointSum label source out S l) (endpointSum label sink into S l)

@[simp] theorem load_empty [LinearOrder M] (label : F → Λ) (source : F → ι)
    (sink : F → κ) (out : ι → Λ → M) (into : κ → Λ → M) :
    load label source sink out into ∅ = 0 := by
  simp [load]

section Monotone

variable [LinearOrder M] [IsOrderedAddMonoid M]

theorem endpointSum_nonneg (label : F → Λ) (endpoint : F → ι) (rate : ι → Λ → M)
    (S : Finset F) (l : Λ) (h : ∀ f ∈ S, 0 ≤ rate (endpoint f) (label f)) :
    0 ≤ endpointSum label endpoint rate S l := by
  apply Finset.sum_nonneg
  intro i hi
  obtain ⟨f, hf, rfl⟩ := Finset.mem_image.mp hi
  obtain ⟨hfS, rfl⟩ := Finset.mem_filter.mp hf
  exact h f hfS

theorem endpointSum_mono (label : F → Λ) (endpoint : F → ι) (rate : ι → Λ → M)
    {S T : Finset F} (hST : S ⊆ T) (l : Λ)
    (h : ∀ f ∈ T, 0 ≤ rate (endpoint f) (label f)) :
    endpointSum label endpoint rate S l ≤ endpointSum label endpoint rate T l := by
  apply Finset.sum_le_sum_of_subset_of_nonneg
  · exact Finset.image_subset_image (Finset.filter_subset_filter _ hST)
  · intro i hi _
    obtain ⟨f, hf, rfl⟩ := Finset.mem_image.mp hi
    obtain ⟨hfT, rfl⟩ := Finset.mem_filter.mp hf
    exact h f hfT

theorem load_mono (label : F → Λ) (source : F → ι) (sink : F → κ)
    (out : ι → Λ → M) (into : κ → Λ → M) {S T : Finset F} (hST : S ⊆ T)
    (hout : ∀ f ∈ T, 0 ≤ out (source f) (label f))
    (hinto : ∀ f ∈ T, 0 ≤ into (sink f) (label f)) :
    load label source sink out into S ≤ load label source sink out into T := by
  calc load label source sink out into S
      ≤ ∑ l ∈ S.image label,
          min (endpointSum label source out T l) (endpointSum label sink into T l) := by
        apply Finset.sum_le_sum
        intro l _
        exact min_le_min (endpointSum_mono label source out hST l hout)
          (endpointSum_mono label sink into hST l hinto)
    _ ≤ load label source sink out into T := by
        apply Finset.sum_le_sum_of_subset_of_nonneg (Finset.image_subset_image hST)
        intro l _ _
        exact le_min (endpointSum_nonneg label source out T l hout)
          (endpointSum_nonneg label sink into T l hinto)

/-- Traffic of one class that no endpoint exceeds its rate with is at most the sum of the
rates. -/
theorem sum_le_endpointSum (label : F → Λ) (endpoint : F → ι) (rate : ι → Λ → M)
    (S : Finset F) (t : F → M) (l : Λ)
    (h : ∀ i, (∃ f ∈ S, endpoint f = i ∧ label f = l) →
      ∑ f ∈ S with endpoint f = i ∧ label f = l, t f ≤ rate i l) :
    ∑ f ∈ S with label f = l, t f ≤ endpointSum label endpoint rate S l := by
  calc ∑ f ∈ S with label f = l, t f
      = ∑ i ∈ (S.filter fun f => label f = l).image endpoint,
          ∑ f ∈ (S.filter fun f => label f = l) with endpoint f = i, t f :=
        (Finset.sum_fiberwise_of_maps_to (fun f hf => Finset.mem_image_of_mem endpoint hf) t).symm
    _ ≤ endpointSum label endpoint rate S l := by
        apply Finset.sum_le_sum
        intro i hi
        obtain ⟨f, hf, rfl⟩ := Finset.mem_image.mp hi
        obtain ⟨hfS, hl⟩ := Finset.mem_filter.mp hf
        have hbound := h (endpoint f) ⟨f, hfS, rfl, hl⟩
        simpa only [Finset.filter_filter, and_comm] using hbound

/-- The load covers all traffic in which no source sends and no sink receives more than
its rate. -/
theorem sum_le_load (label : F → Λ) (source : F → ι) (sink : F → κ) (out : ι → Λ → M)
    (into : κ → Λ → M) (S : Finset F) (t : F → M)
    (hout : ∀ i l, (∃ f ∈ S, source f = i ∧ label f = l) →
      ∑ f ∈ S with source f = i ∧ label f = l, t f ≤ out i l)
    (hinto : ∀ i l, (∃ f ∈ S, sink f = i ∧ label f = l) →
      ∑ f ∈ S with sink f = i ∧ label f = l, t f ≤ into i l) :
    ∑ f ∈ S, t f ≤ load label source sink out into S := by
  calc ∑ f ∈ S, t f
      = ∑ l ∈ S.image label, ∑ f ∈ S with label f = l, t f :=
        (Finset.sum_fiberwise_of_maps_to (fun f hf => Finset.mem_image_of_mem label hf) t).symm
    _ ≤ load label source sink out into S := by
        apply Finset.sum_le_sum
        intro l _
        exact le_min (sum_le_endpointSum label source out S t l fun i => hout i l)
          (sum_le_endpointSum label sink into S t l fun i => hinto i l)

end Monotone

end Hose

end Foundation
