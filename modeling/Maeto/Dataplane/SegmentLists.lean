import Maeto.Dataplane.Reconcile
import Maeto.Foundation.Spelling

/-!
# The identity of an SR route

The key of an SR route ends with the texts of its segments, one after the other and with nothing
between them. An address can be written as the beginning of another one, so two different segment
lists may be written alike, and then the two routes have one key: the reconciler takes the one
for the other (`srRoute_discriminated_iff`). The texts of addresses that end in the run that is
abbreviated are never the beginning of one another, so lists of these are told apart.
-/

namespace Maeto.Dataplane

open Foundation Netip Resource

/-- The prefixes are different and both are invalid: the text of an invalid prefix is always the
same. -/
def Confusable (p q : Prefix) : Prop := p ≠ q ∧ p.isValid = false ∧ q.isValid = false

theorem text_of_not_isValid {p : Prefix} (h : p.isValid = false) :
    p.text = "invalid Prefix".toList := by
  unfold Prefix.isValid at h
  unfold Prefix.text
  cases hbits : p.bits with
  | none => rfl
  | some b =>
    rw [hbits] at h
    cases h

theorem keyBody_srRoute_iff (s s' : SRRoute) :
    (Resource.srRoute s).keyBody = (Resource.srRoute s').keyBody ↔
      s.table = s'.table ∧ (s.routePrefix = s'.routePrefix ∨
        Confusable s.routePrefix s'.routePrefix) ∧
      s.segments.flatMap Addr.text = s'.segments.flatMap Addr.text := by
  constructor
  · intro h
    cases hp : s.routePrefix.isValid with
    | true =>
      obtain ⟨htable, hroute, hsegments⟩ := keyBody_srRoute hp h
      exact ⟨htable, Or.inl hroute, hsegments⟩
    | false =>
      cases hq : s'.routePrefix.isValid with
      | true =>
        obtain ⟨htable, hroute, hsegments⟩ := keyBody_srRoute hq h.symm
        exact ⟨htable.symm, Or.inl hroute.symm, hsegments.symm⟩
      | false =>
        obtain ⟨htable, hrest⟩ := Text.of_decimal_dot h
        rw [text_of_not_isValid hp, text_of_not_isValid hq] at hrest
        refine ⟨htable, ?_, ?_⟩
        · by_cases heq : s.routePrefix = s'.routePrefix
          · exact Or.inl heq
          · exact Or.inr ⟨heq, hp, hq⟩
        · exact (List.cons.inj (List.append_cancel_left hrest)).2
  · rintro ⟨htable, hroute, hsegments⟩
    have htext : s.routePrefix.text = s'.routePrefix.text := by
      rcases hroute with heq | ⟨-, hp, hq⟩
      · rw [heq]
      · rw [text_of_not_isValid hp, text_of_not_isValid hq]
    change Text.decimal s.table ++ '.' ::
        (s.routePrefix.text ++ '.' :: s.segments.flatMap Addr.text) =
      Text.decimal s'.table ++ '.' ::
        (s'.routePrefix.text ++ '.' :: s'.segments.flatMap Addr.text)
    rw [htable, htext, hsegments]

theorem key_srRoute_iff (s s' : SRRoute) :
    (Resource.srRoute s).key = (Resource.srRoute s').key ↔
      s.table = s'.table ∧ (s.routePrefix = s'.routePrefix ∨
        Confusable s.routePrefix s'.routePrefix) ∧
      (s.segments = s'.segments ∨ CutElsewhere Addr.text s.segments s'.segments) := by
  rw [key_eq_iff, keyBody_srRoute_iff, flatMap_eq_iff Addr.text_ne_nil]
  exact and_iff_right rfl

/-- The key of an SR route tells two of them apart, unless they are of one table and their prefixes
are different invalid ones, or their segments are one text cut at different places. -/
theorem srRoute_discriminated_iff (s s' : SRRoute) :
    ((Resource.srRoute s).key = (Resource.srRoute s').key →
      s.table = s'.table ∧ s.routePrefix = s'.routePrefix ∧ s.segments = s'.segments) ↔
    ¬ (s.table = s'.table ∧
      ((s.routePrefix = s'.routePrefix ∧ CutElsewhere Addr.text s.segments s'.segments) ∨
        (Confusable s.routePrefix s'.routePrefix ∧
          (s.segments = s'.segments ∨ CutElsewhere Addr.text s.segments s'.segments)))) := by
  rw [key_srRoute_iff]
  constructor
  · rintro h ⟨htable, ⟨hroute, hcut⟩ | ⟨hroute, hsegments⟩⟩
    · exact hcut.ne (h ⟨htable, Or.inl hroute, Or.inr hcut⟩).2.2
    · exact hroute.1 (h ⟨htable, Or.inr hroute, hsegments⟩).2.1
  · rintro h ⟨htable, hroute | hroute, hsegments⟩
    · rcases hsegments with hsegments | hcut
      · exact ⟨htable, hroute, hsegments⟩
      · exact absurd ⟨htable, Or.inl ⟨hroute, hcut⟩⟩ h
    · exact absurd ⟨htable, Or.inr ⟨hroute, hsegments⟩⟩ h

theorem eq_of_key_of_endsInRun {s s' : SRRoute} (hroute : s.routePrefix.isValid = true)
    (hs : ∀ a ∈ s.segments, a.endsInRun = true) (hs' : ∀ a ∈ s'.segments, a.endsInRun = true)
    (h : (Resource.srRoute s).key = (Resource.srRoute s').key) :
    s.table = s'.table ∧ s.routePrefix = s'.routePrefix ∧ s.segments = s'.segments := by
  obtain ⟨htable, hroute' | hroute', hsegments⟩ := (key_srRoute_iff s s').mp h
  · refine ⟨htable, hroute', hsegments.resolve_right ?_⟩
    exact not_cutElsewhere (fun a b ha hb hab => Addr.eq_of_text_prefix ha hb hab) hs hs'
  · rw [hroute'.2.1] at hroute
    cases hroute

def routeOver (segments : List Addr) : SRRoute := ⟨Prefix.default6, segments, 300, 0⟩

/-- The segments `::1`, `2::` and `::12`, `::` are written alike, and nothing is changed when the
ones are wanted and the others are there. -/
theorem segments_written_alike :
    let curr := routeOver [.v6 1, .v6 (2 <<< 112)]
    let desired := routeOver [.v6 0x12, .v6 0]
    (Resource.srRoute curr).key = (Resource.srRoute desired).key ∧
      curr.segments ≠ desired.segments ∧
      (diff .listed (storeAll [.srRoute curr]) (storeAll [.srRoute desired])).add = [] ∧
      (diff .listed (storeAll [.srRoute curr]) (storeAll [.srRoute desired])).remove = [] := by
  decide +kernel

end Maeto.Dataplane
