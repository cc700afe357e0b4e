import Mathlib.Tactic.Linarith
import Maeto.ControlPlane.DemandOrder
import Maeto.ControlPlane.TenantLoad

/-!
# What the loader promises

Labels, names, indexes and codepoints of classes are not used twice, and neither are the
ids, portals, identities and interfaces of tenants and sites. The split of a site is
accepted exactly when its amounts are positive and exceed the reservation by no more than
the tolerance.
-/

namespace Maeto.ControlPlane

open Foundation Netip GoMap Result

/-! ### Classes -/

section Classes

variable {ords : LoadOrders} {raw : List RawTrafficClass} {maps maps' : ClassMaps}
  {rc : RawTrafficClass}

structure ClassOfRow (rc : RawTrafficClass) (c : TrafficClass) : Prop where
  name : c.name = rc.name
  label : c.label = rc.label
  index : c.index = rc.index
  dscp : c.dscp.Perm rc.dscp
  weighed : ∀ dim w, c.objective.lookup dim = some w →
    ∃ text, rc.objective.lookup text = some w ∧ parseCostDimension text = some dim
  weighs : ∀ text w, rc.objective.lookup text = some w →
    ∃ dim w', parseCostDimension text = some dim ∧ c.objective.lookup dim = some w'

/-- A class that is accepted: what it takes was free. -/
structure ClassMaps.Accepts (maps : ClassMaps) (rc : RawTrafficClass) (c : TrafficClass) : Prop
    extends ClassOfRow rc c where
  name_free : maps.byName.lookup c.name = none
  label_free : maps.byLabel.lookup c.label = none
  index_pos : 1 ≤ c.index
  index_free : maps.byIndex.lookup c.index = none
  dscp_sorted : c.dscp.Pairwise (· < ·)
  dscp_range : ∀ value ∈ c.dscp, 0 ≤ value ∧ value ≤ dscpMax

structure ClassMaps.Takes (maps : ClassMaps) (c : TrafficClass) (byDSCP : GoMap ℤ String) :
    Prop where
  taken : ∀ value ∈ c.dscp, byDSCP.lookup value = some c.name
  kept : ∀ value owner, maps.byDSCP.lookup value = some owner → byDSCP.lookup value = some owner

variable {name : String} {byDSCP : GoMap ℤ String}

theorem addCodepoint_eq_ok {state state' : List ℤ × GoMap ℤ String} {value : ℤ}
    (h : addCodepoint name state value = .ok state') :
    (0 ≤ value ∧ value ≤ dscpMax) ∧ state.2.lookup value = none ∧
      state' = (state.1 ++ [value], state.2.insert value name) := by
  obtain ⟨_, hrange, h⟩ := bind_eq_ok.mp h
  obtain ⟨_, -, h⟩ := bind_eq_ok.mp h
  obtain ⟨_, hfree, h⟩ := bind_eq_ok.mp h
  cases h
  exact ⟨check_eq_ok.mp hrange, free_eq_ok.mp hfree, rfl⟩

theorem foldlM_addWeight {l : List (String × ℚ)} {weights : Weights}
    (h : l.foldlM (addWeight name) noWeights = .ok weights) :
    (∀ dim w, weights.1.lookup dim = some w →
        ∃ text, (text, w) ∈ l ∧ parseCostDimension text = some dim) ∧
      ∀ e ∈ l, ∃ dim w', parseCostDimension e.1 = some dim ∧
        weights.1.lookup dim = some w' := by
  refine @foldlM_induction _ _ _ _ (fun done weights =>
    (∀ dim w, weights.1.lookup dim = some w →
        ∃ text, (text, w) ∈ done ∧ parseCostDimension text = some dim) ∧
      ∀ e ∈ done, ∃ dim w', parseCostDimension e.1 = some dim ∧
        weights.1.lookup dim = some w') _ _ _ ?_ ?_ h
  · exact ⟨forall_lookup_empty _,
      List.forall_mem_nil _⟩
  · rintro done e weights weights' - ⟨hweighed, hweighs⟩ hround
    unfold addWeight at hround
    split at hround
    · cases hround
    · next dim hdim =>
        split_ifs at hround
        cases hround
        refine ⟨?_, ?_⟩
        · intro dim' w hlookup
          rw [lookup_insert_eq] at hlookup
          split_ifs at hlookup with heq
          · cases hlookup
            exact ⟨e.1, List.mem_append_right _ (List.mem_singleton.mpr rfl), heq ▸ hdim⟩
          · obtain ⟨text, hmem, htext⟩ := hweighed dim' w hlookup
            exact ⟨text, List.mem_append_left _ hmem, htext⟩
        · intro e' he'
          simp only [lookup_insert_eq]
          rcases List.mem_append.mp he' with he' | he'
          · obtain ⟨dim', w', hdim', hlookup⟩ := hweighs e' he'
            refine ⟨dim', ?_⟩
            split_ifs
            · exact ⟨_, hdim', rfl⟩
            · exact ⟨w', hdim', hlookup⟩
          · rw [List.mem_singleton.mp he']
            exact ⟨dim, e.2, hdim, if_pos rfl⟩

/-- What the codepoints of a class's match are, once they have been read: valid, each once, and
taken by the class, while those of the other classes stay theirs. -/
structure TakesCodepoints (name : String) (byDSCP : GoMap ℤ String)
    (state : List ℤ × GoMap ℤ String) : Prop where
  nodup : state.1.Nodup
  range : ∀ value ∈ state.1, 0 ≤ value ∧ value ≤ dscpMax
  taken : ∀ value ∈ state.1, state.2.lookup value = some name
  kept : ∀ value owner, byDSCP.lookup value = some owner → state.2.lookup value = some owner

theorem TakesCodepoints.addCodepoint
    {state state' : List ℤ × GoMap ℤ String} {value : ℤ} (h : TakesCodepoints name byDSCP state)
    (hround : addCodepoint name state value = .ok state') :
    state'.1 = state.1 ++ [value] ∧ TakesCodepoints name byDSCP state' := by
  obtain ⟨hvalue, hfree, rfl⟩ := addCodepoint_eq_ok hround
  have hother : ∀ other owner, state.2.lookup other = some owner →
      (state.2.insert value name).lookup other = some owner := by
    intro other owner hother
    rw [lookup_insert_eq, if_neg, hother]
    rintro rfl
    rw [hfree] at hother
    cases hother
  refine ⟨rfl, ?_, ?_, ?_, fun other owner hkept => hother other owner (h.kept other owner hkept)⟩
  · refine List.concat_eq_append ▸ h.nodup.concat fun hmem => ?_
    have hsome := h.taken value hmem
    rw [hfree] at hsome
    cases hsome
  · simp only [List.forall_mem_append, List.forall_mem_singleton]
    exact ⟨h.range, hvalue⟩
  · simp only [List.forall_mem_append, List.forall_mem_singleton]
    exact ⟨fun other hmem => hother other name (h.taken other hmem), AList.lookup_insert _⟩

/-- The codepoints of a class are those of its row, different ones in range, in order, and the
class has taken them beside those that were taken before. -/
theorem parseClassMatch_eq_ok {values : List ℤ} {codepoints : List ℤ × GoMap ℤ String}
    (h : parseClassMatch name values byDSCP = .ok codepoints) :
    codepoints.1.Perm values ∧ codepoints.1.Pairwise (· < ·) ∧
      (∀ value ∈ codepoints.1, 0 ≤ value ∧ value ≤ dscpMax) ∧
      (∀ value ∈ codepoints.1, codepoints.2.lookup value = some name) ∧
      ∀ value owner, byDSCP.lookup value = some owner → codepoints.2.lookup value = some owner := by
  obtain ⟨_, -, h⟩ := bind_eq_ok.mp h
  obtain ⟨state, hfold, h⟩ := bind_eq_ok.mp h
  cases h
  have hstate : state.1 = values ∧ TakesCodepoints name byDSCP state := by
    refine @foldlM_induction _ _ _ _
      (fun done state => state.1 = done ∧ TakesCodepoints name byDSCP state) _ _ _ ?_ ?_ hfold
    · exact ⟨rfl, .nil, List.forall_mem_nil _,
        List.forall_mem_nil _, fun _ _ h => h⟩
    · rintro done value state state' - ⟨rfl, htakes⟩ hround
      exact htakes.addCodepoint hround
  obtain ⟨rfl, hnodup, hrange, htaken, hkept⟩ := hstate
  refine ⟨state.1.perm_insertionSort _, ?_, ?_, ?_, hkept⟩
  · have hsorted := state.1.pairwise_insertionSort (· ≤ ·)
    have hdistinct := (state.1.perm_insertionSort (· ≤ ·)).nodup_iff.mpr hnodup
    exact (hsorted.and hdistinct).imp fun hle => lt_of_le_of_ne hle.1 hle.2
  · intro value hvalue
    exact hrange value ((List.mem_insertionSort _).mp hvalue)
  · intro value hvalue
    exact htaken value ((List.mem_insertionSort _).mp hvalue)

theorem parseTrafficClass_eq_ok (h : parseTrafficClass ords maps rc = .ok maps') :
    ∃ c byDSCP, maps.Accepts rc c ∧ maps.Takes c byDSCP ∧ maps' = maps.add c byDSCP := by
  obtain ⟨_, -, h⟩ := bind_eq_ok.mp h
  obtain ⟨_, hname, h⟩ := bind_eq_ok.mp h
  obtain ⟨_, hlabel, h⟩ := bind_eq_ok.mp h
  obtain ⟨_, hpos, h⟩ := bind_eq_ok.mp h
  obtain ⟨_, hindex, h⟩ := bind_eq_ok.mp h
  obtain ⟨_, -, h⟩ := bind_eq_ok.mp h
  obtain ⟨weights, hweights, h⟩ := bind_eq_ok.mp h
  obtain ⟨codepoints, hmatch, h⟩ := bind_eq_ok.mp h
  cases h
  obtain ⟨hvalues, hsorted, hrange, htaken, hkept⟩ := parseClassMatch_eq_ok hmatch
  have hobjective := foldlM_addWeight hweights
  simp only [Prod.forall, mem_range] at hobjective
  exact ⟨_, _, ⟨⟨rfl, rfl, rfl, hvalues, hobjective.1, hobjective.2⟩, free_eq_ok.mp hname,
    free_eq_ok.mp hlabel, check_eq_ok.mp hpos, free_eq_ok.mp hindex, hsorted, hrange⟩,
    ⟨htaken, hkept⟩, rfl⟩

structure ClassMaps.Sound (maps : ClassMaps) : Prop where
  default : maps.byLabel.lookup defaultClassLabel = some defaultClass
  dscp_sorted : ∀ l c, maps.byLabel.lookup l = some c → c.dscp.Pairwise (· < ·)
  dscp_range : ∀ l c, maps.byLabel.lookup l = some c →
    ∀ value ∈ c.dscp, 0 ≤ value ∧ value ≤ dscpMax
  index_taken : ∀ l c, maps.byLabel.lookup l = some c → l ≠ defaultClassLabel →
    maps.byIndex.lookup c.index ≠ none
  index_distinct : ∀ l l' c c', maps.byLabel.lookup l = some c → maps.byLabel.lookup l' = some c' →
    l ≠ defaultClassLabel → l' ≠ defaultClassLabel → c.index = c'.index → l = l'

theorem ClassMaps.sound_start : ClassMaps.start.Sound := by
  have honly : ∀ l c, ClassMaps.start.byLabel.lookup l = some c →
      l = defaultClassLabel ∧ c = defaultClass := by
    intro l c h
    simp only [ClassMaps.start] at h
    rw [lookup_insert_eq] at h
    split_ifs at h with hl
    · exact ⟨hl, (Option.some.inj h).symm⟩
    · exact absurd h (lookup_empty_ne l c)
  refine ⟨AList.lookup_insert _, ?_, ?_, ?_, ?_⟩
  · intro l c h
    rw [(honly l c h).2]
    exact List.Pairwise.nil
  · intro l c h value hvalue
    rw [(honly l c h).2] at hvalue
    exact absurd hvalue List.not_mem_nil
  · intro l c h hne
    exact absurd (honly l c h).1 hne
  · intro l l' c c' h _ hne
    exact absurd (honly l c h).1 hne

theorem ClassMaps.Sound.label_ne {c : TrafficClass} (h : maps.Sound) (hc : maps.Accepts rc c) :
    c.label ≠ defaultClassLabel := by
  intro heq
  have hfree := hc.label_free
  rw [heq, h.default] at hfree
  cases hfree

theorem ClassMaps.Sound.add {c : TrafficClass} (h : maps.Sound)
    (hc : maps.Accepts rc c) : (maps.add c byDSCP).Sound := by
  have hlookup : ∀ l c', (maps.add c byDSCP).byLabel.lookup l = some c' →
      l = c.label ∧ c' = c ∨ maps.byLabel.lookup l = some c' := by
    intro l c' hl
    simp only [ClassMaps.add] at hl
    rw [lookup_insert_eq] at hl
    split_ifs at hl with heq
    · exact Or.inl ⟨heq, (Option.some.inj hl).symm⟩
    · exact Or.inr hl
  have htaken : ∀ l c', maps.byLabel.lookup l = some c' → l ≠ defaultClassLabel →
      c'.index ≠ c.index := by
    intro l c' hl hne heq
    exact h.index_taken l c' hl hne (heq ▸ hc.index_free)
  refine ⟨?_, ?_, ?_, ?_, ?_⟩
  · simp only [ClassMaps.add]
    rw [lookup_insert_eq, if_neg (Ne.symm (h.label_ne hc)), h.default]
  · intro l c' hl
    rcases hlookup l c' hl with ⟨-, rfl⟩ | hl
    · exact hc.dscp_sorted
    · exact h.dscp_sorted l c' hl
  · intro l c' hl
    rcases hlookup l c' hl with ⟨-, rfl⟩ | hl
    · exact hc.dscp_range
    · exact h.dscp_range l c' hl
  · intro l c' hl hne
    simp only [ClassMaps.add]
    rw [lookup_insert_eq]
    split_ifs with heq
    · exact Option.some_ne_none _
    · rcases hlookup l c' hl with ⟨-, rfl⟩ | hl
      · exact absurd rfl heq
      · exact h.index_taken l c' hl hne
  · intro l l' c₁ c₂ hl hl' hne hne' heq
    rcases hlookup l c₁ hl with ⟨rfl, rfl⟩ | hold
    · rcases hlookup l' c₂ hl' with ⟨rfl, -⟩ | hold'
      · rfl
      · exact absurd heq.symm (htaken l' c₂ hold' hne')
    · rcases hlookup l' c₂ hl' with ⟨-, rfl⟩ | hold'
      · exact absurd heq (htaken l c₁ hold hne)
      · exact h.index_distinct l l' c₁ c₂ hold hold' hne hne' heq

theorem parseTrafficClasses_sound (h : parseTrafficClasses ords raw = .ok maps) : maps.Sound := by
  refine @foldlM_induction _ _ _ _ (fun _ maps => maps.Sound) _ _ _ ClassMaps.sound_start
    ?_ h
  intro _ rc maps maps' _ hsound hround
  obtain ⟨c, byDSCP, haccepts, -, rfl⟩ := parseTrafficClass_eq_ok hround
  exact hsound.add haccepts

/-- The classes that are read are those of the rows, beside the default class. -/
theorem parseTrafficClasses_rows (h : parseTrafficClasses ords raw = .ok maps) :
    ∃ classes, List.Forall₂ ClassOfRow raw classes ∧
      ∀ l c, maps.byLabel.lookup l = some c ↔
        (c = defaultClass ∨ c ∈ classes) ∧ c.label = l := by
  refine @foldlM_induction _ _ _ _ (fun done maps => ∃ classes,
    List.Forall₂ ClassOfRow done classes ∧ ∀ l c, maps.byLabel.lookup l = some c ↔
      (c = defaultClass ∨ c ∈ classes) ∧ c.label = l) _ _ _ ⟨[], .nil, ?_⟩ ?_ h
  · intro l c
    simp only [ClassMaps.start, lookup_insert_eq, List.not_mem_nil, or_false]
    constructor
    · intro hlookup
      split_ifs at hlookup with hl
      · cases hlookup
        exact ⟨rfl, hl.symm⟩
      · exact absurd hlookup (lookup_empty_ne l c)
    · rintro ⟨rfl, rfl⟩
      exact if_pos rfl
  · rintro done rc maps maps' - ⟨classes, hrows, hlookup⟩ hround
    obtain ⟨c, byDSCP, haccepts, -, rfl⟩ := parseTrafficClass_eq_ok hround
    refine ⟨classes ++ [c], List.rel_append hrows (.cons haccepts.toClassOfRow .nil), ?_⟩
    intro l c'
    have hnew : ∀ c', (c' = defaultClass ∨ c' ∈ classes) → c'.label ≠ c.label := by
      intro c' hc' heq
      have hsome := (hlookup c'.label c').mpr ⟨hc', rfl⟩
      rw [heq, haccepts.label_free] at hsome
      cases hsome
    simp only [ClassMaps.add, lookup_insert_eq, List.mem_append, List.mem_singleton,
      ← or_assoc]
    split_ifs with hl
    · subst hl
      constructor
      · rintro ⟨⟩
        exact ⟨Or.inr rfl, rfl⟩
      · rintro ⟨hold | rfl, heq⟩
        · exact absurd heq (hnew c' hold)
        · rfl
    · rw [hlookup]
      constructor
      · rintro ⟨hc', heq⟩
        exact ⟨Or.inl hc', heq⟩
      · rintro ⟨hc' | rfl, heq⟩
        · exact ⟨hc', heq⟩
        · exact absurd heq.symm hl

/-- Every class that is read can be found by its name, and none has the label of the default
class. -/
theorem parseTrafficClasses_byName (h : parseTrafficClasses ords raw = .ok maps) (hrc : rc ∈ raw) :
    ∃ c, maps.byName.lookup rc.name = some c ∧ c.label ≠ defaultClassLabel := by
  have hall : maps.Sound ∧
      ∀ rc ∈ raw, ∃ c, maps.byName.lookup rc.name = some c ∧ c.label ≠ defaultClassLabel := by
    refine @foldlM_induction _ _ _ _ (fun done maps => maps.Sound ∧
      ∀ rc ∈ done, ∃ c, maps.byName.lookup rc.name = some c ∧ c.label ≠ defaultClassLabel)
      _ _ _ ⟨ClassMaps.sound_start, List.forall_mem_nil _⟩ ?_ h
    rintro done rc maps maps' - ⟨hsound, hdone⟩ hround
    obtain ⟨c, byDSCP, haccepts, -, rfl⟩ := parseTrafficClass_eq_ok hround
    refine ⟨hsound.add haccepts, fun rc' hrc' => ?_⟩
    simp only [ClassMaps.add, lookup_insert_eq]
    split_ifs with hname
    · exact ⟨c, rfl, hsound.label_ne haccepts⟩
    · rcases List.mem_append.mp hrc' with hrc' | hrc'
      · exact hdone rc' hrc'
      · rw [List.mem_singleton.mp hrc', haccepts.name] at hname
        exact absurd rfl hname
  exact hall.2 rc hrc

end Classes

/-! ### The classes of a site -/

section Split

variable {classByName : GoMap String TrafficClass}

def NamesClass (classByName : GoMap String TrafficClass) (name : String) : Prop :=
  ∃ c, classByName.lookup name = some c ∧ c.label ≠ defaultClassLabel

def labelOf (classByName : GoMap String TrafficClass) (e : String × ℚ) : Label :=
  ((classByName.lookup e.1).map TrafficClass.label).getD defaultClassLabel

theorem carve_eq_ok {state state' : GoMap Label ℚ × ℚ} {e : String × ℚ} :
    carve classByName state e = .ok state' ↔ (NamesClass classByName e.1 ∧ 0 < e.2) ∧
      state' = (state.1.insert (labelOf classByName e) e.2, state.2 + e.2) := by
  unfold carve NamesClass labelOf
  cases hc : classByName.lookup e.1 with
  | none => exact iff_of_false (fun h => nomatch h) fun ⟨⟨⟨_, h, _⟩, _⟩, _⟩ => nomatch h
  | some c =>
    dsimp only
    rw [bind_eq_ok]
    constructor
    · rintro ⟨_, hlabel, h⟩
      obtain ⟨_, hpos, h⟩ := bind_eq_ok.mp h
      cases h
      exact ⟨⟨⟨c, rfl, check_eq_ok.mp hlabel⟩, check_eq_ok.mp hpos⟩, rfl⟩
    · rintro ⟨⟨⟨c', hc', hlabel⟩, hpos⟩, rfl⟩
      cases hc'
      exact ⟨(), check_eq_ok.mpr hlabel,
        bind_eq_ok.mpr ⟨(), check_eq_ok.mpr hpos, rfl⟩⟩

/-- The loop over the classes of a site ends when all of them are known and their amounts
positive; it has stored the amounts and added them up. -/
theorem foldlM_carve_eq_ok {l : List (String × ℚ)} {state state' : GoMap Label ℚ × ℚ} :
    l.foldlM (carve classByName) state = .ok state' ↔
      (∀ e ∈ l, NamesClass classByName e.1 ∧ 0 < e.2) ∧
        state' = (GoMap.storeEach (labelOf classByName) Prod.snd l state.1,
          state.2 + (l.map Prod.snd).sum) := by
  induction l generalizing state with
  | nil =>
    rw [List.foldlM_nil, List.map_nil, List.sum_nil, add_zero]
    constructor
    · intro h
      exact ⟨List.forall_mem_nil _, (Except.ok.inj h).symm⟩
    · rintro ⟨-, rfl⟩
      rfl
  | cons e l ih =>
    rw [List.foldlM_cons, bind_eq_ok, List.forall_mem_cons, List.map_cons, List.sum_cons,
      ← add_assoc]
    constructor
    · rintro ⟨next, hround, h⟩
      obtain ⟨hfirst, rfl⟩ := carve_eq_ok.mp hround
      obtain ⟨hrest, rfl⟩ := ih.mp h
      exact ⟨⟨hfirst, hrest⟩, rfl⟩
    · rintro ⟨⟨hfirst, hrest⟩, rfl⟩
      exact ⟨_, carve_eq_ok.mpr ⟨hfirst, rfl⟩, ih.mpr ⟨hrest, rfl⟩⟩

theorem resolveSiteClasses_eq_ok {ord : RangeOrder} {raw : GoMap String ℚ} {reservation : ℚ}
    {out : GoMap Label ℚ} :
    resolveSiteClasses ord raw reservation classByName = .ok out ↔
      (∀ e ∈ raw.range ord, NamesClass classByName e.1 ∧ 0 < e.2) ∧
        -classMbpsTolerance ≤ reservation - ((raw.range ord).map Prod.snd).sum ∧
        out = if classMbpsTolerance < reservation - ((raw.range ord).map Prod.snd).sum then
          (GoMap.storeEach (labelOf classByName) Prod.snd (raw.range ord) ∅).insert
            defaultClassLabel (reservation - ((raw.range ord).map Prod.snd).sum)
        else GoMap.storeEach (labelOf classByName) Prod.snd (raw.range ord) ∅ := by
  unfold resolveSiteClasses
  rw [bind_eq_ok]
  simp only [foldlM_carve_eq_ok, zero_add]
  constructor
  · rintro ⟨_, ⟨hentries, rfl⟩, h⟩
    obtain ⟨_, hcheck, h⟩ := bind_eq_ok.mp h
    exact ⟨hentries, check_eq_ok.mp hcheck, (Except.ok.inj h).symm⟩
  · rintro ⟨hentries, hle, rfl⟩
    exact ⟨_, ⟨hentries, rfl⟩, bind_eq_ok.mpr ⟨(), check_eq_ok.mpr hle, rfl⟩⟩

/-- A split into known classes is accepted when its amounts are positive and exceed the
reservation by no more than the tolerance. -/
theorem resolveSiteClasses_isOk_iff {ord : RangeOrder} {raw : GoMap String ℚ} {reservation : ℚ}
    (hknown : ∀ name amount, raw.lookup name = some amount →
      ∃ c, classByName.lookup name = some c ∧ c.label ≠ defaultClassLabel) :
    (∃ out, resolveSiteClasses ord raw reservation classByName = .ok out) ↔
      (∀ name amount, raw.lookup name = some amount → 0 < amount) ∧
        ((raw.range .listed).map Prod.snd).sum ≤ reservation + classMbpsTolerance := by
  have hsum : ((raw.range ord).map Prod.snd).sum = ((raw.range .listed).map Prod.snd).sum :=
    (((range_perm ord raw).trans (range_perm .listed raw).symm).map _).sum_eq
  simp only [resolveSiteClasses_eq_ok, hsum, exists_and_left, exists_eq, and_true, Prod.forall,
    mem_range]
  constructor
  · rintro ⟨hentries, hle⟩
    exact ⟨fun name amount h => (hentries name amount h).2, by linarith⟩
  · rintro ⟨hpos, hle⟩
    exact ⟨fun name amount h => ⟨hknown name amount h, hpos name amount h⟩, by linarith⟩

end Split

/-! ### Tiers -/

def tierIndexOf (tiers : List RawTier) (name : String) : ℤ :=
  ((tiers.find? fun rt => rt.name = name).map RawTier.index).getD unrankedTierIndex

theorem parseTiers_getD {raw : List RawTier} {tiers : GoMap String ℤ}
    (h : parseTiers raw = .ok tiers) (name : String) :
    tiers.getD name unrankedTierIndex = tierIndexOf raw name := by
  obtain ⟨state, hstate, h⟩ := bind_eq_ok.mp h
  cases h
  have hlookup : state.1.lookup name =
      (raw.find? fun rt => rt.name = name).map RawTier.index := by
    refine @foldlM_induction _ _ _ _ (fun done state => state.1.lookup name =
      (done.find? fun rt => rt.name = name).map RawTier.index) _ _ _ rfl ?_ hstate
    intro done rt state state' _ hdone hround
    obtain ⟨_, -, hround⟩ := bind_eq_ok.mp hround
    obtain ⟨_, hfree, hround⟩ := bind_eq_ok.mp hround
    obtain ⟨_, -, hround⟩ := bind_eq_ok.mp hround
    obtain ⟨_, -, hround⟩ := bind_eq_ok.mp hround
    cases hround
    rw [lookup_insert_eq, List.find?_append, List.find?_singleton]
    by_cases hname : rt.name = name
    · subst hname
      rw [free_eq_ok.mp hfree] at hdone
      rw [Option.map_eq_none_iff.mp hdone.symm]
      simp
    · rw [if_neg (Ne.symm hname), hdone, decide_eq_false hname]
      simp
  rw [GoMap.getD, hlookup, tierIndexOf]

/-! ### Tenants and sites -/

structure SiteIndexes (byIdentity byPortalID : GoMap String Site)
    (byPop : GoMap String (List Site)) (sites : List Site) : Prop where
  byIdentity_eq : byIdentity = GoMap.collect Site.identity sites
  byPortalID_eq : byPortalID = GoMap.collect Site.portalID sites
  byPop_eq : byPop = GoMap.group Site.attach sites
  identities : (sites.map Site.identity).Nodup
  portals : (sites.map Site.portalID).Nodup

theorem SiteIndexes.add {byIdentity byPortalID : GoMap String Site}
    {byPop : GoMap String (List Site)} {sites : List Site} {site : Site}
    (h : SiteIndexes byIdentity byPortalID byPop sites)
    (hidentity : site.identity ∉ sites.map Site.identity)
    (hportal : site.portalID ∉ sites.map Site.portalID) :
    SiteIndexes (byIdentity.insert site.identity site) (byPortalID.insert site.portalID site)
      (byPop.insert site.attach (byPop.getD site.attach [] ++ [site])) (sites ++ [site]) := by
  refine ⟨?_, ?_, ?_, ?_, ?_⟩
  · rw [collect_concat, h.byIdentity_eq]
  · rw [collect_concat, h.byPortalID_eq]
  · rw [group_concat, h.byPop_eq]
  · rw [List.map_append, List.map_singleton, ← List.concat_eq_append]
    exact h.identities.concat hidentity
  · rw [List.map_append, List.map_singleton, ← List.concat_eq_append]
    exact h.portals.concat hportal

structure SitesOf (byID : GoMap TenantID Tenant) (sites : List Site) : Prop where
  owner : ∀ s ∈ sites, ∃ t, byID.lookup s.tenantID = some t
  sites_eq : ∀ id t, byID.lookup id = some t → t.sites = sites.filter fun s => s.tenantID = id

theorem SitesOf.addTenant {byID : GoMap TenantID Tenant} {sites : List Site} {tenant : Tenant}
    (h : SitesOf byID sites) (hnew : byID.lookup tenant.id = none)
    (hown : ∀ s ∈ tenant.sites, s.tenantID = tenant.id) :
    SitesOf (byID.insert tenant.id tenant) (sites ++ tenant.sites) := by
  have hother : ∀ s ∈ sites, s.tenantID ≠ tenant.id := by
    intro s hs heq
    obtain ⟨t, ht⟩ := h.owner s hs
    rw [heq, hnew] at ht
    cases ht
  constructor
  · intro s hs
    rw [lookup_insert_eq]
    split_ifs with heq
    · exact ⟨tenant, rfl⟩
    · rcases List.mem_append.mp hs with hs | hs
      · exact h.owner s hs
      · exact absurd (hown s hs) heq
  · intro id t ht
    rw [lookup_insert_eq] at ht
    rw [List.filter_append]
    split_ifs at ht with hid
    · cases ht
      rw [List.filter_eq_nil_iff.mpr, List.filter_eq_self.mpr, List.nil_append]
      · intro s hs
        simpa [hid] using hown s hs
      · intro s hs
        simpa [hid] using hother s hs
    · have hnone : tenant.sites.filter (fun s => s.tenantID = id) = [] := by
        rw [List.filter_eq_nil_iff]
        intro s hs
        simpa [hown s hs] using Ne.symm hid
      rw [hnone, List.append_nil, h.sites_eq id t ht]

section Tenants

variable {parsePrefix : String → Option Prefix} {ords : LoadOrders}
  {classByName : GoMap String TrafficClass} {tierIndex : GoMap String ℤ}

structure SiteFields (parsePrefix : String → Option Prefix) (row : TenantID × RawSite)
    (site : Site) : Prop where
  tenantID : site.tenantID = row.1
  cpe : site.cpe = row.2.cpe
  portalID : site.portalID = row.2.portalID
  node : site.node = row.2.node
  sitePrefix : parsePrefix row.2.sitePrefix = some site.sitePrefix
  attach : site.attach = row.2.attach
  attachNode : site.attachNode = row.2.attachNode
  ifID : site.ifID = row.2.ifID
  identity : site.identity = row.2.identity
  reservationMbps : site.reservationMbps = row.2.reservationMbps

structure SiteRead (parsePrefix : String → Option Prefix) (ords : LoadOrders)
    (classByName : GoMap String TrafficClass) (row : TenantID × RawSite) (site : Site) : Prop
    extends SiteFields parsePrefix row site where
  resolved : resolveSiteClasses (ords.classes row.2.portalID) row.2.classes site.reservationMbps
    classByName = .ok site.classMbps

structure TenantOfRow (parsePrefix : String → Option Prefix) (tiers : List RawTier)
    (rc : RawTenant) (tenant : Tenant) : Prop where
  id : tenant.id = rc.id
  allocation : parsePrefix rc.allocation = some tenant.allocation
  tier : tenant.tier = rc.tier
  tierIndex : tenant.tierIndex = tierIndexOf tiers rc.tier
  vrfTable : tenant.vrfTable = rc.vrfTable

theorem requirePrefix_eq_ok {text : String} {error : LoadError} {p : Prefix} :
    requirePrefix parsePrefix text error = .ok p ↔ parsePrefix text = some p := by
  unfold requirePrefix
  split
  · next p' hp' => rw [hp', Except.ok.injEq, Option.some.injEq]
  · next hnone => exact iff_of_false nofun (by rw [hnone]; nofun)

/-- A site that is accepted: it is that of its row, what it takes was free, and its data passed
the checks. -/
structure TenantMaps.Accepts (maps : TenantMaps) (parsePrefix : String → Option Prefix)
    (ords : LoadOrders) (classByName : GoMap String TrafficClass) (row : TenantID × RawSite)
    (allocation : Prefix) (site : Site) : Prop
    extends SiteRead parsePrefix ords classByName row site where
  within : prefixWithin allocation site.sitePrefix = true
  ifID_free : maps.seenIfID.lookup site.ifID = none
  identity_free : maps.byIdentity.lookup site.identity = none
  portalID_free : maps.byPortalID.lookup site.portalID = none

variable {id : TenantID} {allocation : Prefix} {state : TenantMaps × List Site} {maps : TenantMaps}

theorem loadSite_eq_ok {state' : TenantMaps × List Site} {rs : RawSite}
    (h : loadSite parsePrefix ords classByName id allocation state rs = .ok state') :
    ∃ site : Site, state.1.Accepts parsePrefix ords classByName (id, rs) allocation site ∧
      state' = (state.1.addSite site, state.2 ++ [site]) := by
  obtain ⟨sitePrefix, hprefix, h⟩ := bind_eq_ok.mp h
  obtain ⟨_, hwithin, h⟩ := bind_eq_ok.mp h
  obtain ⟨_, hifID, h⟩ := bind_eq_ok.mp h
  obtain ⟨_, hidentity, h⟩ := bind_eq_ok.mp h
  obtain ⟨_, hportal, h⟩ := bind_eq_ok.mp h
  obtain ⟨classMbps, hclasses, h⟩ := bind_eq_ok.mp h
  cases h
  refine ⟨_, ?_, rfl⟩
  exact ⟨⟨⟨rfl, rfl, rfl, rfl, requirePrefix_eq_ok.mp hprefix, rfl, rfl, rfl, rfl, rfl⟩,
    mapError_eq_ok.mp hclasses⟩, check_eq_ok.mp hwithin, free_eq_ok.mp hifID,
    free_eq_ok.mp hidentity, free_eq_ok.mp hportal⟩

structure TenantMaps.Sound (maps : TenantMaps) (sites : List Site) : Prop where
  indexes : SiteIndexes maps.byIdentity maps.byPortalID maps.byPop sites
  tenants : SitesOf maps.byID sites

theorem TenantMaps.sound_start : TenantMaps.start.Sound [] :=
  ⟨⟨rfl, rfl, rfl, .nil, .nil⟩, List.forall_mem_nil _,
    forall_lookup_empty _⟩

theorem foldlM_loadSite {sites : List Site} {rawSites : List RawSite}
    (hmaps : SiteIndexes maps.byIdentity maps.byPortalID maps.byPop sites)
    (h : rawSites.foldlM (loadSite parsePrefix ords classByName id allocation) (maps, []) =
      .ok state) :
    state.1.byID = maps.byID ∧ (∀ s ∈ state.2, s.tenantID = id) ∧
      SiteIndexes state.1.byIdentity state.1.byPortalID state.1.byPop (sites ++ state.2) := by
  refine @foldlM_induction _ _ _ _ (fun _ state => state.1.byID = maps.byID ∧
    (∀ s ∈ state.2, s.tenantID = id) ∧ SiteIndexes state.1.byIdentity state.1.byPortalID
      state.1.byPop (sites ++ state.2)) _ _ _ ?_ ?_ h
  · exact ⟨rfl, List.forall_mem_nil _, (List.append_nil sites).symm ▸ hmaps⟩
  · rintro _ rs state state' - ⟨hbyID, hown, hindexes⟩ hround
    obtain ⟨site, hsite, rfl⟩ := loadSite_eq_ok hround
    have hidentity := hsite.identity_free
    have hportal := hsite.portalID_free
    rw [hindexes.byIdentity_eq, lookup_collect_eq_none] at hidentity
    rw [hindexes.byPortalID_eq, lookup_collect_eq_none] at hportal
    refine ⟨hbyID, ?_, ?_⟩
    · simp only [List.forall_mem_append, List.forall_mem_singleton]
      exact ⟨hown, hsite.tenantID⟩
    · rw [← List.append_assoc]
      exact hindexes.add hidentity hportal

theorem loadTenant_eq_ok {maps' : TenantMaps} {rc : RawTenant} {tiers : List RawTier}
    (htiers : parseTiers tiers = .ok tierIndex)
    (h : loadTenant parsePrefix ords classByName tierIndex maps rc = .ok maps') :
    ∃ state tenant, maps.byID.lookup rc.id = none ∧
      rc.sites.foldlM (loadSite parsePrefix ords classByName rc.id tenant.allocation) (maps, []) =
        .ok state ∧
      TenantOfRow parsePrefix tiers rc tenant ∧ tenant.sites = state.2 ∧
      maps' = state.1.addTenant tenant := by
  obtain ⟨_, hfree, h⟩ := bind_eq_ok.mp h
  obtain ⟨allocation, hallocation, h⟩ := bind_eq_ok.mp h
  obtain ⟨state, hstate, h⟩ := bind_eq_ok.mp h
  cases h
  refine ⟨state, ⟨rc.id, allocation, rc.tier, tierIndex.getD rc.tier unrankedTierIndex,
    rc.vrfTable, state.2⟩, free_eq_ok.mp hfree, hstate, ?_, rfl, rfl⟩
  exact ⟨rfl, requirePrefix_eq_ok.mp hallocation, rfl, parseTiers_getD htiers rc.tier, rfl⟩

theorem TenantMaps.Sound.addTenant {sites : List Site} {rawSites : List RawSite}
    {tenant : Tenant} (hmaps : maps.Sound sites) (hfree : maps.byID.lookup id = none)
    (h : rawSites.foldlM (loadSite parsePrefix ords classByName id allocation) (maps, []) =
      .ok state)
    (hid : tenant.id = id) (hsites : tenant.sites = state.2) :
    (state.1.addTenant tenant).Sound (sites ++ tenant.sites) := by
  obtain ⟨hbyID, hown, hindexes⟩ := foldlM_loadSite hmaps.indexes h
  rw [← hsites] at hown hindexes
  rw [← hid] at hfree hown
  refine ⟨hindexes, ?_⟩
  have htenants := hmaps.tenants.addTenant hfree hown
  rw [← hbyID] at htenants
  exact htenants

structure TenantRepository.Loaded (r : TenantRepository) (sites : List Site) : Prop where
  dscp_sorted : ∀ l c, r.classes.lookup l = some c → c.dscp.Pairwise (· < ·)
  dscp_range : ∀ l c, r.classes.lookup l = some c → ∀ value ∈ c.dscp, 0 ≤ value ∧ value ≤ dscpMax
  indexes_distinct : r.IndexesDistinct
  indexes : SiteIndexes r.byIdentity r.byPortalID r.byPop sites
  tenants : SitesOf r.byID sites

theorem load_loaded {raw : RawTenantDB} {r : TenantRepository}
    (h : load parsePrefix ords raw = .ok r) : ∃ sites, r.Loaded sites := by
  obtain ⟨classes, hclasses, h⟩ := bind_eq_ok.mp h
  obtain ⟨tierIndex, htiers, h⟩ := bind_eq_ok.mp h
  obtain ⟨maps, hmaps, h⟩ := bind_eq_ok.mp h
  cases h
  have hsound := parseTrafficClasses_sound hclasses
  obtain ⟨sites, hsites⟩ : ∃ sites, maps.Sound sites := by
    refine @foldlM_induction _ _ _ _ (fun _ maps => ∃ sites, maps.Sound sites) _ _ _
      ⟨[], TenantMaps.sound_start⟩ ?_ hmaps
    rintro _ rc maps maps' - ⟨sites, hsites⟩ hround
    obtain ⟨state, tenant, hfree, hstate, hrow, htenant, rfl⟩ := loadTenant_eq_ok htiers hround
    exact ⟨_, hsites.addTenant hfree hstate hrow.id htenant⟩
  exact ⟨sites, hsound.dscp_sorted, hsound.dscp_range, hsound.index_distinct, hsites.indexes,
    hsites.tenants⟩

end Tenants

def smallTenantDB : RawTenantDB :=
  { classes := [⟨"voice", 7, 1, [46, 34], (∅ : GoMap String ℚ).insert "latency" 1⟩],
    tiers := [⟨"gold", 2⟩],
    tenants := [⟨3, "2001:db8::/32", "gold", 3,
      [⟨"c2", "portal-two", "CpeTwo", "2001:db8::/32", "a", "PopA", 2, "two", 10,
          (∅ : GoMap String ℚ).insert "voice" 4⟩,
        ⟨"c1", "portal-one", "CpeOne", "2001:db8::/32", "b", "PopB", 1, "one", 10,
          (∅ : GoMap String ℚ).insert "voice" 10⟩]⟩] }

def smallPrefix : String → Option Prefix := fun _ =>
  some (Prefix.prefixFrom (.v6 0x20010db8000000000000000000000000) 32)

end Maeto.ControlPlane
