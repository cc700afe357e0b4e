import Mathlib.Data.Set.Basic
import Maeto.ControlPlane.TenantLoaded
import Maeto.Foundation.InPlace
import Maeto.Foundation.Table

/-!
# A repository is consistent or left alone

`Load` checks the classes, tenants and sites of a file one by one, against all those before
them. Together the checks make the repository consistent (`Consistent`): nothing that names
a site is used twice, the four indexes hold the same sites, the prefix of a site lies in the
allocation of its tenant, and the classes of a site are known, positive and add up to its
reservation. It holds what the rows of the file say, every row and nothing else (`Holds`).

The fields of the repository are assigned after the last check, so a file that is refused
leaves the repository as it was (`exec_loadInPlace`).
-/

namespace Maeto.ControlPlane

open Foundation Netip GoMap Result AList

section Prefixes

def addresses (p : Prefix) : Set Addr :=
  {a | match p.bits, p.ip, a with
    | some b, .v4 x, .v4 y => y >>> (32 - b) = x >>> (32 - b)
    | some b, .v6 x, .v6 y => y >>> (128 - b) = x >>> (128 - b)
    | _, _, _ => False}

variable {w : ℕ}

theorem ushiftRight_shiftLeft_ushiftRight (x : BitVec w) (s : ℕ) :
    x >>> s <<< s >>> s = x >>> s := by
  refine BitVec.eq_of_getLsbD_eq fun i _ => ?_
  simp only [BitVec.getLsbD_ushiftRight, BitVec.getLsbD_shiftLeft, Nat.add_sub_cancel_left]
  by_cases hi : s + i < w
  · simp [hi]
  · rw [BitVec.getLsbD_of_ge x (s + i) (by omega), Bool.and_false]

theorem ushiftRight_shiftLeft_inj {x y : BitVec w} (s : ℕ) :
    y >>> s <<< s = x >>> s <<< s ↔ y >>> s = x >>> s := by
  constructor
  · intro h
    rw [← ushiftRight_shiftLeft_ushiftRight y, h, ushiftRight_shiftLeft_ushiftRight]
  · intro h
    rw [h]

theorem mem_addresses_iff {p : Prefix} {a : Addr} : a ∈ addresses p ↔ contains p a = true := by
  obtain ⟨ip, bits, hbits⟩ := p
  cases bits with
  | none => simp [addresses, contains]
  | some b =>
    have hb := (hbits b rfl).2
    cases ip with
    | invalid => cases a <;> simp [addresses, contains, Addr.bitLen, Addr.isValid]
    | v4 x =>
      rw [Addr.bitLen] at hb
      cases a with
      | invalid => simp [addresses, contains, Addr.bitLen]
      | v6 y => simp [addresses, contains, Addr.bitLen]
      | v4 y =>
        simp [addresses, contains, Addr.bitLen, Addr.isValid, Prefix.masked,
          Prefix.prefixFrom, hb, ushiftRight_shiftLeft_inj]
    | v6 x =>
      rw [Addr.bitLen] at hb
      cases a with
      | invalid => simp [addresses, contains, Addr.bitLen]
      | v4 y => simp [addresses, contains, Addr.bitLen]
      | v6 y =>
        simp [addresses, contains, Addr.bitLen, Addr.isValid, Prefix.masked,
          Prefix.prefixFrom, hb, ushiftRight_shiftLeft_inj]

theorem ushiftRight_eq_of_le {x y : BitVec w} {s s' : ℕ} (h : y >>> s = x >>> s)
    (hle : s ≤ s') : y >>> s' = x >>> s' := by
  rw [← Nat.add_sub_cancel' hle, BitVec.shiftRight_add, BitVec.shiftRight_add, h]

theorem addresses_subset_of_prefixWithin {outer inner : Prefix}
    (h : prefixWithin outer inner = true) : addresses inner ⊆ addresses outer := by
  obtain ⟨hbits, hcontains⟩ := of_decide_eq_true h
  have hmem := mem_addresses_iff.mpr hcontains
  obtain ⟨ip, bits, hvalid⟩ := outer
  obtain ⟨ip', bits', hvalid'⟩ := inner
  intro a ha
  unfold addresses at hmem ha ⊢
  simp only [Set.mem_ofPred_eq] at hmem ha ⊢
  cases bits' with
  | none => cases ha
  | some b' =>
    cases bits with
    | none => cases hmem
    | some b =>
      have hle : b ≤ b' := by simpa using hbits
      cases ip' with
      | invalid => cases ha
      | v4 x' =>
        cases ip with
        | invalid => cases hmem
        | v6 x => cases hmem
        | v4 x =>
          cases a with
          | invalid => cases ha
          | v6 y => cases ha
          | v4 y => exact (ushiftRight_eq_of_le ha (by omega)).trans hmem
      | v6 x' =>
        cases ip with
        | invalid => cases hmem
        | v4 x => cases hmem
        | v6 x =>
          cases a with
          | invalid => cases ha
          | v4 y => cases ha
          | v6 y => exact (ushiftRight_eq_of_le ha (by omega)).trans hmem

end Prefixes

section Classes

variable {ords : LoadOrders} {raw : List RawTrafficClass} {maps : ClassMaps}

structure ClassMaps.Named (maps : ClassMaps) : Prop where
  byLabel : ∀ name c, maps.byName.lookup name = some c →
    c.name = name ∧ maps.byLabel.lookup c.label = some c
  byName : ∀ l c, maps.byLabel.lookup l = some c → maps.byName.lookup c.name = some c
  codepoints : ∀ l c, maps.byLabel.lookup l = some c →
    ∀ value ∈ c.dscp, maps.byDSCP.lookup value = some c.name

theorem ClassMaps.named_start : ClassMaps.start.Named := by
  refine ⟨?_, ?_, ?_⟩
  · refine forall_lookup_singleton ?_
    exact ⟨rfl, lookup_insert _⟩
  · refine forall_lookup_singleton ?_
    exact lookup_insert _
  · refine forall_lookup_singleton ?_
    intro value hvalue
    exact absurd hvalue List.not_mem_nil

variable {c : TrafficClass}

theorem ClassMaps.Named.add {rc : RawTrafficClass} {byDSCP : GoMap ℤ String}
    (h : maps.Named) (hc : maps.Accepts rc c) (hdscp : maps.Takes c byDSCP) :
    (maps.add c byDSCP).Named := by
  refine ⟨?_, ?_, ?_⟩
  · refine forall_lookup_insert ?_ ⟨rfl, lookup_insert _⟩
    intro name c' hname
    obtain ⟨hown, hlabel⟩ := h.byLabel name c' hname
    refine ⟨hown, ?_⟩
    simp only [ClassMaps.add]
    rw [lookup_insert_eq, if_neg, hlabel]
    intro heq
    rw [heq, hc.label_free] at hlabel
    cases hlabel
  · refine forall_lookup_insert ?_ (lookup_insert _)
    intro l c' hl
    have hname := h.byName l c' hl
    simp only [ClassMaps.add]
    rw [lookup_insert_eq, if_neg, hname]
    intro heq
    rw [heq, hc.name_free] at hname
    cases hname
  · refine forall_lookup_insert ?_ hdscp.taken
    intro l c' hl value hvalue
    exact hdscp.kept value c'.name (h.codepoints l c' hl value hvalue)

theorem parseTrafficClasses_named (h : parseTrafficClasses ords raw = .ok maps) : maps.Named := by
  refine @foldlM_induction _ _ _ _ (fun _ maps => maps.Named) _ _ _ ClassMaps.named_start
    ?_ h
  intro _ rc maps maps' _ hnamed hround
  obtain ⟨c, byDSCP, haccepts, htakes, rfl⟩ := parseTrafficClass_eq_ok hround
  exact hnamed.add haccepts htakes

theorem ClassMaps.Named.eq_of_mem_dscp (h : maps.Named) {l l' : Label} {c' : TrafficClass}
    (hl : maps.byLabel.lookup l = some c) (hl' : maps.byLabel.lookup l' = some c') {value : ℤ}
    (hvalue : value ∈ c.dscp) (hvalue' : value ∈ c'.dscp) : l = l' := by
  have hname : c.name = c'.name := by
    have howner := h.codepoints l c hl value hvalue
    rw [h.codepoints l' c' hl' value hvalue'] at howner
    exact (Option.some.inj howner).symm
  have hclass := h.byName l c hl
  rw [hname, h.byName l' c' hl'] at hclass
  rw [← maps.byLabel_label l c hl, ← maps.byLabel_label l' c' hl', Option.some.inj hclass]

theorem labelOf_of_lookup {classByName : GoMap String TrafficClass} {e : String × ℚ}
    (h : classByName.lookup e.1 = some c) :
    labelOf classByName e = c.label := by
  rw [labelOf, h, Option.map_some, Option.getD_some]

theorem ClassMaps.Named.labelOf_inj (h : maps.Named) {e e' : String × ℚ}
    (he : NamesClass maps.byName e.1) (he' : NamesClass maps.byName e'.1)
    (hlabel : labelOf maps.byName e = labelOf maps.byName e') : e.1 = e'.1 := by
  obtain ⟨c, hc, -⟩ := he
  obtain ⟨c', hc', -⟩ := he'
  rw [labelOf_of_lookup hc, labelOf_of_lookup hc'] at hlabel
  obtain ⟨hname, hlookup⟩ := h.byLabel _ c hc
  obtain ⟨hname', hlookup'⟩ := h.byLabel _ c' hc'
  rw [hlabel, hlookup'] at hlookup
  rw [← hname, ← hname', Option.some.inj hlookup]

end Classes

section Split

structure Split (classes : GoMap Label TrafficClass) (classMbps : GoMap Label ℚ)
    (reservation : ℚ) : Prop where
  pos : ∀ label mbps, classMbps.lookup label = some mbps → 0 < mbps
  known : ∀ label mbps, classMbps.lookup label = some mbps → ∃ c, classes.lookup label = some c
  sum : ∀ ord, |((classMbps.range ord).map Prod.snd).sum - reservation| ≤ classMbpsTolerance
  remainder : ∀ ord,
    classMbps.lookup defaultClassLabel =
      let rest := reservation - (((classMbps.range ord).filter fun e =>
        e.1 ≠ defaultClassLabel).map Prod.snd).sum
      if classMbpsTolerance < rest then some rest else none

variable {maps : ClassMaps} {ord : RangeOrder} {raw : GoMap String ℚ} {reservation : ℚ}
  {out : GoMap Label ℚ}

theorem classMbpsTolerance_pos : 0 < classMbpsTolerance := by
  rw [classMbpsTolerance]
  norm_num

theorem labelOf_ne {e : String × ℚ} (h : NamesClass maps.byName e.1) :
    labelOf maps.byName e ≠ defaultClassLabel := by
  obtain ⟨c, hc, hlabel⟩ := h
  rw [labelOf_of_lookup hc]
  exact hlabel

def namedAmounts (maps : ClassMaps) (raw : GoMap String ℚ) (ord : RangeOrder) :
    List (Label × ℚ) :=
  (raw.range ord).map fun e => (labelOf maps.byName e, e.2)

theorem sum_namedAmounts (maps : ClassMaps) (raw : GoMap String ℚ) (ord : RangeOrder) :
    ((namedAmounts maps raw ord).map Prod.snd).sum = ((raw.range ord).map Prod.snd).sum := by
  rw [namedAmounts, List.map_map]
  rfl

theorem ClassMaps.Named.labels_nodup (h : maps.Named)
    (hraw : ∀ e ∈ raw.range ord, NamesClass maps.byName e.1 ∧ 0 < e.2) :
    ((raw.range ord).map (labelOf maps.byName)).Nodup := by
  have hnames := range_keys_nodup ord raw
  rw [List.Nodup, List.pairwise_map] at hnames ⊢
  refine hnames.imp_of_mem ?_
  intro e e' he he' hne hlabel
  exact hne (h.labelOf_inj (hraw e he).1 (hraw e' he').1 hlabel)

def leftOver (raw : GoMap String ℚ) (ord : RangeOrder) (reservation : ℚ) : ℚ :=
  reservation - ((raw.range ord).map Prod.snd).sum

/-- A loop over the split that is accepted meets the amounts of the file, and the remainder
if there is one. -/
theorem range_resolveSiteClasses_perm (hnamed : maps.Named)
    (h : resolveSiteClasses ord raw reservation maps.byName = .ok out) (ord' : RangeOrder) :
    (out.range ord').Perm (if classMbpsTolerance < leftOver raw ord reservation then
      (defaultClassLabel, leftOver raw ord reservation) :: namedAmounts maps raw ord
      else namedAmounts maps raw ord) := by
  obtain ⟨hraw, -, rfl⟩ := resolveSiteClasses_eq_ok.mp h
  have hlabels := hnamed.labels_nodup hraw
  have hperm := @range_storeEach_perm _ _ _ _ _ Prod.snd _ hlabels ord'
  unfold leftOver
  split_ifs with hrest
  · refine (range_insert_perm ?_ _ ord' ord').trans (hperm.cons _)
    rw [Option.eq_none_iff_forall_ne_some]
    intro mbps hmbps
    obtain ⟨e, he, hlabel, -⟩ := (lookup_storeEach_iff_of_nodup hlabels).mp hmbps
    exact labelOf_ne (hraw e he).1 hlabel
  · exact hperm

theorem mem_namedAmounts (hnamed : maps.Named)
    (h : resolveSiteClasses ord raw reservation maps.byName = .ok out) {e : Label × ℚ}
    (he : e ∈ namedAmounts maps raw ord) :
    e.1 ≠ defaultClassLabel ∧ 0 < e.2 ∧ ∃ c, maps.byLabel.lookup e.1 = some c := by
  obtain ⟨hraw, -, -⟩ := resolveSiteClasses_eq_ok.mp h
  obtain ⟨e, hmem, rfl⟩ := List.mem_map.mp he
  obtain ⟨hclass, hpos⟩ := hraw e hmem
  refine ⟨labelOf_ne hclass, hpos, ?_⟩
  obtain ⟨c, hc, -⟩ := hclass
  dsimp only
  rw [labelOf_of_lookup hc]
  exact ⟨c, (hnamed.byLabel _ c hc).2⟩

/-- The amount of a class other than the default one is that of its name in the file. -/
theorem lookup_resolveSiteClasses (hnamed : maps.Named)
    (h : resolveSiteClasses ord raw reservation maps.byName = .ok out) {label : Label} {mbps : ℚ}
    (hlabel : label ≠ defaultClassLabel) :
    out.lookup label = some mbps ↔
      ∃ c, maps.byLabel.lookup label = some c ∧ raw.lookup c.name = some mbps := by
  have hmem : out.lookup label = some mbps ↔ (label, mbps) ∈ namedAmounts maps raw ord := by
    rw [← mem_range .listed, (range_resolveSiteClasses_perm hnamed h .listed).mem_iff]
    split_ifs
    · rw [List.mem_cons, or_iff_right]
      exact fun heq => hlabel (congrArg Prod.fst heq)
    · rfl
  obtain ⟨hraw, -, -⟩ := resolveSiteClasses_eq_ok.mp h
  rw [hmem, namedAmounts, List.mem_map]
  constructor
  · rintro ⟨e, he, heq⟩
    obtain ⟨rfl, rfl⟩ := Prod.mk.inj heq
    obtain ⟨c, hc, -⟩ := (hraw e he).1
    obtain ⟨hname, hlookup⟩ := hnamed.byLabel e.1 c hc
    rw [labelOf_of_lookup hc]
    exact ⟨c, hlookup, hname ▸ (mem_range _ _ _ _).mp he⟩
  · rintro ⟨c, hc, hlookup⟩
    refine ⟨(c.name, mbps), (mem_range _ _ _ _).mpr hlookup, ?_⟩
    rw [labelOf_of_lookup (hnamed.byName label c hc), maps.byLabel_label label c hc]

theorem leftOver_eq (maps : ClassMaps) (raw : GoMap String ℚ) (ord : RangeOrder)
    (reservation : ℚ) : leftOver raw ord reservation =
      reservation - ((namedAmounts maps raw ord).map Prod.snd).sum := by
  rw [sum_namedAmounts, leftOver]

/-- An amount of a site is one of the file or the rest. -/
theorem lookup_resolveSiteClasses_cases (hnamed : maps.Named)
    (h : resolveSiteClasses ord raw reservation maps.byName = .ok out) {label : Label} {mbps : ℚ}
    (hlookup : out.lookup label = some mbps) :
    (label, mbps) ∈ namedAmounts maps raw ord ∨
      classMbpsTolerance < leftOver raw ord reservation ∧ label = defaultClassLabel ∧
        mbps = leftOver raw ord reservation := by
  rw [← mem_range .listed, (range_resolveSiteClasses_perm hnamed h .listed).mem_iff]
    at hlookup
  split_ifs at hlookup with hrest
  · rcases List.mem_cons.mp hlookup with heq | hlookup
    · exact Or.inr ⟨hrest, congrArg Prod.fst heq, congrArg Prod.snd heq⟩
    · exact Or.inl hlookup
  · exact Or.inl hlookup

theorem sum_named_resolveSiteClasses (hnamed : maps.Named)
    (h : resolveSiteClasses ord raw reservation maps.byName = .ok out) (ord' : RangeOrder) :
    (((out.range ord').filter fun e => e.1 ≠ defaultClassLabel).map Prod.snd).sum =
      ((namedAmounts maps raw ord).map Prod.snd).sum := by
  have hfilter : ((namedAmounts maps raw ord).filter fun e => e.1 ≠ defaultClassLabel) =
      namedAmounts maps raw ord := by
    rw [List.filter_eq_self]
    intro e he
    exact decide_eq_true (mem_namedAmounts hnamed h he).1
  rw [(((range_resolveSiteClasses_perm hnamed h ord').filter _).map Prod.snd).sum_eq]
  split_ifs with hrest
  · rw [List.filter_cons_of_neg (by simp), hfilter]
  · rw [hfilter]

theorem split_of_resolveSiteClasses (hsound : maps.Sound) (hnamed : maps.Named)
    (h : resolveSiteClasses ord raw reservation maps.byName = .ok out) :
    Split maps.byLabel out reservation := by
  have hperm := range_resolveSiteClasses_perm hnamed h
  have hleft := leftOver_eq maps raw ord reservation
  have htol := classMbpsTolerance_pos
  refine ⟨?_, ?_, ?_, ?_⟩
  · intro label mbps hlookup
    rcases lookup_resolveSiteClasses_cases hnamed h hlookup with he | ⟨hrest, -, rfl⟩
    · exact (mem_namedAmounts hnamed h he).2.1
    · exact htol.trans hrest
  · intro label mbps hlookup
    rcases lookup_resolveSiteClasses_cases hnamed h hlookup with he | ⟨-, rfl, -⟩
    · exact (mem_namedAmounts hnamed h he).2.2
    · exact ⟨_, hsound.default⟩
  · intro ord'
    have hle : -classMbpsTolerance ≤ leftOver raw ord reservation :=
      (resolveSiteClasses_eq_ok.mp h).2.1
    rw [((hperm ord').map Prod.snd).sum_eq]
    split_ifs with hrest
    · rw [List.map_cons, List.sum_cons, hleft, sub_add_cancel, sub_self, abs_zero]
      exact htol.le
    · rw [abs_le]
      rw [hleft] at hle hrest
      constructor <;> linarith
  · intro ord'
    simp only [sum_named_resolveSiteClasses hnamed h ord', ← hleft]
    split_ifs with hrest
    · rw [← mem_range .listed, (hperm .listed).mem_iff, if_pos hrest]
      exact List.mem_cons_self
    · rw [Option.eq_none_iff_forall_ne_some]
      intro mbps hlookup
      rcases lookup_resolveSiteClasses_cases hnamed h hlookup with he | ⟨hrest', -, -⟩
      · exact (mem_namedAmounts hnamed h he).1 rfl
      · exact hrest hrest'

end Split

section Sites

variable {parsePrefix : String → Option Prefix} {ords : LoadOrders}
  {classByName : GoMap String TrafficClass} {tierIndex : GoMap String ℤ} {maps : TenantMaps}
  {sites : List Site}

def siteRows (tenants : List RawTenant) : List (TenantID × RawSite) :=
  tenants.flatMap fun rc => rc.sites.map fun rs => (rc.id, rs)

structure TenantMaps.Checked (maps : TenantMaps) (sites : List Site) : Prop where
  ifIDs : (sites.map Site.ifID).Nodup
  seen : ∀ s ∈ sites, maps.seenIfID.lookup s.ifID ≠ none
  within : ∀ s ∈ sites, ∃ t, maps.byID.lookup s.tenantID = some t ∧
    prefixWithin t.allocation s.sitePrefix = true

theorem TenantMaps.checked_start : TenantMaps.start.Checked [] :=
  ⟨.nil, List.forall_mem_nil _, List.forall_mem_nil _⟩

variable {state : TenantMaps × List Site}

/-- The interfaces of the sites of one tenant join those that were taken, and its sites are
those of its rows and pass the checks. -/
theorem foldlM_loadSite_checked {id : TenantID} {allocation : Prefix} {rawSites : List RawSite}
    (hmaps : maps.Checked sites)
    (h : rawSites.foldlM (loadSite parsePrefix ords classByName id allocation) (maps, []) =
      .ok state) :
    ((sites ++ state.2).map Site.ifID).Nodup ∧
      (∀ s ∈ sites ++ state.2, state.1.seenIfID.lookup s.ifID ≠ none) ∧
      (∀ s ∈ state.2, s.tenantID = id ∧ prefixWithin allocation s.sitePrefix = true) ∧
      List.Forall₂ (SiteRead parsePrefix ords classByName) (rawSites.map fun rs => (id, rs))
        state.2 := by
  refine @foldlM_induction _ _ _ _ (fun done state =>
    ((sites ++ state.2).map Site.ifID).Nodup ∧
      (∀ s ∈ sites ++ state.2, state.1.seenIfID.lookup s.ifID ≠ none) ∧
      (∀ s ∈ state.2, s.tenantID = id ∧ prefixWithin allocation s.sitePrefix = true) ∧
      List.Forall₂ (SiteRead parsePrefix ords classByName) (done.map fun rs => (id, rs)) state.2)
    _ _ _ ?_ ?_ h
  · rw [List.append_nil]
    exact ⟨hmaps.ifIDs, hmaps.seen, List.forall_mem_nil _, .nil⟩
  · rintro done rs state state' - ⟨hnodup, hseen, hchecked, hrows⟩ hround
    obtain ⟨site, hsite, rfl⟩ := loadSite_eq_ok hround
    have hnew : site.ifID ∉ (sites ++ state.2).map Site.ifID := by
      intro hmem
      obtain ⟨s, hs, heq⟩ := List.mem_map.mp hmem
      exact hseen s hs (heq ▸ hsite.ifID_free)
    dsimp only
    rw [← List.append_assoc]
    refine ⟨?_, ?_, ?_, ?_⟩
    · rw [List.map_append, List.map_singleton, ← List.concat_eq_append]
      exact hnodup.concat hnew
    · intro s hs
      simp only [TenantMaps.addSite]
      rw [lookup_insert_eq]
      split_ifs with heq
      · exact Option.some_ne_none _
      · rcases List.mem_append.mp hs with hs | hs
        · exact hseen s hs
        · exact absurd (congrArg Site.ifID (List.mem_singleton.mp hs)) heq
    · simp only [List.forall_mem_append, List.forall_mem_singleton]
      exact ⟨hchecked, hsite.tenantID, hsite.within⟩
    · rw [List.map_append]
      exact List.rel_append hrows (.cons hsite.toSiteRead .nil)

theorem TenantMaps.Checked.addTenant {rawSites : List RawSite}
    {tenant : Tenant} (hmaps : maps.Checked sites) (hfree : maps.byID.lookup tenant.id = none)
    (hbyID : state.1.byID = maps.byID)
    (h : rawSites.foldlM (loadSite parsePrefix ords classByName tenant.id tenant.allocation)
      (maps, []) = .ok state)
    (hsites : tenant.sites = state.2) :
    (state.1.addTenant tenant).Checked (sites ++ tenant.sites) := by
  obtain ⟨hnodup, hseen, hchecked, -⟩ := foldlM_loadSite_checked hmaps h
  rw [← hsites] at hnodup hseen hchecked
  refine ⟨hnodup, hseen, ?_⟩
  intro s hs
  simp only [TenantMaps.addTenant, hbyID]
  rw [lookup_insert_eq]
  rcases List.mem_append.mp hs with hs | hs
  · obtain ⟨t, ht, hwithin⟩ := hmaps.within s hs
    rw [if_neg]
    · exact ⟨t, ht, hwithin⟩
    · intro heq
      rw [heq, hfree] at ht
      cases ht
  · obtain ⟨hown, hwithin⟩ := hchecked s hs
    rw [if_pos hown]
    exact ⟨tenant, rfl, hwithin⟩

/-- What the rows of tenants come to. -/
structure TenantMaps.Reads (maps : TenantMaps) (parsePrefix : String → Option Prefix)
    (ords : LoadOrders) (classByName : GoMap String TrafficClass) (tiers : List RawTier)
    (rows : List RawTenant) (tenants : List Tenant) (sites : List Site) : Prop where
  rowsOfTenants : List.Forall₂ (TenantOfRow parsePrefix tiers) rows tenants
  byID : ∀ id t, maps.byID.lookup id = some t ↔ t ∈ tenants ∧ t.id = id
  rowsOfSites : List.Forall₂ (SiteRead parsePrefix ords classByName) (siteRows rows) sites

theorem TenantMaps.reads_start (tiers : List RawTier) :
    TenantMaps.start.Reads parsePrefix ords classByName tiers [] [] [] :=
  ⟨.nil, fun id t => iff_of_false (lookup_empty_ne id t) fun h => List.not_mem_nil h.1, .nil⟩

theorem TenantMaps.Reads.addTenant {tiers : List RawTier} {rows : List RawTenant}
    {tenants : List Tenant} {rc : RawTenant} {tenant : Tenant}
    (hmaps : maps.Reads parsePrefix ords classByName tiers rows tenants sites)
    (hfree : maps.byID.lookup tenant.id = none) (hbyID : state.1.byID = maps.byID)
    (hrow : TenantOfRow parsePrefix tiers rc tenant)
    (hsites : List.Forall₂ (SiteRead parsePrefix ords classByName)
      (rc.sites.map fun rs => (rc.id, rs)) tenant.sites) :
    (state.1.addTenant tenant).Reads parsePrefix ords classByName tiers (rows ++ [rc])
      (tenants ++ [tenant]) (sites ++ tenant.sites) := by
  refine ⟨List.rel_append hmaps.rowsOfTenants (.cons hrow .nil), ?_, ?_⟩
  · intro id t
    simp only [TenantMaps.addTenant, hbyID, lookup_insert_eq, List.mem_append,
      List.mem_singleton]
    split_ifs with hid
    · subst hid
      constructor
      · rintro ⟨⟩
        exact ⟨Or.inr rfl, rfl⟩
      · rintro ⟨hold | rfl, heq⟩
        · have hsome := (hmaps.byID _ _).mpr ⟨hold, heq⟩
          rw [hfree] at hsome
          cases hsome
        · rfl
    · rw [hmaps.byID]
      constructor
      · rintro ⟨ht, heq⟩
        exact ⟨Or.inl ht, heq⟩
      · rintro ⟨ht | rfl, heq⟩
        · exact ⟨ht, heq⟩
        · exact absurd heq.symm hid
  · have hconcat : siteRows (rows ++ [rc]) =
        siteRows rows ++ rc.sites.map fun rs => (rc.id, rs) := by
      simp [siteRows]
    rw [hconcat]
    exact List.rel_append hmaps.rowsOfSites hsites

theorem foldlM_loadTenant {tiers : List RawTier} {rows : List RawTenant}
    (htiers : parseTiers tiers = .ok tierIndex)
    (h : rows.foldlM (loadTenant parsePrefix ords classByName tierIndex) .start = .ok maps) :
    ∃ tenants sites, maps.Sound sites ∧ maps.Checked sites ∧
      maps.Reads parsePrefix ords classByName tiers rows tenants sites := by
  refine @foldlM_induction _ _ _ _ (fun done maps => ∃ tenants sites, maps.Sound sites ∧
    maps.Checked sites ∧ maps.Reads parsePrefix ords classByName tiers done tenants sites)
    _ _ _ ⟨[], [], TenantMaps.sound_start, TenantMaps.checked_start, TenantMaps.reads_start tiers⟩
    ?_ h
  rintro done rc maps maps' - ⟨tenants, sites, hsound, hchecked, hreads⟩ hround
  obtain ⟨state, tenant, hfree, hstate, hrow, htenant, rfl⟩ := loadTenant_eq_ok htiers hround
  have hbyID := (foldlM_loadSite hsound.indexes hstate).1
  have hrows := (foldlM_loadSite_checked hchecked hstate).2.2.2
  refine ⟨tenants ++ [tenant], _, hsound.addTenant hfree hstate hrow.id htenant, ?_, ?_⟩
  · rw [← hrow.id] at hfree hstate
    exact hchecked.addTenant hfree hbyID hstate htenant
  · rw [← htenant] at hrows
    exact hreads.addTenant (hrow.id.symm ▸ hfree) hbyID hrow hrows

end Sites

/-- The repository holds the sites of a list, in all its indexes, and they are in order. -/
structure TenantRepository.Consistent (r : TenantRepository) (sites : List Site) : Prop where
  ifIDs : (sites.map Site.ifID).Nodup
  identities : (sites.map Site.identity).Nodup
  portalIDs : (sites.map Site.portalID).Nodup
  owner : ∀ s ∈ sites, ∃ t, r.byID.lookup s.tenantID = some t
  byID : ∀ id t, r.byID.lookup id = some t → t.sites = sites.filter fun s => s.tenantID = id
  byIdentity : ∀ identity s,
    r.byIdentity.lookup identity = some s ↔ s ∈ sites ∧ s.identity = identity
  byPortalID : ∀ portalID s,
    r.byPortalID.lookup portalID = some s ↔ s ∈ sites ∧ s.portalID = portalID
  byPop : ∀ pop, r.byPop.lookup pop =
    if (sites.filter fun s => s.attach = pop) = [] then none
    else some (sites.filter fun s => s.attach = pop)
  within : ∀ s ∈ sites, ∃ t, r.byID.lookup s.tenantID = some t ∧
    addresses s.sitePrefix ⊆ addresses t.allocation
  split : ∀ s ∈ sites, Split r.classes s.classMbps s.reservationMbps
  codepoints : ∀ l l' c c', r.classes.lookup l = some c → r.classes.lookup l' = some c' →
    ∀ value ∈ c.dscp, value ∈ c'.dscp → l = l'

structure SiteOfRow (parsePrefix : String → Option Prefix) (classes : GoMap Label TrafficClass)
    (row : TenantID × RawSite) (site : Site) : Prop extends SiteFields parsePrefix row site where
  amounts : ∀ label mbps, label ≠ defaultClassLabel →
    (site.classMbps.lookup label = some mbps ↔
      ∃ c, classes.lookup label = some c ∧ row.2.classes.lookup c.name = some mbps)

/-- The repository holds the classes, tenants and sites of the rows of a file, row by row, beside
the default class. -/
structure TenantRepository.Holds (r : TenantRepository) (parsePrefix : String → Option Prefix)
    (raw : RawTenantDB) (sites : List Site) : Prop where
  classes : ∃ classes, List.Forall₂ ClassOfRow raw.classes classes ∧
    ∀ l c, r.classes.lookup l = some c ↔ (c = defaultClass ∨ c ∈ classes) ∧ c.label = l
  tenants : ∃ tenants, List.Forall₂ (TenantOfRow parsePrefix raw.tiers) raw.tenants tenants ∧
    ∀ id t, r.byID.lookup id = some t ↔ t ∈ tenants ∧ t.id = id
  sites : List.Forall₂ (SiteOfRow parsePrefix r.classes) (siteRows raw.tenants) sites

section Load

variable {parsePrefix : String → Option Prefix} {ords : LoadOrders}

theorem load_consistent {raw : RawTenantDB} {r : TenantRepository}
    (h : load parsePrefix ords raw = .ok r) :
    ∃ sites, r.Holds parsePrefix raw sites ∧ r.Consistent sites := by
  obtain ⟨classes, hclasses, h⟩ := bind_eq_ok.mp h
  obtain ⟨tierIndex, htiers, h⟩ := bind_eq_ok.mp h
  obtain ⟨maps, hmaps, h⟩ := bind_eq_ok.mp h
  cases h
  have hsound := parseTrafficClasses_sound hclasses
  have hnamed := parseTrafficClasses_named hclasses
  obtain ⟨tenants, sites, ⟨hindexes, htenants⟩, hchecked, hreads⟩ :=
    foldlM_loadTenant htiers hmaps
  refine ⟨sites,
    ⟨parseTrafficClasses_rows hclasses, ⟨tenants, hreads.rowsOfTenants, hreads.byID⟩, ?_⟩,
    ⟨hchecked.ifIDs, hindexes.identities, hindexes.portals, htenants.owner, htenants.sites_eq,
      ?_, ?_, ?_, ?_, ?_, ?_⟩⟩
  · refine hreads.rowsOfSites.imp fun row s hread => ⟨hread.toSiteFields, ?_⟩
    intro label mbps hlabel
    exact lookup_resolveSiteClasses hnamed hread.resolved hlabel
  · intro identity s
    dsimp only
    rw [hindexes.byIdentity_eq, lookup_collect_iff_of_nodup hindexes.identities]
  · intro portalID s
    dsimp only
    rw [hindexes.byPortalID_eq, lookup_collect_iff_of_nodup hindexes.portals]
  · intro pop
    dsimp only
    rw [hindexes.byPop_eq, lookup_group]
  · intro s hs
    obtain ⟨t, ht, hwithin⟩ := hchecked.within s hs
    exact ⟨t, ht, addresses_subset_of_prefixWithin hwithin⟩
  · intro s hs
    obtain ⟨row, -, hread⟩ := Table.exists_of_forall₂ hreads.rowsOfSites hs
    exact split_of_resolveSiteClasses hsound hnamed hread.resolved
  · intro l l' c c' hl hl' value hvalue hvalue'
    exact hnamed.eq_of_mem_dscp hl hl' hvalue hvalue'

inductive LoadFailure
  | unreadable (text : String)
  | refused (error : LoadError)

def loadInPlace (parsePrefix : String → Option Prefix) (ords : LoadOrders)
    (file : Except String RawTenantDB) : InPlace TenantRepository LoadFailure Unit := do
  let raw ← InPlace.lift (file.mapError .unreadable)
  let classes ← InPlace.lift ((parseTrafficClasses ords raw.classes).mapError .refused)
  let tierIndex ← InPlace.lift ((parseTiers raw.tiers).mapError .refused)
  let maps ← InPlace.lift ((raw.tenants.foldlM
    (loadTenant parsePrefix ords classes.byName tierIndex) .start).mapError .refused)
  modify fun r => { r with classes := classes.byLabel, classes_label := classes.byLabel_label }
  modify fun r => { r with byID := maps.byID, byID_id := maps.byID_id }
  modify fun r => { r with byIdentity := maps.byIdentity }
  modify fun r =>
    { r with byPortalID := maps.byPortalID, byPortalID_portalID := maps.byPortalID_portalID }
  modify fun r => { r with byPop := maps.byPop }

theorem exec_loadInPlace (r : TenantRepository) (file : Except String RawTenantDB) :
    (loadInPlace parsePrefix ords file).exec r =
      match file with
      | .error text => (.error (.unreadable text), r)
      | .ok raw =>
        match load parsePrefix ords raw with
        | .error error => (.error (.refused error), r)
        | .ok r' => (.ok (), r') := by
  unfold loadInPlace
  cases file with
  | error text => exact InPlace.exec_bind_of_error (InPlace.exec_lift _ r)
  | ok raw =>
    refine (InPlace.exec_bind_of_ok (InPlace.exec_lift _ r)).trans ?_
    dsimp only
    unfold load
    cases hclasses : parseTrafficClasses ords raw.classes with
    | error error => exact InPlace.exec_bind_of_error (InPlace.exec_lift _ r)
    | ok classes =>
      refine (InPlace.exec_bind_of_ok (InPlace.exec_lift _ r)).trans ?_
      rw [ok_bind]
      cases htiers : parseTiers raw.tiers with
      | error error => exact InPlace.exec_bind_of_error (InPlace.exec_lift _ r)
      | ok tierIndex =>
        refine (InPlace.exec_bind_of_ok (InPlace.exec_lift _ r)).trans ?_
        rw [ok_bind]
        cases hmaps : raw.tenants.foldlM
            (loadTenant parsePrefix ords classes.byName tierIndex) .start with
        | error error => exact InPlace.exec_bind_of_error (InPlace.exec_lift _ r)
        | ok maps =>
          exact InPlace.exec_bind_of_ok (InPlace.exec_lift _ r)

end Load

def newTenantRepository : TenantRepository where
  classes := ∅
  byID := ∅
  byIdentity := ∅
  byPortalID := ∅
  byPop := ∅
  classes_label := forall_lookup_empty _
  byID_id := TenantMaps.start_id
  byPortalID_portalID := TenantMaps.start_portalID

end Maeto.ControlPlane
