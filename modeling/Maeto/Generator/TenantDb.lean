import Mathlib.Tactic.NormNum
import Maeto.ControlPlane.TenantLoaded
import Maeto.Generator.Plain

/-!
# The tenant database of a topology

The generator writes the bandwidth of a site for each class, and the control plane checks
it again when it loads the file. An explicit split passes both checks. The split that a
tier's template makes is rounded amount by amount: an amount can be rounded to nothing, and
from three classes on the rounded amounts can exceed the reservation by more than the
loader tolerates (`resolveSiteClasses_rendered_iff`).
-/

namespace Maeto.Generator

open Foundation GoMap Result
open ControlPlane (Label LoadOrders RawTrafficClass ClassMaps classMbpsTolerance
  resolveSiteClasses parseTrafficClasses)

/-! ### Rendering -/

structure RenderedSite where
  cpe : String
  portalId : Yaml
  node : String
  sitePrefix : Network
  attach : String
  attachNode : Option String
  ifId : ℕ
  reservationMbps : ℚ
  classes : GoMap String ℚ
  identity : String

structure RenderedTenant where
  id : ℕ
  allocation : Network
  tier : String
  vrfTable : ℕ
  sites : List RenderedSite

structure RenderedTier where
  name : String
  index : ℕ

structure TenantDb where
  classes : List TrafficClass
  tiers : List RenderedTier
  tenants : List RenderedTenant

section Render

variable (text : Yaml → String)

def cpeIdentity (portalId : Yaml) : String := text portalId ++ ".cpe.maeto.net"

def renderSite (topo : Topology) (cp : Cpe × ℕ) : RenderedSite :=
  { cpe := cp.1.id, portalId := cp.1.portalId, node := cp.1.nodeName,
    sitePrefix := cp.1.sitePrefix, attach := cp.1.attach,
    attachNode := (topo.popById cp.1.attach).map Pop.nodeName, ifId := cp.2,
    reservationMbps := cp.1.reservationMbps, classes := cp.1.classMbps,
    identity := cpeIdentity text cp.1.portalId }

def renderTenants (topo : Topology) : ℕ → List Tenant → List RenderedTenant
  | _, [] => []
  | nextIfId, c :: tenants =>
    let cpes := topo.cpes.filter fun x => x.tenant = c.id
    { id := c.id, allocation := c.allocation, tier := c.tier, vrfTable := c.id,
      sites := (cpes.zipIdx nextIfId).map (renderSite text topo) } ::
      renderTenants topo (nextIfId + cpes.length) tenants

def renderTenantDb (topo : Topology) : TenantDb :=
  { classes := topo.classes.insertionSort fun c c' => c.label ≤ c'.label,
    tiers := (topo.tiers.insertionSort fun t t' => t.index ≤ t'.index).map fun t =>
      ⟨t.name, t.index⟩,
    tenants := renderTenants text topo 1 (topo.tenants.insertionSort fun c c' => c.id ≤ c'.id) }

theorem forall_renderTenants_iff {topo : Topology} {P : GoMap String ℚ → ℚ → Prop}
    {tenants : List Tenant} {nextIfId : ℕ} :
    (∀ t ∈ renderTenants text topo nextIfId tenants, ∀ s ∈ t.sites,
        P s.classes s.reservationMbps) ↔
      ∀ c ∈ tenants, ∀ cpe ∈ topo.cpes, cpe.tenant = c.id →
        P cpe.classMbps cpe.reservationMbps := by
  induction tenants generalizing nextIfId with
  | nil =>
    exact iff_of_true (List.forall_mem_nil _) (List.forall_mem_nil _)
  | cons c tenants ih =>
    rw [renderTenants, List.forall_mem_cons, List.forall_mem_cons, ih]
    refine and_congr_left fun _ => ?_
    constructor
    · intro hsites cpe hcpe htenant
      have hmem : cpe ∈ topo.cpes.filter fun x => x.tenant = c.id :=
        List.mem_filter.mpr ⟨hcpe, by simpa using htenant⟩
      rw [← List.zipIdx_map_fst nextIfId (topo.cpes.filter _)] at hmem
      obtain ⟨cp, hcp, rfl⟩ := List.mem_map.mp hmem
      exact hsites _ (List.mem_map_of_mem hcp)
    · intro hcpes s hs
      obtain ⟨cp, hcp, rfl⟩ := List.mem_map.mp hs
      have hmem := List.fst_mem_of_mem_zipIdx hcp
      obtain ⟨hcpe, htenant⟩ := List.mem_filter.mp hmem
      exact hcpes cp.1 hcpe (by simpa using htenant)

end Render

def decodeClass (c : TrafficClass) : Except String RawTrafficClass :=
  if c.label < 2 ^ 64 ∧ c.index < 2 ^ 63 then
    .ok { name := c.name, label := UInt64.ofNat c.label, index := c.index,
          dscp := c.dscp.map Int.ofNat, objective := c.objective }
  else .error s!"cannot unmarshal a number of class {c.name}"

theorem decodeClass_eq_ok {c : TrafficClass} {rc : RawTrafficClass}
    (h : decodeClass c = .ok rc) : rc.name = c.name := by
  unfold decodeClass at h
  split_ifs at h
  cases h
  rfl

/-! ### Rounded amounts -/

theorem round6_cases (q : ℚ) : ∃ low : ℤ,
    (round6 q = low / 10 ^ 6 ∧ (low : ℚ) ≤ q * 10 ^ 6 ∧ q * 10 ^ 6 ≤ low + 1 / 2) ∨
    (round6 q = (low + 1) / 10 ^ 6 ∧ (low : ℚ) + 1 / 2 ≤ q * 10 ^ 6 ∧ q * 10 ^ 6 < low + 1 ∧
      (q * 10 ^ 6 = low + 1 / 2 → low ≠ 0)) := by
  have hlow := Int.floor_le (q * 10 ^ 6)
  have hhigh := Int.lt_floor_add_one (q * 10 ^ 6)
  refine ⟨⌊q * 10 ^ 6⌋, ?_⟩
  unfold round6
  dsimp only
  split_ifs with hdown
  · refine Or.inl ⟨rfl, hlow, ?_⟩
    rcases hdown with hlt | ⟨heq, -⟩ <;> linarith
  · rw [not_or, not_lt] at hdown
    refine Or.inr ⟨by push_cast; rfl, by linarith, hhigh, fun htie hzero => hdown.2 ⟨?_, ?_⟩⟩
    · linarith
    · rw [hzero]
      rfl

theorem round6_pos_iff (q : ℚ) : 0 < round6 q ↔ 1 / 2 < q * 10 ^ 6 := by
  obtain ⟨low, ⟨hround, hlow, hhigh⟩ | ⟨hround, hlow, hhigh, htie⟩⟩ := round6_cases q
  · rw [hround, div_pos_iff_of_pos_right (by positivity), Int.cast_pos]
    constructor
    · intro hpos
      have hone : (1 : ℚ) ≤ low := by exact_mod_cast hpos
      linarith
    · intro hhalf
      by_contra hneg
      have hle : (low : ℚ) ≤ 0 := by exact_mod_cast not_lt.mp hneg
      linarith
  · have hsucc : (0 : ℚ) < low + 1 ↔ 0 ≤ low := by
      rw [← Int.lt_add_one_iff]
      exact_mod_cast Iff.rfl
    rw [hround, div_pos_iff_of_pos_right (by positivity), hsucc]
    constructor
    · intro hnonneg
      rcases eq_or_lt_of_le hnonneg with hzero | hpos
      · refine lt_of_le_of_ne (by rw [← hzero] at hlow; linarith) fun heq => ?_
        exact htie (by rw [← heq, ← hzero]; norm_num) hzero.symm
      · have hone : (1 : ℚ) ≤ low := by exact_mod_cast hpos
        linarith
    · intro hhalf
      exact hsucc.mp (by linarith)

theorem round6_le (q : ℚ) : round6 q ≤ q + classMbpsTolerance / 2 := by
  unfold classMbpsTolerance
  obtain ⟨low, ⟨hround, hlow, -⟩ | ⟨hround, hlow, -⟩⟩ := round6_cases q
  · rw [hround, div_le_iff₀ (by positivity)]
    linarith
  · rw [hround, div_le_iff₀ (by positivity)]
    linarith

/-! ### The split of a site -/

/-- A tier's template splits a reservation into amounts that the loader takes: each is
rounded to something, and together they exceed it by no more than the tolerance. -/
def Tier.Divides (tier : Tier) (reservation : ℚ) : Prop :=
  (∀ name share, tier.shares.lookup name = some share → 1 / 2 < share * reservation * 10 ^ 6) ∧
    ((tier.shares.range .listed).map fun e => round6 (e.2 * reservation)).sum ≤
      reservation + classMbpsTolerance

theorem Tier.divides_of_length_le_two {tier : Tier} {reservation : ℚ}
    (hreservation : 0 < reservation) (hlength : (tier.shares.range .listed).length ≤ 2)
    (htotal : total tier.shares ≤ 1)
    (hpos : ∀ name share, tier.shares.lookup name = some share →
      1 / 2 < share * reservation * 10 ^ 6) : tier.Divides reservation := by
  refine ⟨hpos, ?_⟩
  have hsum : ∀ l : List (String × ℚ), (l.map fun e => round6 (e.2 * reservation)).sum ≤
      (l.map Prod.snd).sum * reservation + l.length * (classMbpsTolerance / 2) := by
    intro l
    induction l with
    | nil => simp
    | cons e l ih =>
      have hround := round6_le (e.2 * reservation)
      simp only [List.map_cons, List.sum_cons, List.length_cons]
      push_cast
      linarith
  have hlen : ((tier.shares.range .listed).length : ℚ) ≤ 2 := by exact_mod_cast hlength
  have hle : total tier.shares * reservation ≤ reservation := by
    nlinarith
  have htolerance : 0 < classMbpsTolerance := by norm_num [classMbpsTolerance]
  calc ((tier.shares.range .listed).map fun e => round6 (e.2 * reservation)).sum
      ≤ total tier.shares * reservation +
        (tier.shares.range .listed).length * (classMbpsTolerance / 2) := hsum _
    _ ≤ reservation + classMbpsTolerance := by nlinarith

section Split

variable {classNames : List String} {place : String}

theorem of_lookup_classSplit {value : Option Yaml}
    {valueOf : Option Yaml → String → Except TopologyError ℚ} {split : GoMap String ℚ}
    (h : classSplit value classNames place valueOf = .ok split) {name : String} {amount : ℚ}
    (hlookup : split.lookup name = some amount) :
    name ∈ classNames ∧ ∃ entry place, valueOf entry place = .ok amount := by
  revert name amount
  unfold classSplit at h
  split at h
  · cases h
    intro name amount hlookup
    cases hlookup
  · cases h
    intro name amount hlookup
    cases hlookup
  · refine @foldlM_induction _ _ _ _ (fun _ split => ∀ {name : String} {amount : ℚ},
      split.lookup name = some amount →
        name ∈ classNames ∧ ∃ entry place, valueOf entry place = .ok amount) _ _ _ ?_ ?_ h
    · intro name amount hlookup
      cases hlookup
    · intro done entry out out' _ hout hround name amount hlookup
      split at hround
      · obtain ⟨_, hname, hround⟩ := bind_eq_ok.mp hround
        obtain ⟨value, hvalue, hround⟩ := bind_eq_ok.mp hround
        cases hround
        rw [lookup_insert_eq] at hlookup
        split_ifs at hlookup with heq
        · cases hlookup
          exact ⟨heq ▸ require_eq_ok.mp hname, _, _, hvalue⟩
        · exact hout hlookup
      · cases hround
  · cases h

theorem parseTiers_shares {root : Dict} {tiers : List Tier}
    (h : parseTiers root classNames = .ok tiers) :
    ∀ tier ∈ tiers, ∀ name share, tier.shares.lookup name = some share → name ∈ classNames := by
  obtain ⟨items, -, h⟩ := bind_eq_ok.mp h
  refine @collectM_induction _ _ _ _ (fun tiers => ∀ tier ∈ tiers, ∀ name share,
    tier.shares.lookup name = some share → name ∈ classNames)
    (List.forall_mem_nil _) ?_ _ _ h
  intro done i entry tier hdone hround other hother
  obtain ⟨name, -, hround⟩ := bind_eq_ok.mp hround
  obtain ⟨raw, -, hround⟩ := bind_eq_ok.mp hround
  obtain ⟨_, -, hround⟩ := bind_eq_ok.mp hround
  obtain ⟨shares, hshares, hround⟩ := bind_eq_ok.mp hround
  obtain ⟨_, -, hround⟩ := bind_eq_ok.mp hround
  obtain ⟨index, -, hround⟩ := bind_eq_ok.mp hround
  cases hround
  rcases List.mem_append.mp hother with hother | hother
  · exact hdone other hother
  · obtain rfl := List.mem_singleton.mp hother
    intro class' share hlookup
    exact (of_lookup_classSplit hshares hlookup).1

section Site

variable {raw : Dict} {reservation : ℚ} {tier : String} {tiers : List Tier}
  {classMbps : GoMap String ℚ}

theorem siteClassMbps_names
    (h : siteClassMbps raw reservation tier tiers classNames place = .ok classMbps)
    (htiers : ∀ tier ∈ tiers, ∀ name share, tier.shares.lookup name = some share →
      name ∈ classNames) {name : String} {amount : ℚ}
    (hlookup : classMbps.lookup name = some amount) : name ∈ classNames := by
  unfold siteClassMbps at h
  split at h
  · obtain ⟨split, hsplit, h⟩ := bind_eq_ok.mp h
    obtain ⟨_, -, h⟩ := bind_eq_ok.mp h
    cases h
    exact (of_lookup_classSplit hsplit hlookup).1
  · split at h
    · cases h
      cases hlookup
    · next template hfind =>
        cases h
        rw [lookup_copyInto, AList.lookup_empty, Option.or_none] at hlookup
        obtain ⟨share, hshare, -⟩ := Option.bind_eq_some_iff.mp hlookup
        exact htiers template (List.mem_of_find?_eq_some hfind) name share hshare

/-- The amounts that a tier's shares give a site fit its reservation exactly when the tier divides
it. -/
theorem Tier.divides_iff {template : Tier} {amounts : GoMap String ℚ}
    (hamounts : template.shares.copyInto .listed
      (fun _ share => some (round6 (share * reservation))) ∅ = amounts) :
    ((∀ name amount, amounts.lookup name = some amount → 0 < amount) ∧
        ((amounts.range .listed).map Prod.snd).sum ≤ reservation + classMbpsTolerance) ↔
      template.Divides reservation := by
  subst hamounts
  have hsum := ((range_copyInto_perm .listed .listed .listed
    (fun _ share => round6 (share * reservation)) template.shares).map Prod.snd).sum_eq
  rw [List.map_map] at hsum
  simp only [lookup_copyInto, AList.lookup_empty, Option.or_none, Tier.Divides,
    ← round6_pos_iff]
  rw [hsum]
  refine and_congr_left fun _ => ⟨?_, ?_⟩
  · intro hpos name share hshare
    exact hpos name _ (by rw [hshare]; rfl)
  · intro hpos name amount hamount
    obtain ⟨share, hshare, heq⟩ := Option.bind_eq_some_iff.mp hamount
    rw [← Option.some.inj heq]
    exact hpos name share hshare

/-- The split of a site satisfies the loader exactly when the template it comes from
divides the reservation; an explicit split always does. -/
theorem siteClassMbps_fits_iff (hreservation : 0 < reservation)
    (h : siteClassMbps raw reservation tier tiers classNames place = .ok classMbps) :
    ((∀ name amount, classMbps.lookup name = some amount → 0 < amount) ∧
        ((classMbps.range .listed).map Prod.snd).sum ≤ reservation + classMbpsTolerance) ↔
      (Dict.get raw "classes" = none →
        ∀ template, (tiers.find? fun t => t.name = tier) = some template →
          template.Divides reservation) := by
  have htolerance : 0 < classMbpsTolerance := by norm_num [classMbpsTolerance]
  unfold siteClassMbps at h
  split at h
  · next value hvalue =>
      refine iff_of_true ?_ fun hnone => absurd (hvalue.symm.trans hnone) (by simp)
      obtain ⟨split, hsplit, h⟩ := bind_eq_ok.mp h
      obtain ⟨_, htotal, h⟩ := bind_eq_ok.mp h
      cases h
      refine ⟨fun name amount hlookup => ?_, ?_⟩
      · obtain ⟨-, entry, place, hentry⟩ := of_lookup_classSplit hsplit hlookup
        exact mbps_eq_ok hentry
      · have hle : total classMbps ≤ reservation := require_eq_ok.mp htotal
        unfold total at hle
        linarith
  · next hnone =>
      simp only [hnone, true_imp_iff]
      split at h
      · next hfind =>
          cases h
          refine iff_of_true ⟨fun name amount hlookup => (nomatch hlookup), ?_⟩ ?_
          · change (0 : ℚ) ≤ _
            linarith
          · intro template htemplate
            exact absurd (hfind.symm.trans htemplate) (by simp)
      · next template hfind =>
          simp only [hfind, Option.some.injEq, forall_eq']
          exact Tier.divides_iff (Except.ok.inj h)

end Site

end Split

/-! ### The whole database -/

def cpeEntries (source : Yaml) : List Yaml :=
  match source with
  | .map root =>
    match optionalList root "cpes" with
    | .ok items => items
    | .error _ => []
  | _ => []

def Yaml.usesTemplate : Yaml → Prop
  | .map raw => Dict.get raw "classes" = none
  | _ => False

/-- The templates divide the reservations of the sites that use them. -/
def Topology.Divides (topo : Topology) (source : Yaml) : Prop :=
  ∀ e ∈ (cpeEntries source).zip topo.cpes, e.1.usesTemplate →
    ∀ tenant ∈ topo.tenants, tenant.id = e.2.tenant →
      ∀ template, (topo.tiers.find? fun t => t.name = tenant.tier) = some template →
        template.Divides e.2.reservationMbps

section Rendered

variable {ipNetwork : Yaml → IpNetwork} {text : Yaml → String} {topo : Topology}
  {rawClasses : List RawTrafficClass} {ords : LoadOrders} {maps : ClassMaps}

theorem exists_byName_rendered
    (hdecode : (renderTenantDb text topo).classes.mapM decodeClass = .ok rawClasses)
    (hclasses : parseTrafficClasses ords rawClasses = .ok maps) {name : String}
    (hname : name ∈ topo.classes.map TrafficClass.name) :
    ∃ c, maps.byName.lookup name = some c ∧ c.label ≠ ControlPlane.defaultClassLabel := by
  obtain ⟨c, hc, rfl⟩ := List.mem_map.mp hname
  have hsorted : c ∈ (renderTenantDb text topo).classes := (List.mem_insertionSort _).mpr hc
  obtain ⟨rc, hrc, hdecoded⟩ := exists_of_mapM_eq_ok hdecode hsorted
  rw [← decodeClass_eq_ok hdecoded]
  exact ControlPlane.parseTrafficClasses_byName hclasses hrc

theorem resolveSiteClasses_cpe_iff {popIds : List String} {cpes : List Cpe} {i : ℕ} {raw : Yaml}
    {cpe : Cpe} (htenants : (topo.tenants.map Tenant.id).Nodup)
    (htiers : ∀ tier ∈ topo.tiers, ∀ name share, tier.shares.lookup name = some share →
      name ∈ topo.classes.map TrafficClass.name)
    (hknown : ∀ name ∈ topo.classes.map TrafficClass.name,
      ∃ c, maps.byName.lookup name = some c ∧ c.label ≠ ControlPlane.defaultClassLabel)
    (hcpe : parseCpe ipNetwork popIds topo.tenants topo.tiers
      (topo.classes.map TrafficClass.name) cpes i raw = .ok cpe) (ord : RangeOrder) :
    (∃ out, resolveSiteClasses ord cpe.classMbps cpe.reservationMbps maps.byName = .ok out) ↔
      (raw.usesTemplate → ∀ tenant ∈ topo.tenants, tenant.id = cpe.tenant →
        ∀ template, (topo.tiers.find? fun t => t.name = tenant.tier) = some template →
          template.Divides cpe.reservationMbps) := by
  obtain ⟨-, hreservation, d, rfl, tenant, htenant, hid, place, hsplit⟩ := parseCpe_eq_ok hcpe
  have honly : ∀ other ∈ topo.tenants, other.id = cpe.tenant → other = tenant := by
    intro other hother heq
    exact List.inj_on_of_nodup_map htenants hother htenant (heq.trans hid.symm)
  rw [ControlPlane.resolveSiteClasses_isOk_iff fun name amount hlookup =>
    hknown name (siteClassMbps_names hsplit htiers hlookup),
    siteClassMbps_fits_iff hreservation hsplit]
  refine imp_congr_right fun _ => ?_
  constructor
  · intro hdivides other hother heq
    exact honly other hother heq ▸ hdivides
  · intro hdivides
    exact hdivides tenant htenant hid

end Rendered

def labClass (name : String) (label dscp : ℕ) : Yaml × Yaml :=
  (.str name, .map [(.str "label", .int label), (.str "index", .int label),
    (.str "match", .map [(.str "dscp", .list [.int dscp])]),
    (.str "objective", .map [(.str "latency", .int 1)])])

def siteSource (classes shares : List (Yaml × Yaml)) (reservation : ℚ) : Yaml :=
  .map [(.str "name", .str "lab"),
    (.str "defaults", .map [(.str "locator_prefix", .str "2001:db8::/32"),
      (.str "link_prefix", .str "2001:db8::/32"), (.str "edge_prefix", .str "2001:db8::/32")]),
    (.str "classes", .map classes),
    (.str "tiers", .map [(.str "gold",
      .map [(.str "index", .int 1), (.str "classes", .map shares)])]),
    (.str "pops", .list [plainPop "a"]),
    (.str "tenants", .list [.map [(.str "id", .int 1), (.str "allocation", .str "2001:db8::/32"),
      (.str "tier", .str "gold")]]),
    (.str "cpes", .list [.map [(.str "id", .str "c1"), (.str "attach", .str "a"),
      (.str "tenant", .int 1), (.str "prefix", .str "2001:db8::/32"),
      (.str "portal_id", .str "abcdefghijkl"),
      (.str "reservation_bandwidth", .float reservation)]])]

def voiceAndVideo : Yaml :=
  siteSource [labClass "voice" 1 46, labClass "video" 2 34]
    [(.str "voice", .float (5 / 10)), (.str "video", .float (3 / 10))] 100

def quarters : Yaml :=
  siteSource [labClass "a" 1 10, labClass "b" 2 12, labClass "c" 3 14, labClass "d" 4 18]
    [(.str "a", .float (25 / 100)), (.str "b", .float (25 / 100)), (.str "c", .float (25 / 100)),
      (.str "d", .float (25 / 100))] (10000006 / 1000000)

def loadLab (source : Yaml) : Option (Topology × List RawTrafficClass × ClassMaps) :=
  match parseTopology (fun _ => .v6 labPrefix) source with
  | .error _ => none
  | .ok topo =>
    match (renderTenantDb Yaml.shown topo).classes.mapM decodeClass with
    | .error _ => none
    | .ok rawClasses =>
      match parseTrafficClasses .listed rawClasses with
      | .error _ => none
      | .ok maps => some (topo, rawClasses, maps)

theorem loadLab_eq_some {source : Yaml} {topo : Topology} {rawClasses : List RawTrafficClass}
    {maps : ClassMaps} (h : loadLab source = some (topo, rawClasses, maps)) :
    parseTopology (fun _ => .v6 labPrefix) source = .ok topo ∧
      (renderTenantDb Yaml.shown topo).classes.mapM decodeClass = .ok rawClasses ∧
      parseTrafficClasses .listed rawClasses = .ok maps := by
  unfold loadLab at h
  split at h
  · cases h
  · next hparse =>
      split at h
      · cases h
      · next hdecode =>
          split at h
          · cases h
          · next hclasses =>
              cases h
              exact ⟨hparse, hdecode, hclasses⟩

/-- The loader accepts the splits of all sites that the generator has written exactly when
the templates divide the reservations. -/
theorem resolveSiteClasses_rendered_iff (ipNetwork : Yaml → IpNetwork) (text : Yaml → String)
    (source : Yaml) (topo : Topology) (rawClasses : List RawTrafficClass) (ords : LoadOrders)
    (maps : ClassMaps) (hparse : parseTopology ipNetwork source = .ok topo)
    (hdecode : (renderTenantDb text topo).classes.mapM decodeClass = .ok rawClasses)
    (hclasses : parseTrafficClasses ords rawClasses = .ok maps) :
    (∀ ord, ∀ tenant ∈ (renderTenantDb text topo).tenants, ∀ site ∈ tenant.sites,
      ∃ out, resolveSiteClasses ord site.classes site.reservationMbps maps.byName = .ok out) ↔
    topo.Divides source := by
  obtain ⟨root, rfl, -, htiers, htenants, hcpes, -⟩ := parseTopology_eq_ok hparse
  obtain ⟨items, hitems, hcpes⟩ := bind_eq_ok.mp hcpes
  obtain ⟨hlength, hmade⟩ := of_mem_zip_collectM hcpes
  have hnodup := parseTenants_nodup htenants
  have hshares := parseTiers_shares htiers
  have hknown := fun name (hname : name ∈ topo.classes.map TrafficClass.name) =>
    exists_byName_rendered hdecode hclasses hname
  unfold Topology.Divides
  rw [show cpeEntries (.map root) = items by rw [cpeEntries, hitems]]
  constructor
  · intro hall e he
    obtain ⟨done, i, hcpe⟩ := hmade e he
    obtain ⟨-, -, d, -, tenant, htenant, hid, -⟩ := parseCpe_eq_ok hcpe
    have hsorted := (List.mem_insertionSort fun c c' : Tenant => c.id ≤ c'.id).mpr htenant
    have hrendered := (forall_renderTenants_iff text (P := fun classes reservation =>
      ∃ out, resolveSiteClasses .listed classes reservation maps.byName = .ok out)).mp
        (hall .listed)
    exact (resolveSiteClasses_cpe_iff hnodup hshares hknown hcpe .listed).mp
      (hrendered tenant hsorted e.2 (List.of_mem_zip he).2 hid.symm)
  · intro hdivides ord
    refine (forall_renderTenants_iff text (P := fun classes reservation =>
      ∃ out, resolveSiteClasses ord classes reservation maps.byName = .ok out)).mpr ?_
    intro c _ cpe hcpe _
    have hzip : (items.zip topo.cpes).map Prod.snd = topo.cpes :=
      List.map_snd_zip (le_of_eq hlength.symm)
    rw [← hzip] at hcpe
    obtain ⟨e, he, rfl⟩ := List.mem_map.mp hcpe
    obtain ⟨done, i, hcpe⟩ := hmade e he
    exact (resolveSiteClasses_cpe_iff hnodup hshares hknown hcpe ord).mpr (hdivides e he)

theorem voiceAndVideo_accepted : ∃ topo rawClasses maps,
    loadLab voiceAndVideo = some (topo, rawClasses, maps) ∧
    ∀ ord, ∀ tenant ∈ (renderTenantDb Yaml.shown topo).tenants, ∀ site ∈ tenant.sites,
      ∃ out, resolveSiteClasses ord site.classes site.reservationMbps maps.byName = .ok out := by
  have hcheck : (loadLab voiceAndVideo).any (fun lab => lab.1.tiers.all fun tier =>
      lab.1.cpes.all fun cpe => 0 < cpe.reservationMbps &&
        ((tier.shares.range .listed).length ≤ 2 && (total tier.shares ≤ 1 &&
          (tier.shares.range .listed).all fun e =>
            1 / 2 < e.2 * cpe.reservationMbps * 10 ^ 6))) = true := by decide +kernel
  obtain ⟨⟨topo, rawClasses, maps⟩, hlab, hcheck⟩ := (Option.any_eq_true _ _).mp hcheck
  obtain ⟨hparse, hdecode, hclasses⟩ := loadLab_eq_some hlab
  refine ⟨topo, rawClasses, maps, hlab, ?_⟩
  refine (resolveSiteClasses_rendered_iff _ _ _ _ _ _ _ hparse hdecode hclasses).mpr ?_
  intro e he _ tenant _ _ template htemplate
  simp only [List.all_eq_true, Bool.and_eq_true, decide_eq_true_eq] at hcheck
  obtain ⟨hreservation, hlength, htotal, hpos⟩ := hcheck template
    (List.mem_of_find?_eq_some htemplate) e.2 (List.of_mem_zip he).2
  refine Tier.divides_of_length_le_two hreservation hlength htotal fun name share hshare => ?_
  exact hpos (name, share) ((mem_range _ _ _ _).mpr hshare)

/-- The quarters of 10.000006 Mbps are rounded up to 2.500002 Mbps each. -/
theorem quarters_refused : ∃ topo rawClasses maps,
    loadLab quarters = some (topo, rawClasses, maps) ∧
    ∃ tenant ∈ (renderTenantDb Yaml.shown topo).tenants, ∃ site ∈ tenant.sites,
      ¬ ∃ out, resolveSiteClasses .listed site.classes site.reservationMbps maps.byName =
        .ok out := by
  have hcheck : (loadLab quarters).any (fun lab =>
      (renderTenantDb Yaml.shown lab.1).tenants.any fun tenant => tenant.sites.any fun site =>
        !(resolveSiteClasses .listed site.classes site.reservationMbps
          lab.2.2.byName).isOk) = true := by decide +kernel
  obtain ⟨⟨topo, rawClasses, maps⟩, hlab, hcheck⟩ := (Option.any_eq_true _ _).mp hcheck
  refine ⟨topo, rawClasses, maps, hlab, ?_⟩
  obtain ⟨tenant, htenant, hcheck⟩ := List.any_eq_true.mp hcheck
  obtain ⟨site, hsite, hcheck⟩ := List.any_eq_true.mp hcheck
  refine ⟨tenant, htenant, site, hsite, ?_⟩
  rintro ⟨out, hout⟩
  rw [hout] at hcheck
  cases hcheck

end Maeto.Generator
