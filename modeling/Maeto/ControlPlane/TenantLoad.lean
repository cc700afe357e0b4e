import Maeto.ControlPlane.Tenants
import Maeto.Foundation.Result

/-!
# Loading the tenants from the generated file

`Load` reads the tenant database that the generator has written, after `json.Unmarshal`
has given it its types. It refuses a class, a tier, a tenant or a site that clashes with
one before it, and a site whose classes reserve more than the site has. Errors keep the
data of their messages.

Prefixes are read by `netip.ParsePrefix`, which is the parameter `parsePrefix` here.
-/

namespace Maeto.ControlPlane

open Foundation Netip GoMap

structure RawTrafficClass where
  name : String
  label : Label
  index : ℤ
  dscp : List ℤ
  objective : GoMap String ℚ

structure RawTier where
  name : String
  index : ℤ

structure RawSite where
  cpe : String
  portalID : String
  node : String
  sitePrefix : String
  attach : String
  attachNode : String
  ifID : UInt32
  identity : String
  reservationMbps : ℚ
  classes : GoMap String ℚ

structure RawTenant where
  id : TenantID
  allocation : String
  tier : String
  vrfTable : ℤ
  sites : List RawSite

structure RawTenantDB where
  classes : List RawTrafficClass
  tiers : List RawTier
  tenants : List RawTenant

inductive LoadError
  | classUnnamed (label : Label)
  | classNameUsed (name : String) (owner : Label)
  | classLabelUsed (name : String) (label : Label) (owner : String)
  | classIndexTooSmall (name : String)
  | classIndexUsed (name : String) (index : ℤ) (owner : String)
  | classNoObjective (name : String)
  | unknownDimension (name dim : String)
  | weightNotPositive (name dim : String)
  | classMatchesNothing (name : String)
  | dscpOutside (name : String) (dscp : ℤ)
  | dscpIsUnmarked (name : String) (dscp : ℤ)
  | dscpUsed (name : String) (dscp : ℤ) (owner : String)
  | tierUnnamed (index : ℤ)
  | tierDuplicate (name : String)
  | tierIndexTooSmall (name : String)
  | tierIndexUsed (name : String) (index : ℤ) (owner : String)
  | tenantDuplicate (id : TenantID)
  | allocationInvalid (id : TenantID) (text : String)
  | prefixInvalid (id : TenantID) (cpe text : String)
  | prefixOutside (id : TenantID) (cpe : String) (sitePrefix allocation : Prefix)
  | ifIDUsed (ifID : UInt32) (owner identity : String)
  | identityDuplicate (identity : String)
  | portalIDUsed (portalID owner identity : String)
  | unknownClass (name : String)
  | classImplicit
  | reservationNotPositive (name : String)
  | overReserved (carved reservation : ℚ)
  | atSite (id : TenantID) (cpe : String) (error : LoadError)

def check (condition : Prop) [Decidable condition] (error : LoadError) : Except LoadError Unit :=
  if condition then .ok () else .error error

theorem check_eq_ok {condition : Prop} [Decidable condition] {error : LoadError} {u : Unit} :
    check condition error = .ok u ↔ condition := by
  unfold check
  split_ifs with h
  · exact iff_of_true rfl h
  · exact iff_of_false (fun h => nomatch h) h

def free {α : Type} (owner : Option α) (error : α → LoadError) : Except LoadError Unit :=
  match owner with
  | some owner => .error (error owner)
  | none => .ok ()

theorem free_eq_ok {α : Type} {owner : Option α} {error : α → LoadError} {u : Unit} :
    free owner error = .ok u ↔ owner = none := by
  cases owner with
  | none => exact iff_of_true rfl rfl
  | some owner => exact iff_of_false (fun h => nomatch h) (fun h => nomatch h)

/-! ### Classes -/

def defaultClassName : String := "default"
def defaultClassIndex : ℤ := 0
def unrankedTierIndex : ℤ := 0
def dscpUnmarked : ℤ := 0
def dscpMax : ℤ := 63

def toUpper (c : Char) : Char :=
  if c = Char.ofNat 0x131 then 'I' else if c = Char.ofNat 0x17f then 'S' else c.toUpper

def parseCostDimension (dim : String) : Option CostDimension :=
  [.latency, .jitter, .loss].find? fun d : CostDimension =>
    d.name = String.ofList (dim.toList.map toUpper)

abbrev Weights := {m : GoMap CostDimension ℚ // ∀ dim w, m.lookup dim = some w → 0 < w}

theorem noWeights_pos (dim : CostDimension) (w : ℚ)
    (h : (∅ : GoMap CostDimension ℚ).lookup dim = some w) : 0 < w :=
  absurd h (lookup_empty_ne dim w)

def noWeights : Weights := ⟨∅, noWeights_pos⟩

def addWeight (name : String) (weights : Weights) (e : String × ℚ) : Except LoadError Weights :=
  match parseCostDimension e.1 with
  | none => .error (.unknownDimension name e.1)
  | some dim =>
    if hpos : 0 < e.2 then
      .ok ⟨weights.1.insert dim e.2, by
        intro dim' w h
        rw [lookup_insert_eq] at h
        split_ifs at h
        · cases h
          exact hpos
        · exact weights.2 dim' w h⟩
    else .error (.weightNotPositive name e.1)

def addCodepoint (name : String) (state : List ℤ × GoMap ℤ String) (value : ℤ) :
    Except LoadError (List ℤ × GoMap ℤ String) := do
  check (0 ≤ value ∧ value ≤ dscpMax) (.dscpOutside name value)
  check (value ≠ dscpUnmarked) (.dscpIsUnmarked name value)
  free (state.2.lookup value) fun owner => .dscpUsed name value owner
  .ok (state.1 ++ [value], state.2.insert value name)

def parseClassMatch (name : String) (raw : List ℤ) (byDSCP : GoMap ℤ String) :
    Except LoadError (List ℤ × GoMap ℤ String) := do
  check (raw ≠ []) (.classMatchesNothing name)
  let state ← raw.foldlM (addCodepoint name) ([], byDSCP)
  .ok (state.1.insertionSort (· ≤ ·), state.2)

structure ClassMaps where
  byLabel : GoMap Label TrafficClass
  byName : GoMap String TrafficClass
  byIndex : GoMap ℤ String
  byDSCP : GoMap ℤ String
  byLabel_label : ∀ l c, byLabel.lookup l = some c → c.label = l

def defaultClass : TrafficClass where
  name := defaultClassName
  label := defaultClassLabel
  index := defaultClassIndex
  dscp := []
  objective := ∅
  objective_pos := noWeights_pos

def ClassMaps.start : ClassMaps where
  byLabel := (∅ : GoMap Label TrafficClass).insert defaultClassLabel defaultClass
  byName := (∅ : GoMap String TrafficClass).insert defaultClassName defaultClass
  byIndex := ∅
  byDSCP := ∅
  byLabel_label := by
    intro l c h
    rw [lookup_insert_eq] at h
    split_ifs at h with hl
    · cases h
      exact hl.symm
    · cases h

def ClassMaps.add (maps : ClassMaps) (c : TrafficClass) (byDSCP : GoMap ℤ String) :
    ClassMaps where
  byLabel := maps.byLabel.insert c.label c
  byName := maps.byName.insert c.name c
  byIndex := maps.byIndex.insert c.index c.name
  byDSCP := byDSCP
  byLabel_label := by
    intro l c' h
    rw [lookup_insert_eq] at h
    split_ifs at h with hl
    · cases h
      exact hl.symm
    · exact maps.byLabel_label l c' h

structure LoadOrders where
  objective : String → RangeOrder
  classes : String → RangeOrder

def LoadOrders.listed : LoadOrders := ⟨fun _ => .listed, fun _ => .listed⟩

def parseTrafficClass (ords : LoadOrders) (maps : ClassMaps) (rc : RawTrafficClass) :
    Except LoadError ClassMaps := do
  check (rc.name ≠ "") (.classUnnamed rc.label)
  free (maps.byName.lookup rc.name) fun owner => .classNameUsed rc.name owner.label
  free (maps.byLabel.lookup rc.label) fun owner => .classLabelUsed rc.name rc.label owner.name
  check (1 ≤ rc.index) (.classIndexTooSmall rc.name)
  free (maps.byIndex.lookup rc.index) fun owner => .classIndexUsed rc.name rc.index owner
  check (rc.objective.entries.isEmpty = false) (.classNoObjective rc.name)
  let weights ← (rc.objective.range (ords.objective rc.name)).foldlM (addWeight rc.name) noWeights
  let codepoints ← parseClassMatch rc.name rc.dscp maps.byDSCP
  .ok (maps.add
    { name := rc.name, label := rc.label, index := rc.index, dscp := codepoints.1,
      objective := weights.1, objective_pos := weights.2 } codepoints.2)

def parseTrafficClasses (ords : LoadOrders) (raw : List RawTrafficClass) :
    Except LoadError ClassMaps :=
  raw.foldlM (parseTrafficClass ords) .start

/-! ### Tiers -/

def parseTier (tiers : GoMap String ℤ × GoMap ℤ String) (rt : RawTier) :
    Except LoadError (GoMap String ℤ × GoMap ℤ String) := do
  check (rt.name ≠ "") (.tierUnnamed rt.index)
  free (tiers.1.lookup rt.name) fun _ => .tierDuplicate rt.name
  check (1 ≤ rt.index) (.tierIndexTooSmall rt.name)
  free (tiers.2.lookup rt.index) fun owner => .tierIndexUsed rt.name rt.index owner
  .ok (tiers.1.insert rt.name rt.index, tiers.2.insert rt.index rt.name)

def parseTiers (raw : List RawTier) : Except LoadError (GoMap String ℤ) := do
  let tiers ← raw.foldlM parseTier (∅, ∅)
  .ok tiers.1

/-! ### The classes of a site -/

def classMbpsTolerance : ℚ := 1 / 10 ^ 6

def carve (classByName : GoMap String TrafficClass) (state : GoMap Label ℚ × ℚ)
    (e : String × ℚ) : Except LoadError (GoMap Label ℚ × ℚ) :=
  match classByName.lookup e.1 with
  | none => .error (.unknownClass e.1)
  | some c => do
      check (c.label ≠ defaultClassLabel) .classImplicit
      check (0 < e.2) (.reservationNotPositive e.1)
      .ok (state.1.insert c.label e.2, state.2 + e.2)

def resolveSiteClasses (ord : RangeOrder) (raw : GoMap String ℚ) (reservation : ℚ)
    (classByName : GoMap String TrafficClass) : Except LoadError (GoMap Label ℚ) := do
  let carved ← (raw.range ord).foldlM (carve classByName) (∅, 0)
  let remainder := reservation - carved.2
  check (-classMbpsTolerance ≤ remainder) (.overReserved carved.2 reservation)
  .ok (if classMbpsTolerance < remainder then carved.1.insert defaultClassLabel remainder
    else carved.1)

/-! ### Tenants and sites -/

def contains (p : Prefix) (ip : Addr) : Bool :=
  match p.bits with
  | none => false
  | some b =>
    (p.ip.bitLen = ip.bitLen ∧ ip.isValid) ∧
      (Prefix.prefixFrom ip b).masked.ip = p.masked.ip

def prefixWithin (outer inner : Prefix) : Bool :=
  ((outer.bits.map (Nat.cast : ℕ → ℤ)).getD (-1) ≤ (inner.bits.map (Nat.cast : ℕ → ℤ)).getD (-1)) ∧
    contains outer inner.ip = true

structure TenantMaps where
  byID : GoMap TenantID Tenant
  byIdentity : GoMap String Site
  byPortalID : GoMap String Site
  byPop : GoMap String (List Site)
  seenIfID : GoMap UInt32 String
  byID_id : ∀ id t, byID.lookup id = some t → t.id = id
  byPortalID_portalID : ∀ p s, byPortalID.lookup p = some s → s.portalID = p

namespace TenantMaps

theorem start_id (id : TenantID) (t : Tenant) (h : (∅ : GoMap TenantID Tenant).lookup id = some t) :
    t.id = id :=
  absurd h (lookup_empty_ne id t)

theorem start_portalID (p : String) (s : Site) (h : (∅ : GoMap String Site).lookup p = some s) :
    s.portalID = p :=
  absurd h (lookup_empty_ne p s)

def start : TenantMaps where
  byID := ∅
  byIdentity := ∅
  byPortalID := ∅
  byPop := ∅
  seenIfID := ∅
  byID_id := start_id
  byPortalID_portalID := start_portalID

def addSite (maps : TenantMaps) (site : Site) : TenantMaps where
  byID := maps.byID
  byIdentity := maps.byIdentity.insert site.identity site
  byPortalID := maps.byPortalID.insert site.portalID site
  byPop := maps.byPop.insert site.attach (maps.byPop.getD site.attach [] ++ [site])
  seenIfID := maps.seenIfID.insert site.ifID site.identity
  byID_id := maps.byID_id
  byPortalID_portalID := by
    intro p s h
    rw [lookup_insert_eq] at h
    split_ifs at h with hp
    · cases h
      exact hp.symm
    · exact maps.byPortalID_portalID p s h

def addTenant (maps : TenantMaps) (tenant : Tenant) : TenantMaps where
  byID := maps.byID.insert tenant.id tenant
  byIdentity := maps.byIdentity
  byPortalID := maps.byPortalID
  byPop := maps.byPop
  seenIfID := maps.seenIfID
  byID_id := by
    intro id t h
    rw [lookup_insert_eq] at h
    split_ifs at h with hid
    · cases h
      exact hid.symm
    · exact maps.byID_id id t h
  byPortalID_portalID := maps.byPortalID_portalID

end TenantMaps

section Load

variable (parsePrefix : String → Option Prefix) (ords : LoadOrders)

def requirePrefix (text : String) (error : LoadError) : Except LoadError Prefix :=
  match parsePrefix text with
  | some p => .ok p
  | none => .error error

def loadSite (classByName : GoMap String TrafficClass) (id : TenantID) (allocation : Prefix)
    (state : TenantMaps × List Site) (rs : RawSite) :
    Except LoadError (TenantMaps × List Site) := do
  let sitePrefix ← requirePrefix parsePrefix rs.sitePrefix (.prefixInvalid id rs.cpe rs.sitePrefix)
  check (prefixWithin allocation sitePrefix = true) (.prefixOutside id rs.cpe sitePrefix allocation)
  free (state.1.seenIfID.lookup rs.ifID) fun owner => .ifIDUsed rs.ifID owner rs.identity
  free (state.1.byIdentity.lookup rs.identity) fun _ => .identityDuplicate rs.identity
  free (state.1.byPortalID.lookup rs.portalID) fun owner =>
    .portalIDUsed rs.portalID owner.identity rs.identity
  let classMbps ← (resolveSiteClasses (ords.classes rs.portalID) rs.classes rs.reservationMbps
    classByName).mapError (.atSite id rs.cpe)
  let site : Site :=
    { tenantID := id, cpe := rs.cpe, portalID := rs.portalID, node := rs.node,
      sitePrefix := sitePrefix, attach := rs.attach, attachNode := rs.attachNode,
      ifID := rs.ifID, identity := rs.identity, reservationMbps := rs.reservationMbps,
      classMbps := classMbps }
  .ok (state.1.addSite site, state.2 ++ [site])

def loadTenant (classByName : GoMap String TrafficClass) (tierIndex : GoMap String ℤ)
    (maps : TenantMaps) (rc : RawTenant) : Except LoadError TenantMaps := do
  free (maps.byID.lookup rc.id) fun _ => .tenantDuplicate rc.id
  let allocation ← requirePrefix parsePrefix rc.allocation (.allocationInvalid rc.id rc.allocation)
  let state ← rc.sites.foldlM (loadSite parsePrefix ords classByName rc.id allocation) (maps, [])
  .ok (state.1.addTenant
    { id := rc.id, allocation := allocation, tier := rc.tier,
      tierIndex := tierIndex.getD rc.tier unrankedTierIndex, vrfTable := rc.vrfTable,
      sites := state.2 })

def load (raw : RawTenantDB) : Except LoadError TenantRepository := do
  let classes ← parseTrafficClasses ords raw.classes
  let tierIndex ← parseTiers raw.tiers
  let maps ← raw.tenants.foldlM (loadTenant parsePrefix ords classes.byName tierIndex) .start
  .ok { classes := classes.byLabel, byID := maps.byID, byIdentity := maps.byIdentity,
        byPortalID := maps.byPortalID, byPop := maps.byPop,
        classes_label := classes.byLabel_label, byID_id := maps.byID_id,
        byPortalID_portalID := maps.byPortalID_portalID }

end Load

end Maeto.ControlPlane
