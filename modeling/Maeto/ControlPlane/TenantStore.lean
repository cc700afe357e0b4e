import Maeto.Foundation.Table
import Maeto.ControlPlane.TenantLoaded

/-!
# Tenants in the database

`SaveTo` flattens a repository into six tables, one statement after the other, and
`LoadFrom` builds a repository from their rows. Numbers are cast to the columns: labels and
interfaces to 64 bits, ids and indexes to 32 and codepoints to 16.

The server checks the constraints of the schema, and may refuse a statement for reasons of
its own (`refuse`). What it accepts it stores as it is, and a query returns the rows in the
order it asks for.
-/

namespace Maeto.ControlPlane

open Foundation Netip GoMap

structure TenantRow where
  id : Int32
  allocation : Prefix
  tier : String
  tierIndex : Int32
  vrfTable : Int32

structure SiteRow where
  portalID : String
  tenantID : Int32
  cpe : String
  node : String
  sitePrefix : Prefix
  attach : String
  attachNode : String
  ifID : Int64
  identity : String
  reservationMbps : ℚ

structure TrafficClassRow where
  label : Int64
  name : String
  classIndex : Int32

structure DSCPRow where
  label : Int64
  dscp : Int16

structure ObjectiveRow where
  label : Int64
  dimension : CostDimension
  weight : ℚ
  weight_pos : 0 < weight

def ObjectiveRow.key (row : ObjectiveRow) : Int64 × CostDimension := (row.label, row.dimension)

structure ReservationRow where
  portalID : String
  label : Int64
  mbps : ℚ

def ReservationRow.key (row : ReservationRow) : String × Int64 := (row.portalID, row.label)

structure Tables where
  tenants : List TenantRow
  sites : List SiteRow
  trafficClasses : List TrafficClassRow
  dscps : List DSCPRow
  objectives : List ObjectiveRow
  reservations : List ReservationRow

def Tables.empty : Tables := ⟨[], [], [], [], [], []⟩

inductive Statement
  | deleteAllTenants
  | deleteAllTrafficClasses
  | createTrafficClass (row : TrafficClassRow)
  | addTrafficClassDSCP (row : DSCPRow)
  | setTrafficClassObjective (row : ObjectiveRow)
  | createTenant (row : TenantRow)
  | createSite (row : SiteRow)
  | setSiteClassReservation (row : ReservationRow)

inductive StoreError
  | duplicateKey (constraint : String)
  | missingReference (constraint : String)
  | checkViolated (constraint : String)
  | invalidCidr (value : Prefix)
  | refused (text : String)
  | unknownTenant (portalID : String) (tenantID : Int32)

namespace Tables

def violation (db : Tables) : Statement → Option StoreError
  | .deleteAllTenants => none
  | .deleteAllTrafficClasses => none
  | .createTrafficClass row =>
    if row.label ∈ db.trafficClasses.map TrafficClassRow.label then
      some (.duplicateKey "traffic_classes_pkey")
    else if row.name ∈ db.trafficClasses.map TrafficClassRow.name then
      some (.duplicateKey "traffic_classes_name_key")
    else none
  | .addTrafficClassDSCP row =>
    if ¬ (0 ≤ row.dscp ∧ row.dscp ≤ 63) then
      some (.checkViolated "traffic_class_dscp_dscp_check")
    else if row.label ∉ db.trafficClasses.map TrafficClassRow.label then
      some (.missingReference "traffic_class_dscp_label_fkey")
    else if (row.label, row.dscp) ∈ db.dscps.map fun r => (r.label, r.dscp) then
      some (.duplicateKey "traffic_class_dscp_pkey")
    else none
  | .setTrafficClassObjective row =>
    if row.label ∉ db.trafficClasses.map TrafficClassRow.label then
      some (.missingReference "traffic_class_objectives_label_fkey")
    else none
  | .createTenant row =>
    if row.allocation.masked ≠ row.allocation then some (.invalidCidr row.allocation)
    else if row.id ∈ db.tenants.map TenantRow.id then some (.duplicateKey "tenants_pkey")
    else none
  | .createSite row =>
    if row.sitePrefix.masked ≠ row.sitePrefix then some (.invalidCidr row.sitePrefix)
    else if row.portalID ∈ db.sites.map SiteRow.portalID then
      some (.duplicateKey "sites_pkey")
    else if row.identity ∈ db.sites.map SiteRow.identity then
      some (.duplicateKey "sites_identity_key")
    else if row.tenantID ∉ db.tenants.map TenantRow.id then
      some (.missingReference "sites_tenant_id_fkey")
    else none
  | .setSiteClassReservation row =>
    if row.portalID ∉ db.sites.map SiteRow.portalID then
      some (.missingReference "site_class_reservations_portal_id_fkey")
    else if row.label ∉ db.trafficClasses.map TrafficClassRow.label then
      some (.missingReference "site_class_reservations_label_fkey")
    else none

def apply (db : Tables) : Statement → Tables
  | .deleteAllTenants =>
    let sites := db.sites.filter fun s => s.tenantID ∉ db.tenants.map TenantRow.id
    { db with tenants := [], sites := sites,
              reservations := db.reservations.filter fun r =>
                r.portalID ∈ sites.map SiteRow.portalID }
  | .deleteAllTrafficClasses =>
    let labels := db.trafficClasses.map TrafficClassRow.label
    { db with trafficClasses := [],
              dscps := db.dscps.filter fun r => r.label ∉ labels,
              objectives := db.objectives.filter fun r => r.label ∉ labels,
              reservations := db.reservations.filter fun r => r.label ∉ labels }
  | .createTrafficClass row => { db with trafficClasses := db.trafficClasses ++ [row] }
  | .addTrafficClassDSCP row => { db with dscps := db.dscps ++ [row] }
  | .setTrafficClassObjective row =>
    { db with objectives := Table.upsert ObjectiveRow.key db.objectives row }
  | .createTenant row => { db with tenants := db.tenants ++ [row] }
  | .createSite row => { db with sites := db.sites ++ [row] }
  | .setSiteClassReservation row =>
    { db with reservations := Table.upsert ReservationRow.key db.reservations row }

def exec (refuse : Statement → Option StoreError) (db : Tables) (s : Statement) :
    Except StoreError Tables :=
  match (refuse s).or (db.violation s) with
  | some error => .error error
  | none => .ok (db.apply s)

theorem exec_eq_ok {refuse : Statement → Option StoreError} {db db' : Tables} {s : Statement}
    (h : exec refuse db s = .ok db') : db' = db.apply s := by
  unfold exec at h
  split at h
  · cases h
  · cases h
    rfl

end Tables

/-! ### Saving -/

def TrafficClass.row (c : TrafficClass) : TrafficClassRow :=
  { label := c.label.toInt64, name := c.name, classIndex := Int32.ofInt c.index }

def TrafficClass.dscpRow (c : TrafficClass) (dscp : ℤ) : DSCPRow :=
  { label := c.label.toInt64, dscp := Int16.ofInt dscp }

def TrafficClass.objectiveRow (c : TrafficClass) (e : CostDimension × ℚ) (h : 0 < e.2) :
    ObjectiveRow :=
  { label := c.label.toInt64, dimension := e.1, weight := e.2, weight_pos := h }

def Tenant.row (t : Tenant) : TenantRow :=
  { id := Int32.ofInt t.id, allocation := t.allocation, tier := t.tier,
    tierIndex := Int32.ofInt t.tierIndex, vrfTable := Int32.ofInt t.vrfTable }

def Site.row (s : Site) : SiteRow :=
  { portalID := s.portalID, tenantID := Int32.ofInt s.tenantID, cpe := s.cpe, node := s.node,
    sitePrefix := s.sitePrefix, attach := s.attach, attachNode := s.attachNode,
    ifID := s.ifID.toUInt64.toInt64, identity := s.identity,
    reservationMbps := s.reservationMbps }

def Site.reservationRow (s : Site) (e : Label × ℚ) : ReservationRow :=
  { portalID := s.portalID, label := e.1.toInt64, mbps := e.2 }

structure SaveOrders where
  classes : RangeOrder
  objective : Label → RangeOrder
  tenants : RangeOrder
  classMbps : String → RangeOrder

def SaveOrders.listed : SaveOrders := ⟨.listed, fun _ => .listed, .listed, fun _ => .listed⟩

section Save

variable (ords : SaveOrders)

theorem TrafficClass.weight_pos (c : TrafficClass) (ord : RangeOrder) (e : CostDimension × ℚ)
    (h : e ∈ c.objective.range ord) : 0 < e.2 :=
  c.objective_pos e.1 e.2 ((mem_range ord c.objective e.1 e.2).mp h)

def TrafficClass.objectiveRows (c : TrafficClass) : List ObjectiveRow :=
  (c.objective.range (ords.objective c.label)).pmap c.objectiveRow
    (c.weight_pos (ords.objective c.label))

def TrafficClass.statements (c : TrafficClass) : List Statement :=
  .createTrafficClass c.row ::
    (c.dscp.map fun dscp => .addTrafficClassDSCP (c.dscpRow dscp)) ++
    (c.objectiveRows ords).map .setTrafficClassObjective

def Site.statements (s : Site) : List Statement :=
  .createSite s.row :: (s.classMbps.range (ords.classMbps s.portalID)).map fun e =>
    .setSiteClassReservation (s.reservationRow e)

def Tenant.statements (t : Tenant) : List Statement :=
  .createTenant t.row :: t.sites.flatMap (Site.statements ords)

def TenantRepository.statements (r : TenantRepository) : List Statement :=
  ((r.classes.range ords.classes).flatMap fun e => e.2.statements ords) ++
    (r.byID.range ords.tenants).flatMap fun e => e.2.statements ords

def saveTo (refuse : Statement → Option StoreError) (r : TenantRepository) (db : Tables) :
    Except StoreError Tables :=
  (.deleteAllTenants :: .deleteAllTrafficClasses :: r.statements ords).foldlM
    (Tables.exec refuse) db

end Save

/-! ### Loading -/

structure QueryOrders where
  classes : RangeOrder
  dscps : Int64 → RangeOrder
  objectives : Int64 → RangeOrder
  tenants : RangeOrder
  sites : RangeOrder
  reservations : String → RangeOrder

def QueryOrders.listed : QueryOrders :=
  ⟨.listed, fun _ => .listed, fun _ => .listed, .listed, .listed, fun _ => .listed⟩

namespace Tables

variable (db : Tables) (ords : QueryOrders)

def listTrafficClasses : List TrafficClassRow :=
  Table.orderBy ords.classes (fun r r' => r.classIndex ≤ r'.classIndex) db.trafficClasses

def listTrafficClassDSCP (label : Int64) : List DSCPRow :=
  Table.orderBy (ords.dscps label) (fun r r' => r.dscp ≤ r'.dscp)
    (db.dscps.filter fun r => r.label = label)

def listTrafficClassObjectives (label : Int64) : List ObjectiveRow :=
  Table.orderBy (ords.objectives label) (fun r r' => r.dimension.name ≤ r'.dimension.name)
    (db.objectives.filter fun r => r.label = label)

def listTenants : List TenantRow :=
  Table.orderBy ords.tenants (fun r r' => r.id ≤ r'.id) db.tenants

def listSites : List SiteRow :=
  Table.orderBy ords.sites
    (fun r r' => r.tenantID < r'.tenantID ∨ r.tenantID = r'.tenantID ∧ r.ifID ≤ r'.ifID) db.sites

def listSiteClassReservations (portalID : String) : List ReservationRow :=
  Table.orderBy (ords.reservations portalID) (fun r r' => r.label ≤ r'.label)
    (db.reservations.filter fun r => r.portalID = portalID)

end Tables

theorem objective_pos_of_rows (rows : List ObjectiveRow) (dim : CostDimension) (w : ℚ)
    (h : (GoMap.storeEach ObjectiveRow.dimension ObjectiveRow.weight rows ∅).lookup dim = some w) :
    0 < w := by
  rcases of_lookup_storeEach h with ⟨row, -, -, rfl⟩ | h
  · exact row.weight_pos
  · exact absurd h (lookup_empty_ne dim w)

section LoadFrom

variable (db : Tables) (ords : QueryOrders)

def restoreClass (row : TrafficClassRow) : TrafficClass :=
  { name := row.name, label := row.label.toUInt64, index := row.classIndex.toInt,
    dscp := (db.listTrafficClassDSCP ords row.label).map fun r => r.dscp.toInt,
    objective := GoMap.storeEach ObjectiveRow.dimension ObjectiveRow.weight
      (db.listTrafficClassObjectives ords row.label) ∅,
    objective_pos := objective_pos_of_rows (db.listTrafficClassObjectives ords row.label) }

def loadTrafficClasses : GoMap Label TrafficClass :=
  GoMap.collect TrafficClass.label ((db.listTrafficClasses ords).map (restoreClass db ords))

def restoreTenant (row : TenantRow) : Tenant :=
  { id := row.id.toInt, allocation := row.allocation, tier := row.tier,
    tierIndex := row.tierIndex.toInt, vrfTable := row.vrfTable.toInt, sites := [] }

def restoreSite (row : SiteRow) : Site :=
  { tenantID := row.tenantID.toInt, cpe := row.cpe, portalID := row.portalID, node := row.node,
    sitePrefix := row.sitePrefix, attach := row.attach, attachNode := row.attachNode,
    ifID := row.ifID.toUInt64.toUInt32, identity := row.identity,
    reservationMbps := row.reservationMbps,
    classMbps := GoMap.storeEach (fun r => r.label.toUInt64) ReservationRow.mbps
      (db.listSiteClassReservations ords row.portalID) ∅ }

def loadTenants : TenantRepository where
  classes := loadTrafficClasses db ords
  byID := GoMap.collect Tenant.id ((db.listTenants ords).map restoreTenant)
  byIdentity := ∅
  byPortalID := ∅
  byPop := ∅
  classes_label := fun _ _ h => (of_lookup_collect h).2
  byID_id := fun _ _ h => (of_lookup_collect h).2
  byPortalID_portalID := TenantMaps.start_portalID

end LoadFrom

def TenantRepository.addSite (r : TenantRepository) (tenant : Tenant) (site : Site) :
    TenantRepository where
  classes := r.classes
  byID := r.byID.insert tenant.id { tenant with sites := tenant.sites ++ [site] }
  byIdentity := r.byIdentity.insert site.identity site
  byPortalID := r.byPortalID.insert site.portalID site
  byPop := r.byPop.insert site.attach (r.byPop.getD site.attach [] ++ [site])
  classes_label := r.classes_label
  byID_id := by
    intro id t h
    rw [lookup_insert_eq] at h
    split_ifs at h with hid
    · cases h
      exact hid.symm
    · exact r.byID_id id t h
  byPortalID_portalID := by
    intro p s h
    rw [lookup_insert_eq] at h
    split_ifs at h with hp
    · cases h
      exact hp.symm
    · exact r.byPortalID_portalID p s h

def loadSiteRow (db : Tables) (ords : QueryOrders) (r : TenantRepository) (row : SiteRow) :
    Except StoreError TenantRepository :=
  match r.byID.lookup row.tenantID.toInt with
  | none => .error (.unknownTenant row.portalID row.tenantID)
  | some tenant => .ok (r.addSite tenant (restoreSite db ords row))

def loadFrom (db : Tables) (ords : QueryOrders) : Except StoreError TenantRepository :=
  (db.listSites ords).foldlM (loadSiteRow db ords) (loadTenants db ords)

end Maeto.ControlPlane
