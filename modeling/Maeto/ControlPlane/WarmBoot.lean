import Maeto.ControlPlane.TenantStore
import Maeto.ControlPlane.TenantView

/-!
# A warm boot restores what a cold boot has saved

The tables hold one row for each class, codepoint, weight, tenant, site and reservation of
the repository that was saved. Because labels, ids and portals tell these apart, the rows
that a query returns for one of them are its own, and the casts to the columns lose nothing
of what fits them.
-/

namespace Maeto.ControlPlane

open Foundation Netip GoMap Result

/-! ### The tables after a save -/

namespace Statement

def trafficClassRow? : Statement → Option TrafficClassRow
  | .createTrafficClass row => some row
  | _ => none

def dscpRow? : Statement → Option DSCPRow
  | .addTrafficClassDSCP row => some row
  | _ => none

def objectiveRow? : Statement → Option ObjectiveRow
  | .setTrafficClassObjective row => some row
  | _ => none

def tenantRow? : Statement → Option TenantRow
  | .createTenant row => some row
  | _ => none

def siteRow? : Statement → Option SiteRow
  | .createSite row => some row
  | _ => none

def reservationRow? : Statement → Option ReservationRow
  | .setSiteClassReservation row => some row
  | _ => none

def isDelete : Statement → Bool
  | .deleteAllTenants => true
  | .deleteAllTrafficClasses => true
  | _ => false

end Statement

section Saved

variable {ords : SaveOrders} {r : TenantRepository} {refuse : Statement → Option StoreError}
  {db : Tables}

theorem foldlM_exec {l : List Statement} {db db' : Tables}
    (h : l.foldlM (Tables.exec refuse) db = .ok db') : db' = l.foldl Tables.apply db := by
  refine @foldlM_induction _ _ _ _ (fun done b => b = done.foldl Tables.apply db) _ _ _ rfl
    ?_ h
  rintro done s b b' - rfl hround
  rw [Tables.exec_eq_ok hround, List.foldl_append]
  rfl

theorem statements_not_delete : ∀ s ∈ r.statements ords, s.isDelete = false := by
  intro s hs
  simp only [TenantRepository.statements, TrafficClass.statements, Tenant.statements,
    Site.statements, List.mem_append, List.mem_flatMap, List.mem_cons, List.mem_map] at hs
  rcases hs with ⟨e, -, ((rfl | ⟨dscp, -, rfl⟩) | ⟨row, -, rfl⟩)⟩ |
    ⟨e, -, (rfl | ⟨site, -, (rfl | ⟨f, -, rfl⟩)⟩)⟩ <;> rfl

theorem rows_eq_of_saveTo {ρ : Type} (table : Tables → List ρ) (row? : Statement → Option ρ)
    (write : List ρ → ρ → List ρ) (hempty : table .empty = [])
    (hstep : ∀ db s, s.isDelete = false →
      table (Tables.apply db s) = (row? s).toList.foldl write (table db))
    (h : saveTo ords refuse r .empty = .ok db) :
    table db = ((r.statements ords).filterMap row?).foldl write [] := by
  have hdb : db = (r.statements ords).foldl Tables.apply .empty :=
    foldlM_exec (l := .deleteAllTenants :: .deleteAllTrafficClasses :: r.statements ords) h
  rw [hdb, ← hempty]
  exact Table.foldl_rows (fun s i hi => hstep s i (statements_not_delete i hi)) _

theorem filterMap_statements {ρ : Type} (row? : Statement → Option ρ) :
    (r.statements ords).filterMap row? =
      ((r.classes.range ords.classes).flatMap fun e =>
        (row? (.createTrafficClass e.2.row)).toList ++
          ((e.2.dscp.filterMap fun dscp => row? (.addTrafficClassDSCP (e.2.dscpRow dscp))) ++
            (e.2.objectiveRows ords).filterMap fun row => row? (.setTrafficClassObjective row))) ++
      (r.byID.range ords.tenants).flatMap fun e =>
        (row? (.createTenant e.2.row)).toList ++ e.2.sites.flatMap fun s =>
          (row? (.createSite s.row)).toList ++
            (s.classMbps.range (ords.classMbps s.portalID)).filterMap fun e =>
              row? (.setSiteClassReservation (s.reservationRow e)) := by
  have hcons : ∀ (s : Statement) (l : List Statement),
      (s :: l).filterMap row? = (row? s).toList ++ l.filterMap row? := by
    intro s l
    rw [List.filterMap_cons]
    cases row? s <;> rfl
  simp only [TenantRepository.statements, TrafficClass.statements, Tenant.statements,
    Site.statements, List.filterMap_append, List.filterMap_flatMap, hcons, List.filterMap_map,
    List.cons_append]
  rfl

theorem flatMap_nil {α β : Type} (l : List α) : l.flatMap (fun _ => ([] : List β)) = [] :=
  List.flatMap_eq_nil_iff.mpr fun _ _ => rfl

def TenantRepository.savedClasses (r : TenantRepository) (ords : SaveOrders) : List TrafficClass :=
  (r.classes.range ords.classes).map Prod.snd

def TenantRepository.savedTenants (r : TenantRepository) (ords : SaveOrders) : List Tenant :=
  (r.byID.range ords.tenants).map Prod.snd

def TenantRepository.savedSites (r : TenantRepository) (ords : SaveOrders) : List Site :=
  (r.savedTenants ords).flatMap Tenant.sites

def Site.reservationRows (ords : SaveOrders) (s : Site) : List ReservationRow :=
  (s.classMbps.range (ords.classMbps s.portalID)).map s.reservationRow

structure Saved (r : TenantRepository) (ords : SaveOrders) (db : Tables) : Prop where
  trafficClasses : db.trafficClasses = (r.savedClasses ords).map TrafficClass.row
  dscps : db.dscps = (r.savedClasses ords).flatMap fun c => c.dscp.map c.dscpRow
  objectives : db.objectives =
    ((r.savedClasses ords).flatMap (TrafficClass.objectiveRows ords)).foldl
      (Table.upsert ObjectiveRow.key) []
  tenants : db.tenants = (r.savedTenants ords).map Tenant.row
  sites : db.sites = (r.savedSites ords).map Site.row
  reservations : db.reservations =
    ((r.savedSites ords).flatMap (Site.reservationRows ords)).foldl
      (Table.upsert ReservationRow.key) []

theorem saved_of_saveTo (h : saveTo ords refuse r .empty = .ok db) : Saved r ords db := by
  have happend : ∀ {ρ : Type} (table : Tables → List ρ) (row? : Statement → Option ρ),
      table .empty = [] → (∀ db s, s.isDelete = false →
        table (Tables.apply db s) = (row? s).toList.foldl (fun rows row => rows ++ [row])
          (table db)) → table db = (r.statements ords).filterMap row? := by
    intro ρ table row? hempty hstep
    rw [rows_eq_of_saveTo table row? _ hempty hstep h, Table.foldl_append_rows, List.nil_append]
  refine ⟨?_, ?_, ?_, ?_, ?_, ?_⟩
  · rw [happend Tables.trafficClasses Statement.trafficClassRow? rfl
      (fun db s hs => by cases s <;> first | rfl | cases hs), filterMap_statements]
    simp [Statement.trafficClassRow?, flatMap_nil, List.map_eq_flatMap,
      TenantRepository.savedClasses, List.flatMap_assoc]
  · rw [happend Tables.dscps Statement.dscpRow? rfl
      (fun db s hs => by cases s <;> first | rfl | cases hs), filterMap_statements]
    simp [Statement.dscpRow?, flatMap_nil, TenantRepository.savedClasses, List.flatMap_map]
  · rw [rows_eq_of_saveTo Tables.objectives Statement.objectiveRow?
      (Table.upsert ObjectiveRow.key) rfl
      (fun db s hs => by cases s <;> first | rfl | cases hs) h, filterMap_statements]
    simp [Statement.objectiveRow?, flatMap_nil, TenantRepository.savedClasses, List.flatMap_map]
  · rw [happend Tables.tenants Statement.tenantRow? rfl
      (fun db s hs => by cases s <;> first | rfl | cases hs), filterMap_statements]
    simp [Statement.tenantRow?, flatMap_nil, List.map_eq_flatMap, TenantRepository.savedTenants,
      List.flatMap_assoc]
  · rw [happend Tables.sites Statement.siteRow? rfl
      (fun db s hs => by cases s <;> first | rfl | cases hs), filterMap_statements]
    simp [Statement.siteRow?, flatMap_nil, List.map_eq_flatMap, TenantRepository.savedSites,
      TenantRepository.savedTenants, List.flatMap_assoc]
  · rw [rows_eq_of_saveTo Tables.reservations Statement.reservationRow?
      (Table.upsert ReservationRow.key) rfl
      (fun db s hs => by cases s <;> first | rfl | cases hs) h, filterMap_statements]
    simp [Statement.reservationRow?, flatMap_nil, TenantRepository.savedSites,
      TenantRepository.savedTenants, List.flatMap_assoc, List.flatMap_map]
    rfl

end Saved

/-! ### Rows and their owners -/

/-- The numbers of a repository fit the INTEGER columns. -/
structure TenantRepository.Fits (r : TenantRepository) : Prop where
  id : ∀ id t, r.byID.lookup id = some t → -2 ^ 31 ≤ t.id ∧ t.id < 2 ^ 31
  tierIndex : ∀ id t, r.byID.lookup id = some t → -2 ^ 31 ≤ t.tierIndex ∧ t.tierIndex < 2 ^ 31
  vrfTable : ∀ id t, r.byID.lookup id = some t → -2 ^ 31 ≤ t.vrfTable ∧ t.vrfTable < 2 ^ 31
  classIndex : ∀ l c, r.classes.lookup l = some c → -2 ^ 31 ≤ c.index ∧ c.index < 2 ^ 31

instance (r : TenantRepository) : Decidable r.Fits :=
  decidable_of_iff
    ((∀ e ∈ r.byID.range .listed, (-2 ^ 31 ≤ e.2.id ∧ e.2.id < 2 ^ 31) ∧
        (-2 ^ 31 ≤ e.2.tierIndex ∧ e.2.tierIndex < 2 ^ 31) ∧
          -2 ^ 31 ≤ e.2.vrfTable ∧ e.2.vrfTable < 2 ^ 31) ∧
      ∀ e ∈ r.classes.range .listed, -2 ^ 31 ≤ e.2.index ∧ e.2.index < 2 ^ 31) <| by
    simp only [Prod.forall, mem_range]
    exact ⟨fun h => ⟨fun id t ht => (h.1 id t ht).1, fun id t ht => (h.1 id t ht).2.1,
      fun id t ht => (h.1 id t ht).2.2, h.2⟩, fun h => ⟨fun id t ht =>
        ⟨h.id id t ht, h.tierIndex id t ht, h.vrfTable id t ht⟩, h.classIndex⟩⟩

section Owners

variable {ords : SaveOrders} {r : TenantRepository} {sites : List Site} {db : Tables}

theorem mem_savedClasses {c : TrafficClass} (h : c ∈ r.savedClasses ords) :
    r.classes.lookup c.label = some c := by
  obtain ⟨⟨l, c'⟩, hmem, rfl⟩ := List.mem_map.mp h
  have hlookup := (mem_range _ _ _ _).mp hmem
  rw [r.classes_label l c' hlookup, hlookup]

theorem mem_savedTenants {t : Tenant} (h : t ∈ r.savedTenants ords) :
    r.byID.lookup t.id = some t := by
  obtain ⟨⟨id, t'⟩, hmem, rfl⟩ := List.mem_map.mp h
  have hlookup := (mem_range _ _ _ _).mp hmem
  rw [r.byID_id id t' hlookup, hlookup]

theorem savedClasses_labels (r : TenantRepository) (ords : SaveOrders) :
    ((r.savedClasses ords).map TrafficClass.label).Nodup := by
  have hkeys : (r.savedClasses ords).map TrafficClass.label =
      (r.classes.range ords.classes).map Prod.fst := by
    rw [TenantRepository.savedClasses, List.map_map]
    refine List.map_congr_left ?_
    rintro ⟨l, c⟩ hmem
    exact r.classes_label l c ((mem_range _ _ _ _).mp hmem)
  exact hkeys ▸ range_keys_nodup _ _

theorem toInt64_injective : Function.Injective UInt64.toInt64 :=
  Function.LeftInverse.injective UInt64.toUInt64_toInt64

theorem savedClasses_columns (r : TenantRepository) (ords : SaveOrders) :
    ((r.savedClasses ords).map fun c => c.label.toInt64).Nodup := by
  have hcolumns := (savedClasses_labels r ords).map toInt64_injective
  rw [List.map_map] at hcolumns
  exact hcolumns

theorem savedTenants_ids (r : TenantRepository) (ords : SaveOrders) :
    ((r.savedTenants ords).map Tenant.id).Nodup := by
  have hkeys : (r.savedTenants ords).map Tenant.id =
      (r.byID.range ords.tenants).map Prod.fst := by
    rw [TenantRepository.savedTenants, List.map_map]
    refine List.map_congr_left ?_
    rintro ⟨id, t⟩ hmem
    exact r.byID_id id t ((mem_range _ _ _ _).mp hmem)
  exact hkeys ▸ range_keys_nodup _ _

theorem savedSites_perm (h : SitesOf r.byID sites) : (r.savedSites ords).Perm sites := by
  have hsites : r.savedSites ords = ((r.savedTenants ords).map Tenant.id).flatMap fun id =>
      sites.filter fun s => s.tenantID = id := by
    rw [TenantRepository.savedSites, List.flatMap_map]
    exact List.flatMap_congr fun t ht => h.sites_eq t.id t (mem_savedTenants ht)
  rw [hsites]
  refine Table.flatMap_filter_perm (savedTenants_ids r ords) fun s hs => ?_
  obtain ⟨t, ht⟩ := h.owner s hs
  rw [← r.byID_id _ t ht]
  refine List.mem_map_of_mem (List.mem_map.mpr ⟨(s.tenantID, t), ?_, rfl⟩)
  exact (mem_range _ _ _ _).mpr ht

theorem savedSites_portals (hindexes : SiteIndexes r.byIdentity r.byPortalID r.byPop sites)
    (htenants : SitesOf r.byID sites) : ((r.savedSites ords).map Site.portalID).Nodup :=
  ((savedSites_perm htenants).map _).nodup_iff.mpr hindexes.portals

theorem mem_objectiveRows {c : TrafficClass} {row : ObjectiveRow} (h : row ∈ c.objectiveRows ords) :
    row.label = c.label.toInt64 ∧ c.objective.lookup row.dimension = some row.weight := by
  obtain ⟨e, he, rfl⟩ := List.mem_pmap.mp h
  exact ⟨rfl, (mem_range _ _ _ _).mp he⟩

theorem objectiveRows_dimensions (c : TrafficClass) :
    ((c.objectiveRows ords).map ObjectiveRow.dimension).Nodup := by
  have hmap : (c.objectiveRows ords).map ObjectiveRow.dimension =
      (c.objective.range (ords.objective c.label)).map Prod.fst := by
    rw [TrafficClass.objectiveRows, List.map_pmap]
    exact List.pmap_eq_map _
  exact hmap ▸ range_keys_nodup _ _

theorem objectives_eq (h : Saved r ords db) :
    db.objectives = (r.savedClasses ords).flatMap (TrafficClass.objectiveRows ords) := by
  rw [h.objectives, Table.foldl_upsert, List.nil_append]
  rw [List.nil_append]
  refine Table.nodup_flatMap Prod.fst (savedClasses_columns r ords) ?_ ?_
  · intro c _ row hrow
    exact (mem_objectiveRows hrow).1
  · intro c _
    refine List.Nodup.of_map Prod.snd ?_
    rw [List.map_map]
    exact objectiveRows_dimensions c

theorem reservationRows_labels (s : Site) :
    ((s.classMbps.range (ords.classMbps s.portalID)).map fun e => e.1.toInt64).Nodup := by
  have hlabels := (range_keys_nodup (ords.classMbps s.portalID) s.classMbps).map
    toInt64_injective
  rw [List.map_map] at hlabels
  exact hlabels

theorem reservations_eq (h : Saved r ords db)
    (hindexes : SiteIndexes r.byIdentity r.byPortalID r.byPop sites)
    (htenants : SitesOf r.byID sites) :
    db.reservations = (r.savedSites ords).flatMap (Site.reservationRows ords) := by
  rw [h.reservations, Table.foldl_upsert, List.nil_append]
  rw [List.nil_append]
  refine Table.nodup_flatMap Prod.fst (savedSites_portals hindexes htenants) ?_ ?_
  · intro s _ row hrow
    obtain ⟨e, -, rfl⟩ := List.mem_map.mp hrow
    rfl
  · intro s _
    refine List.Nodup.of_map Prod.snd ?_
    rw [Site.reservationRows, List.map_map, List.map_map]
    exact reservationRows_labels s

end Owners

/-! ### What is restored -/

section Restored

variable {ords : SaveOrders} {r : TenantRepository} {sites : List Site} {db : Tables}
  (qords : QueryOrders)

instance : Std.Total fun row row' : DSCPRow => row.dscp ≤ row'.dscp where
  total row row' := Int16.le_total row.dscp row'.dscp

instance : IsTrans DSCPRow fun row row' => row.dscp ≤ row'.dscp where
  trans _ _ _ h h' := Int16.le_trans h h'

variable {c : TrafficClass}

theorem listTrafficClassDSCP_saved (h : Saved r ords db)
    (hc : c ∈ r.savedClasses ords) (hsorted : c.dscp.Pairwise (· < ·))
    (hrange : ∀ value ∈ c.dscp, 0 ≤ value ∧ value ≤ dscpMax) :
    (db.listTrafficClassDSCP qords c.label.toInt64).map (fun row => row.dscp.toInt) = c.dscp := by
  have hrows : db.dscps.filter (fun row => row.label = c.label.toInt64) = c.dscp.map c.dscpRow := by
    rw [h.dscps]
    refine Table.filter_flatMap (savedClasses_columns r ords) ?_ hc
    intro c' _ row hrow
    obtain ⟨value, -, rfl⟩ := List.mem_map.mp hrow
    rfl
  have hvalues : (c.dscp.map c.dscpRow).map (fun row => row.dscp.toInt) = c.dscp := by
    rw [List.map_map]
    refine (List.map_congr_left fun value hvalue => ?_).trans (List.map_id c.dscp)
    obtain ⟨hlow, hhigh⟩ := hrange value hvalue
    unfold dscpMax at hhigh
    exact Int16.toInt_ofInt_of_le (by omega) (by omega)
  have hperm : ((db.listTrafficClassDSCP qords c.label.toInt64).map fun row => row.dscp.toInt).Perm
      c.dscp := by
    have hlist := (Table.orderBy_perm (qords.dscps c.label.toInt64)
      (fun row row' : DSCPRow => row.dscp ≤ row'.dscp) (c.dscp.map c.dscpRow)).map
        fun row => row.dscp.toInt
    rw [hvalues] at hlist
    rw [Tables.listTrafficClassDSCP, hrows]
    exact hlist
  refine hperm.eq_of_pairwise (fun a b _ _ => le_antisymm) ?_ (hsorted.imp le_of_lt)
  refine List.pairwise_map.mpr ((List.pairwise_insertionSort _ _).imp ?_)
  intro row row' hle
  exact Int16.le_iff_toInt_le.mp hle

theorem lookup_objective_saved (h : Saved r ords db)
    (hc : c ∈ r.savedClasses ords) (dim : CostDimension) :
    (GoMap.storeEach ObjectiveRow.dimension ObjectiveRow.weight
      (db.listTrafficClassObjectives qords c.label.toInt64) ∅).lookup dim =
        c.objective.lookup dim := by
  have hrows : db.objectives.filter (fun row => row.label = c.label.toInt64) =
      c.objectiveRows ords := by
    rw [objectives_eq h]
    refine Table.filter_flatMap (savedClasses_columns r ords) ?_ hc
    intro c' _ row hrow
    exact (mem_objectiveRows hrow).1
  have hperm : (db.listTrafficClassObjectives qords c.label.toInt64).Perm
      (c.objectiveRows ords) := by
    rw [Tables.listTrafficClassObjectives, hrows]
    exact Table.orderBy_perm _ _ _
  have hnodup : ((db.listTrafficClassObjectives qords c.label.toInt64).map
      ObjectiveRow.dimension).Nodup :=
    (hperm.map _).nodup_iff.mpr (objectiveRows_dimensions c)
  refine Option.ext fun w => ?_
  rw [lookup_storeEach_iff_of_nodup hnodup]
  constructor
  · rintro ⟨row, hrow, rfl, rfl⟩
    exact (mem_objectiveRows (hperm.mem_iff.mp hrow)).2
  · intro hw
    have hmem := (mem_range (ords.objective c.label) _ _ _).mpr hw
    refine ⟨c.objectiveRow (dim, w) (c.objective_pos dim w hw), ?_, rfl, rfl⟩
    exact hperm.mem_iff.mpr (List.mem_pmap.mpr ⟨(dim, w), hmem, rfl⟩)

theorem restoreClass_view (h : Saved r ords db) (hr : r.Loaded sites) (hfits : r.Fits)
    (hc : c ∈ r.savedClasses ords) :
    (restoreClass db qords c.row).view = c.view := by
  have hlookup := mem_savedClasses hc
  obtain ⟨hlow, hhigh⟩ := hfits.classIndex _ _ hlookup
  refine ClassView.ext rfl (UInt64.toUInt64_toInt64 c.label) (Int32.toInt_ofInt_of_le hlow hhigh)
    ?_ ?_
  · exact listTrafficClassDSCP_saved qords h hc (hr.dscp_sorted _ _ hlookup)
      (hr.dscp_range _ _ hlookup)
  · funext dim
    exact lookup_objective_saved qords h hc dim

theorem classes_restored (h : Saved r ords db) (hr : r.Loaded sites) (hfits : r.Fits)
    (label : Label) :
    (r.classes.lookup label).map TrafficClass.view =
      ((loadTrafficClasses db qords).lookup label).map TrafficClass.view := by
  have hrows : (db.listTrafficClasses qords).Perm ((r.savedClasses ords).map TrafficClass.row) := by
    rw [← h.trafficClasses]
    exact Table.orderBy_perm _ _ _
  have hviews : ((db.listTrafficClasses qords).map (restoreClass db qords)).map TrafficClass.view
      |>.Perm ((r.savedClasses ords).map TrafficClass.view) := by
    have hmap := (hrows.map (restoreClass db qords)).map TrafficClass.view
    rw [List.map_map (l := r.savedClasses ords), List.map_map (l := r.savedClasses ords)] at hmap
    refine hmap.trans (List.Perm.of_eq (List.map_congr_left fun c hc => ?_))
    exact restoreClass_view qords h hr hfits hc
  rw [lookup_eq_lookup_collect r.classes_label ords.classes]
  exact lookup_collect_view ClassView.label (fun _ => rfl) (savedClasses_labels r ords)
    hviews.symm label

theorem restoreTenant_head (hfits : r.Fits) {t : Tenant} (ht : t ∈ r.savedTenants ords) :
    (restoreTenant t.row).head = t.head := by
  have hlookup := mem_savedTenants ht
  obtain ⟨hid, hid'⟩ := hfits.id _ _ hlookup
  obtain ⟨htier, htier'⟩ := hfits.tierIndex _ _ hlookup
  obtain ⟨hvrf, hvrf'⟩ := hfits.vrfTable _ _ hlookup
  unfold restoreTenant Tenant.row Tenant.head
  simp only [Int32.toInt_ofInt_of_le hid hid', Int32.toInt_ofInt_of_le htier htier',
    Int32.toInt_ofInt_of_le hvrf hvrf']

theorem tenants_restored (h : Saved r ords db) (hfits : r.Fits) (id : TenantID) :
    (r.byID.lookup id).map Tenant.head =
      ((loadTenants db qords).byID.lookup id).map Tenant.head := by
  have hrows : (db.listTenants qords).Perm ((r.savedTenants ords).map Tenant.row) := by
    rw [← h.tenants]
    exact Table.orderBy_perm _ _ _
  have hheads : ((db.listTenants qords).map restoreTenant).map Tenant.head |>.Perm
      ((r.savedTenants ords).map Tenant.head) := by
    have hmap := (hrows.map restoreTenant).map Tenant.head
    rw [List.map_map (l := r.savedTenants ords), List.map_map (l := r.savedTenants ords)] at hmap
    refine hmap.trans (List.Perm.of_eq (List.map_congr_left fun t ht => ?_))
    exact restoreTenant_head hfits ht
  rw [lookup_eq_lookup_collect r.byID_id ords.tenants]
  exact @lookup_collect_view _ _ _ _ Tenant.head Tenant.id Tenant.id (fun _ => rfl) _ _
    (savedTenants_ids r ords) hheads.symm id

theorem lookup_classMbps_saved (h : Saved r ords db) (hr : r.Loaded sites) {s : Site}
    (hs : s ∈ r.savedSites ords) (label : Label) :
    (GoMap.storeEach (fun row : ReservationRow => row.label.toUInt64) ReservationRow.mbps
      (db.listSiteClassReservations qords s.portalID) ∅).lookup label =
        s.classMbps.lookup label := by
  have hrows : db.reservations.filter (fun row => row.portalID = s.portalID) =
      s.reservationRows ords := by
    rw [reservations_eq h hr.indexes hr.tenants]
    refine Table.filter_flatMap (savedSites_portals hr.indexes hr.tenants) ?_ hs
    intro s' _ row hrow
    obtain ⟨e, -, rfl⟩ := List.mem_map.mp hrow
    rfl
  have hperm : (db.listSiteClassReservations qords s.portalID).Perm (s.reservationRows ords) := by
    rw [Tables.listSiteClassReservations, hrows]
    exact Table.orderBy_perm _ _ _
  have hlabels : (s.reservationRows ords).map (fun row => row.label.toUInt64) =
      (s.classMbps.range (ords.classMbps s.portalID)).map Prod.fst := by
    rw [Site.reservationRows, List.map_map]
    exact List.map_congr_left fun e _ => UInt64.toUInt64_toInt64 e.1
  have hnodup : ((db.listSiteClassReservations qords s.portalID).map
      fun row => row.label.toUInt64).Nodup := by
    rw [(hperm.map _).nodup_iff, hlabels]
    exact range_keys_nodup _ _
  refine Option.ext fun mbps => ?_
  rw [lookup_storeEach_iff_of_nodup hnodup, ← mem_range (ords.classMbps s.portalID)]
  constructor
  · rintro ⟨row, hrow, rfl, rfl⟩
    obtain ⟨e, he, rfl⟩ := List.mem_map.mp (hperm.mem_iff.mp hrow)
    rw [Site.reservationRow, UInt64.toUInt64_toInt64]
    exact he
  · intro hmem
    refine ⟨s.reservationRow (label, mbps), hperm.mem_iff.mpr (List.mem_map_of_mem hmem), ?_, rfl⟩
    exact UInt64.toUInt64_toInt64 label

theorem restoreSite_view (h : Saved r ords db) (hr : r.Loaded sites) (hfits : r.Fits) {s : Site}
    (hs : s ∈ r.savedSites ords) : (restoreSite db qords s.row).view = s.view := by
  obtain ⟨t, ht⟩ := hr.tenants.owner s ((savedSites_perm hr.tenants).mem_iff.mp hs)
  obtain ⟨hlow, hhigh⟩ := hfits.id _ t ht
  rw [r.byID_id _ t ht] at hlow hhigh
  refine SiteView.ext (Int32.toInt_ofInt_of_le hlow hhigh) rfl rfl rfl rfl rfl rfl ?_ rfl rfl ?_
  · change s.ifID.toUInt64.toInt64.toUInt64.toUInt32 = s.ifID
    rw [UInt64.toUInt64_toInt64, UInt32.toUInt32_toUInt64]
  · funext label
    exact lookup_classMbps_saved qords h hr hs label

theorem sites_restored (h : Saved r ords db) (hr : r.Loaded sites) (hfits : r.Fits) :
    (sites.map Site.view).Perm
      (((db.listSites qords).map (restoreSite db qords)).map Site.view) := by
  have hrows : (db.listSites qords).Perm ((r.savedSites ords).map Site.row) := by
    rw [← h.sites]
    exact Table.orderBy_perm _ _ _
  have hmap := (hrows.map (restoreSite db qords)).map Site.view
  rw [List.map_map (l := r.savedSites ords), List.map_map (l := r.savedSites ords)] at hmap
  refine (hmap.trans ?_).symm
  refine (List.Perm.of_eq (List.map_congr_left fun s hs => ?_)).trans
    ((@savedSites_perm ords r sites hr.tenants).map Site.view)
  exact restoreSite_view qords h hr hfits hs

theorem SitesOf.addSite {byID : GoMap TenantID Tenant} {sites : List Site} {tenant : Tenant}
    {site : Site} (h : SitesOf byID sites) (htenant : byID.lookup site.tenantID = some tenant)
    (hid : tenant.id = site.tenantID) :
    SitesOf (byID.insert tenant.id { tenant with sites := tenant.sites ++ [site] })
      (sites ++ [site]) := by
  constructor
  · intro s hs
    rw [lookup_insert_eq]
    split_ifs with heq
    · exact ⟨_, rfl⟩
    · rcases List.mem_append.mp hs with hs | hs
      · exact h.owner s hs
      · rw [List.mem_singleton.mp hs, hid] at heq
        exact absurd rfl heq
  · intro id t ht
    rw [lookup_insert_eq] at ht
    rw [List.filter_append]
    split_ifs at ht with heq
    · cases ht
      dsimp only
      rw [h.sites_eq _ tenant htenant, heq, hid]
      simp
    · rw [h.sites_eq id t ht]
      have hne : site.tenantID ≠ id := fun hsite => heq (hsite ▸ hid).symm
      simp [hne]

theorem sitesOf_loadTenants (db : Tables) (qords : QueryOrders) :
    SitesOf (loadTenants db qords).byID [] := by
  refine ⟨List.forall_mem_nil _, fun id t ht => ?_⟩
  obtain ⟨hmem, -⟩ := of_lookup_collect ht
  obtain ⟨row, -, rfl⟩ := List.mem_map.mp hmem
  rfl

theorem notMem_of_nodup_map {α β : Type} {f : α → β} {l l' : List α} {a : α}
    (h : ((l ++ [a] ++ l').map f).Nodup) : f a ∉ l.map f := by
  rw [List.map_append, List.map_append] at h
  intro hmem
  exact (List.nodup_append.mp (List.nodup_append.mp h).1).2.2 _ hmem _ List.mem_cons_self rfl

theorem head_addSite {start : TenantRepository} {tenant : Tenant} {tid : TenantID} (site : Site)
    (htenant : start.byID.lookup tid = some tenant) (id : TenantID) :
    ((start.addSite tenant site).byID.lookup id).map Tenant.head =
      (start.byID.lookup id).map Tenant.head := by
  simp only [TenantRepository.addSite]
  rw [lookup_insert_eq]
  split_ifs with heq
  · have hold : start.byID.lookup id = some tenant := heq ▸ start.byID_id _ _ htenant ▸ htenant
    rw [hold]
    rfl
  · rfl

/-- The loop over the sites: it ends when their tenants are there, and it keeps the classes
and what tenants are besides their sites. -/
theorem foldlM_loadSiteRow {rows : List SiteRow} {start : TenantRepository} {before : List Site}
    (hindexes : SiteIndexes start.byIdentity start.byPortalID start.byPop before)
    (htenants : SitesOf start.byID before)
    (hidentities : ((before ++ rows.map (restoreSite db qords)).map Site.identity).Nodup)
    (hportals : ((before ++ rows.map (restoreSite db qords)).map Site.portalID).Nodup)
    (hknown : ∀ row ∈ rows, ∃ t, start.byID.lookup row.tenantID.toInt = some t) :
    ∃ r', rows.foldlM (loadSiteRow db qords) start = .ok r' ∧ r'.classes = start.classes ∧
      (∀ id, (r'.byID.lookup id).map Tenant.head = (start.byID.lookup id).map Tenant.head) ∧
      SiteIndexes r'.byIdentity r'.byPortalID r'.byPop
        (before ++ rows.map (restoreSite db qords)) ∧
      SitesOf r'.byID (before ++ rows.map (restoreSite db qords)) := by
  induction rows generalizing start before with
  | nil =>
    rw [List.map_nil, List.append_nil]
    exact ⟨start, rfl, rfl, fun _ => rfl, hindexes, htenants⟩
  | cons row rows ih =>
    set site := restoreSite db qords row with hsite
    obtain ⟨tenant, htenant⟩ := hknown row List.mem_cons_self
    have hid : tenant.id = site.tenantID := start.byID_id _ _ htenant
    have hsplit : before ++ (row :: rows).map (restoreSite db qords) =
        before ++ [site] ++ rows.map (restoreSite db qords) := by
      rw [List.map_cons, List.append_assoc, List.singleton_append]
    rw [hsplit] at hidentities hportals ⊢
    have hheads := head_addSite site htenant
    have hknown' : ∀ row' ∈ rows, ∃ t,
        (start.addSite tenant site).byID.lookup row'.tenantID.toInt = some t := by
      intro row' hrow'
      obtain ⟨t, ht⟩ := hknown row' (List.mem_cons_of_mem row hrow')
      have hmap := hheads row'.tenantID.toInt
      rw [ht, Option.map_some] at hmap
      obtain ⟨t', ht', -⟩ := Option.map_eq_some_iff.mp hmap
      exact ⟨t', ht'⟩
    obtain ⟨r', hr', hclasses, hheads', hindexes', htenants'⟩ :=
      @ih (start.addSite tenant site) (before ++ [site])
        (hindexes.add (notMem_of_nodup_map hidentities) (notMem_of_nodup_map hportals))
        (htenants.addSite htenant hid) hidentities hportals hknown'
    refine ⟨r', ?_, hclasses, fun id => (hheads' id).trans (hheads id), hindexes', htenants'⟩
    rw [List.foldlM_cons, loadSiteRow, htenant]
    exact hr'

end Restored

/-- A warm boot restores what a cold boot has saved, up to the order of the sites, and the
demands with it. -/
theorem loadFrom_saveTo (parsePrefix : String → Option Prefix) (lords : LoadOrders)
    (raw : RawTenantDB) (r : TenantRepository) (hload : load parsePrefix lords raw = .ok r)
    (hfits : r.Fits) (ords : SaveOrders) (refuse : Statement → Option StoreError) (db : Tables)
    (hsave : saveTo ords refuse r .empty = .ok db) (qords : QueryOrders) :
    ∃ r', loadFrom db qords = .ok r' ∧ r'.view = r.view ∧
      ∀ dords dords', (buildDemands r' dords').map Demand.view =
        (buildDemands r dords).map Demand.view := by
  obtain ⟨sites, hr⟩ := load_loaded hload
  have hsaved := saved_of_saveTo hsave
  have hsites := sites_restored qords hsaved hr hfits
  have hheads := tenants_restored qords hsaved hfits
  set restored := (db.listSites qords).map (restoreSite db qords) with hrestored
  have hidentities : (restored.map Site.identity).Nodup := by
    have hperm := hsites.map SiteView.identity
    rw [List.map_map, List.map_map] at hperm
    exact hperm.nodup_iff.mp hr.indexes.identities
  have hportals : (restored.map Site.portalID).Nodup := by
    have hperm := hsites.map SiteView.portalID
    rw [List.map_map, List.map_map] at hperm
    exact hperm.nodup_iff.mp hr.indexes.portals
  have hknown : ∀ row ∈ db.listSites qords,
      ∃ t, (loadTenants db qords).byID.lookup row.tenantID.toInt = some t := by
    intro row hrow
    have hmem : (restoreSite db qords row).view ∈ restored.map Site.view :=
      List.mem_map_of_mem (List.mem_map_of_mem hrow)
    obtain ⟨s, hs, hview⟩ := List.mem_map.mp (hsites.mem_iff.mpr hmem)
    obtain ⟨t, ht⟩ := hr.tenants.owner s hs
    have hid : s.tenantID = row.tenantID.toInt := congrArg SiteView.tenantID hview
    have hhead := hheads s.tenantID
    rw [ht, Option.map_some] at hhead
    obtain ⟨t', ht', -⟩ := Option.map_eq_some_iff.mp hhead.symm
    exact ⟨t', hid ▸ ht'⟩
  obtain ⟨r', hr', hclasses, hheads', hindexes, htenants⟩ :=
    @foldlM_loadSiteRow db qords (db.listSites qords) (loadTenants db qords) []
      ⟨rfl, rfl, rfl, .nil, .nil⟩ (sitesOf_loadTenants db qords) hidentities hportals hknown
  have hview : r'.view = r.view := by
    refine view_eq ?_ ?_ hsites.symm hindexes hr.indexes htenants hr.tenants
    · intro label
      rw [hclasses]
      exact (classes_restored qords hsaved hr hfits label).symm
    · intro id
      rw [hheads' id, hheads id]
  refine ⟨r', hr', hview, fun dords dords' => ?_⟩
  exact (buildDemands_view hview.symm hr.indexes_distinct dords dords').symm

theorem smallTenantDB_restored : ∃ r db r', load smallPrefix .listed smallTenantDB = .ok r ∧
    saveTo .listed (fun _ => none) r .empty = .ok db ∧ loadFrom db .listed = .ok r' ∧
    r'.view = r.view := by
  have hcheck : ((load smallPrefix .listed smallTenantDB).toOption.any fun r =>
      (saveTo .listed (fun _ => none) r .empty).toOption.any fun _ => decide r.Fits) = true := by
    decide +kernel
  obtain ⟨r, hload, hcheck⟩ := any_toOption.mp hcheck
  obtain ⟨db, hsave, hfits⟩ := any_toOption.mp hcheck
  obtain ⟨r', hr', hview, -⟩ :=
    loadFrom_saveTo _ _ _ r hload (of_decide_eq_true hfits) _ _ db hsave .listed
  exact ⟨r, db, r', hload, hsave, hr', hview⟩

def threeVoices : RawTenantDB :=
  let site (ifID : UInt32) (attach : String) (mbps : ℚ) : RawSite :=
    ⟨"", attach ++ toString ifID, "", "", attach, attach, ifID, attach ++ toString ifID,
      Rounding.float64.round mbps,
      (∅ : GoMap String ℚ).insert "voice" (Rounding.float64.round mbps)⟩
  { smallTenantDB with
    tenants := [⟨3, "", "gold", 3,
      [site 3 "a" (1 / 10), site 2 "a" (2 / 10), site 1 "a" (3 / 10), site 4 "b" 1]⟩] }

/-- The sites are read back by rising interface ids. With rounded sums the rate of the pop is
another one then. -/
theorem warm_boot_rounded :
    letI := Rounding.float64
    ∃ r db r', load smallPrefix .listed threeVoices = .ok r ∧ r.Fits ∧
      saveTo .listed (fun _ => none) r .empty = .ok db ∧ loadFrom db .listed = .ok r' ∧
      ∃ dords, (buildDemands r' dords).map Demand.view ≠
        (buildDemands r dords).map Demand.view := by
  let _ := Rounding.float64
  let dords : DemandOrders :=
    ⟨.listed, fun _ => .listed, fun _ => .listed, fun _ _ => .listed, fun _ _ _ => .listed⟩
  have hcheck : ((load smallPrefix .listed threeVoices).toOption.any fun r =>
      (saveTo .listed (fun _ => none) r .empty).toOption.any fun db =>
        (loadFrom db .listed).toOption.any fun r' => decide (r.Fits ∧
          (buildDemands r' dords).map Demand.fromMbps ≠
            (buildDemands r dords).map Demand.fromMbps)) = true := by
    decide +kernel
  obtain ⟨r, hload, hcheck⟩ := any_toOption.mp hcheck
  obtain ⟨db, hsave, hcheck⟩ := any_toOption.mp hcheck
  obtain ⟨r', hr', hcheck⟩ := any_toOption.mp hcheck
  obtain ⟨hfits, hrates⟩ := of_decide_eq_true hcheck
  refine ⟨r, db, r', hload, hfits, hsave, hr', dords, ?_⟩
  intro hsame
  have hsame := congrArg (List.map DemandView.fromMbps) hsame
  rw [List.map_map, List.map_map] at hsame
  exact hrates hsame

end Maeto.ControlPlane
