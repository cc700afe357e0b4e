import Maeto.Dataplane.Interface
import Maeto.Nodesync.Intent

/-!
# Rendering intents and the kernel state

An intent is rendered to the resources it asks for, and what the dataplane reads
from the kernel is rendered to the resources that are there. Resources are kept
in a map under their keys, so that of two resources with the same key the later
one stays.

Rendering the intent of a provider edge goes over its tenants in an order that
the map does not fix. The rounds of the tenants share one map of the tables that
hold SR routes; everything that a round stores is kept with the tenant it was
stored for (`renderTenants`), and the result is the map of all of it.
-/

namespace Maeto.Dataplane

open Foundation Netip Nodesync

abbrev ResourceMap := GoMap String Resource

def storeAll (rs : List Resource) : ResourceMap := GoMap.collect Resource.key rs

def utf8 (s : String) : List UInt8 := s.toList.flatMap String.utf8EncodeChar

def fnv1a64 (bytes : List UInt8) : UInt64 :=
  bytes.foldl (fun h b => (h ^^^ b.toUInt64) * 1099511628211) 14695981039346656037

def vrfTableBits : ℕ := 24

def minTableID : ℕ := 300

def tableSpan : ℕ := 2 ^ vrfTableBits - minTableID

def stringToID (s : String) : UInt32 :=
  UInt32.ofNat (minTableID + (fnv1a64 (utf8 s)).toNat % tableSpan)

def colorTableID (vrfTable : ℤ) (color : UInt64) : ℤ :=
  ((color.toBitVec <<< vrfTableBits) ||| BitVec.ofInt 64 vrfTable).toInt

def uint32OfInt (n : ℤ) : UInt32 := UInt32.ofNat (n % 2 ^ 32).toNat

def intOfUInt64 (c : UInt64) : ℤ := c.toBitVec.toInt

def cpeTunnelTable : ℤ := 100

def cpeRulePriority : ℤ := 100

def vrfTableName (tenantID : String) : String := "maeto-vrf-" ++ tenantID

def xfrmTunnelName (tenantID : String) : String := "xfrm-tenant-" ++ tenantID

def xfrmName (tenantID : String) (ifID : UInt32) : String :=
  "maeto-tun-" ++ tenantID ++ "-" ++ String.ofList (Text.decimal ifID.toNat)

def renderCPEIntent (cpe : CPEIntent) : Except String ResourceMap :=
  if cpe.tunnelInterfaceID = 0 then .ok ∅
  else if !cpe.sitePrefix.isValid then
    .error "cpe intent has no site prefix, nothing could select the tunnel"
  else .ok (storeAll
    [.xfrm
      { name := xfrmTunnelName cpe.tenantID, ifID := cpe.tunnelInterfaceID, parent := "lo",
        masterVRF := "", index := 0 },
     .route
      { table := cpeTunnelTable, dst := Prefix.default6, dev := xfrmTunnelName cpe.tenantID,
        via := .invalid, metric := 0 },
     .rule
      { priority := cpeRulePriority, src := some cpe.sitePrefix, table := cpeTunnelTable,
        mark := 0, iif := "" }])

def renderClass (c : PETrafficClassIntent) : List ℤ → Except String (List Resource)
  | [] => .ok []
  | dscp :: rest =>
    if 255 ≤ dscp then
      .error ("dscp (" ++ String.ofList (Text.decimal dscp) ++ ") is too big")
    else (renderClass c rest).map
      (.classification { classifier := uint32OfInt dscp, mark := c.color.toUInt32 } :: ·)

def renderClasses : List PETrafficClassIntent → Except String (List Resource)
  | [] => .ok []
  | c :: cs =>
    match renderClass c c.dscp with
    | .error err => .error err
    | .ok rs => (renderClasses cs).map (rs ++ ·)

def renderPortal (tenantID : String) (p : PEPortalIntent) : List Resource :=
  [.xfrm
    { name := xfrmName tenantID p.tunnelInterfaceID, ifID := p.tunnelInterfaceID,
      parent := p.hostFacingInterface, masterVRF := vrfTableName tenantID, index := 0 },
   .route
    { table := (stringToID tenantID).toNat, dst := p.sitePrefix,
      dev := xfrmName tenantID p.tunnelInterfaceID, via := .invalid, metric := 0 }]

structure InstallState where
  collisions : GoMap ℤ String
  uniqueColors : GoMap UInt64 Unit
  srRoutes : List Resource

def installPrefix (tableID : ℤ) (path : PESIDInstallIntent) (st : InstallState) (p : Prefix) :
    InstallState :=
  let table := colorTableID tableID path.color
  let st := { st with uniqueColors := st.uniqueColors.insert path.color () }
  let store : InstallState :=
    { st with
      collisions := st.collisions.insert table path.tenantID
      srRoutes := st.srRoutes ++
        [.srRoute
          { routePrefix := p, segments := path.segments.reverse, table, color := path.color }] }
  match st.collisions.lookup table with
  | some holder => if holder ≠ path.tenantID then st else store
  | none => store

def installPath (tableID : ℤ) (st : InstallState) (path : PESIDInstallIntent) : InstallState :=
  path.prefixRoutes.foldl (installPrefix tableID path) st

def colorRule (tenantID : String) (color : UInt64) : Resource :=
  .rule
    { priority := 80, src := none, table := colorTableID (stringToID tenantID).toNat color,
      mark := intOfUInt64 color, iif := vrfTableName tenantID }

structure RenderOrders where
  tenants : RangeOrder
  portals : String → RangeOrder
  colors : String → RangeOrder

def RenderOrders.listed : RenderOrders where
  tenants := .listed
  portals := fun _ => .listed
  colors := fun _ => .listed

def installPaths (tenantID : String) (t : TenantIntent) (collisions : GoMap ℤ String) :
    InstallState :=
  t.installPaths.foldl (installPath (stringToID tenantID).toNat) ⟨collisions, ∅, []⟩

def tenantResources (ords : RenderOrders) (tenantID : String) (t : TenantIntent)
    (collisions : GoMap ℤ String) : List Resource :=
  let tableID := stringToID tenantID
  let installed := installPaths tenantID t collisions
  .vrf { name := vrfTableName tenantID, tableID, index := 0 } ::
    (if t.dt46SID.isValid then
      [.sid
        { sidType := .dt46, sid := t.dt46SID, tableID := tableID.toNat, metric := 0,
          vrfTableID := 0 }]
      else []) ++
    (t.portalIntents.range (ords.portals tenantID)).flatMap (fun p => renderPortal tenantID p.2) ++
    installed.srRoutes ++
    (installed.uniqueColors.range (ords.colors tenantID)).map fun c => colorRule tenantID c.1

def tenantRound (ords : RenderOrders) (st : GoMap ℤ String × List (String × Resource))
    (t : String × TenantIntent) : GoMap ℤ String × List (String × Resource) :=
  ((installPaths t.1 t.2 st.1).collisions,
    st.2 ++ (tenantResources ords t.1 t.2 st.1).map fun r => (t.1, r))

def renderTenants (ords : RenderOrders) (pe : PEIntent) : List (String × Resource) :=
  ((pe.tenants.range ords.tenants).foldl (tenantRound ords) (∅, [])).2

def renderPEIntent (ords : RenderOrders) (pe : PEIntent) : Except String ResourceMap :=
  (renderClasses pe.trafficClassIntent).map fun classes =>
    storeAll (classes ++ (renderTenants ords pe).map Prod.snd)

def renderIntent (ords : RenderOrders) : Intent → Except String ResourceMap
  | .cpe i => renderCPEIntent i
  | .pe i => renderPEIntent ords i

structure FIB where
  vrfLinks : List DataplaneVRF
  xfrmLinks : List DataplaneXFRM
  routes : List DataplaneRoute
  sids : List DataplaneSID
  rules : List DataplaneRule
  srRoutes : List DataplaneSRRoute
  classifications : List DataplaneClassification

def FIB.resources (fib : FIB) : List Resource :=
  fib.classifications.map (fun c =>
    .classification { classifier := c.classifier, mark := c.mark }) ++
  fib.vrfLinks.map (fun l =>
    .vrf { name := l.name, tableID := l.tableID, index := l.index }) ++
  fib.xfrmLinks.map (fun l =>
    .xfrm
      { name := l.name, ifID := l.ifID, parent := l.parentName, masterVRF := l.masterName,
        index := l.index }) ++
  fib.routes.map (fun r =>
    .route
      { table := r.table, dst := Prefix.prefixFrom r.dst.ip r.dst.ones, dev := r.dev,
        via := r.via, metric := 0 }) ++
  fib.rules.map (fun r =>
    .rule
      { priority := r.priority, src := r.src, table := r.table, mark := r.mark,
        iif := r.iif }) ++
  fib.sids.map (fun s =>
    .sid
      { sidType := s.encapType, sid := s.dst.ip, tableID := s.vrfTableID, metric := 0,
        vrfTableID := 0 }) ++
  fib.srRoutes.map fun r =>
    .srRoute
      { routePrefix := Prefix.prefixFrom r.dst.ip r.dst.ones, segments := r.segments,
        table := r.table, color := UInt64.ofInt r.color }

def renderFIB (fib : FIB) : ResourceMap := storeAll fib.resources

end Maeto.Dataplane
