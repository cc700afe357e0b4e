import Maeto.ControlPlane.DemandOrder
import Maeto.ControlPlane.Pce.Report
import Maeto.ControlPlane.Service.Tunnels
import Maeto.Foundation.Result

/-!
# The dispatcher of the paths

The paths that are in use come to the dispatcher under tenant, ingress node, egress node and
class. A provider edge installs, for each of its tenants, one segment list for every remote
site and class. The dispatcher first groups the sites that are reached over the paths by node
and tenant, in the order of the keys, and then builds the segment lists of each group and
stages them in one transaction.

A segment list has one SID for each node between the two ends, and the SID of the tenant on
the egress node, which is allocated when there is none. What is passed over is logged.
-/

namespace Maeto.ControlPlane

open Foundation Netip Nodesync GoMap

section Segments

def PCEEdge.isBundle (e : PCEEdge) : Bool := e.id.kind = .bundle

def endXOf (graph : PCEGraph) (id : PCEEdgeID) : Option Addr :=
  match graph.edges.lookup id with
  | none => none
  | some edge =>
    if edge.isBundle then none
    else
      match edge.realEdges with
      | [link] => if link.endX.isValid then some link.endX else none
      | _ => none

def transitSegment (graph : PCEGraph) (hop : NodeID × PCEEdgeID) : Except String Addr :=
  match graph.nodes.lookup hop.1 with
  | none => .error ("transit node " ++ hop.1 ++ " is not in the topology")
  | some node => .ok ((endXOf graph hop.2).getD node.locator.ip)

def transitSegments (graph : PCEGraph) (path : Path) : Except String (List Addr) :=
  if path.edges.length + 1 ≠ path.nodes.length then
    .error ("path has " ++ toString path.nodes.length ++ " nodes but " ++
      toString path.edges.length ++ " edges")
  else ((path.nodes.zip path.edges).drop 1).mapM (transitSegment graph)

theorem exists_transitSegments_iff {graph : PCEGraph} {path : Path}
    (h : ∀ n ∈ path.nodes, n ∈ graph.nodes) :
    (∃ sids, transitSegments graph path = .ok sids) ↔
      path.edges.length + 1 = path.nodes.length := by
  unfold transitSegments
  split_ifs with hlength
  · exact iff_of_false (fun ⟨_, hsids⟩ => by cases hsids) hlength
  · refine iff_of_true (Result.exists_mapM_eq_ok ?_) (not_not.mp hlength)
    intro hop hmem
    obtain ⟨node, hnode⟩ :=
      mem_iff.mp (h hop.1 (List.of_mem_zip (List.mem_of_mem_drop hmem)).1)
    exact ⟨_, by rw [transitSegment, hnode]⟩

end Segments

section Order

def PathKey.compare (k other : PathKey) : Ordering :=
  (Ord.compare k.tenant other.tenant).then <|
    (Ord.compare k.fromNode other.fromNode).then <|
      (Ord.compare k.toNode other.toNode).then (Ord.compare k.label other.label)

instance : Std.TransCmp PathKey.compare :=
  inferInstanceAs (Std.TransCmp
    (compareLex (compareOn PathKey.tenant)
      (compareLex (compareOn PathKey.fromNode)
        (compareLex (compareOn PathKey.toNode) (compareOn PathKey.label)))))

theorem PathKey.compare_eq_eq_iff {k other : PathKey} : k.compare other = .eq ↔ k = other := by
  rw [PathKey.compare, Ordering.then_eq_eq, Ordering.then_eq_eq, Ordering.then_eq_eq,
    compare_eq_iff_eq, compare_eq_iff_eq, Std.LawfulEqCmp.compare_eq_iff_eq,
    Std.LawfulEqCmp.compare_eq_iff_eq]
  cases k
  cases other
  rw [PathKey.mk.injEq]

abbrev PathUpdate := GoMap PathKey (Option Path)

def sortedPaths (ord : RangeOrder) (paths : PathUpdate) : List (PathKey × Option Path) :=
  (paths.range ord).insertionSort fun a b => a.1.compare b.1 ≠ .gt

instance : IsTrans (PathKey × Option Path) fun a b => a.1.compare b.1 ≠ .gt where
  trans a b c hab hbc := by
    have hle := Std.TransCmp.isLE_trans (Ordering.ne_gt_iff_isLE.mp hab)
      (Ordering.ne_gt_iff_isLE.mp hbc)
    exact Ordering.ne_gt_iff_isLE.mpr hle

instance : Std.Total fun a b : PathKey × Option Path => a.1.compare b.1 ≠ .gt where
  total a b := by
    by_cases h : a.1.compare b.1 = .gt
    · right
      rw [Std.OrientedCmp.gt_iff_lt] at h
      simp [h]
    · exact Or.inl h

theorem sortedPaths_eq (ord ord' : RangeOrder) (paths : PathUpdate) :
    sortedPaths ord paths = sortedPaths ord' paths := by
  have hperm : (sortedPaths ord paths).Perm (sortedPaths ord' paths) :=
    ((List.perm_insertionSort _ _).trans (range_perm ord paths)).trans
      ((List.perm_insertionSort _ _).trans (range_perm ord' paths)).symm
  refine hperm.eq_of_pairwise ?_ (List.pairwise_insertionSort _ _)
    (List.pairwise_insertionSort _ _)
  rintro ⟨k, path⟩ ⟨k', path'⟩ ha hb hab hba
  have hkey : k = k' := by
    rw [← PathKey.compare_eq_eq_iff]
    cases hcmp : k.compare k' with
    | eq => rfl
    | gt => exact absurd hcmp hab
    | lt => exact absurd (Std.OrientedCmp.gt_iff_lt.mpr hcmp) hba
  have hlookup : ∀ {ord k path}, (k, path) ∈ sortedPaths ord paths →
      paths.lookup k = some path := by
    intro ord k path h
    exact (mem_range ord paths k path).mp ((List.mem_insertionSort _).mp h)
  have hpath := hlookup ha
  rw [hkey, hlookup hb] at hpath
  rw [hkey, Option.some.inj hpath]

end Order

section Dispatch

structure RemoteSiteRoute where
  remote : Site
  path : Path

abbrev RemoteRoutes := GoMap NodeID (GoMap TenantID (List RemoteSiteRoute))

inductive DispatchError where
  | noInventoryEntry (nodeID : NodeID)
  | unknownTenant (tenant : TenantID)
  | noLocalNode (nodeID : NodeID)
  | noRemoteNode (nodeID : NodeID)
  | noSID (tenant : TenantID) (nodeID : NodeID)
  | noSegments (tenant : TenantID) (nodeID : NodeID) (err : String)
  deriving DecidableEq

def DispatchError.msg : DispatchError → String
  | noInventoryEntry _ => "found node without a inventory entry"
  | unknownTenant _ => "path for unknown tenant"
  | noLocalNode _ => "failed to get local node entry"
  | noRemoteNode _ => "failed to get Node entry"
  | noSID _ _ => "failed to get/generated DT46 SID for tenant @ remote"
  | noSegments _ _ _ => "failed to build segment list; skipping site pair"

def addRoute (key : PathKey) (path : Path) (byTenant : GoMap TenantID (List RemoteSiteRoute))
    (remote : Site) : GoMap TenantID (List RemoteSiteRoute) :=
  if remote.attach ≠ key.toNode then byTenant
  else byTenant.insert key.tenant (byTenant.getD key.tenant [] ++ [⟨remote, path⟩])

def addRoutes (c : Controller) (st : RemoteRoutes × List DispatchError)
    (e : PathKey × Option Path) : RemoteRoutes × List DispatchError :=
  match e.2 with
  | none => st
  | some path =>
    if e.1.fromNode = e.1.toNode then st
    else
      match c.inventory.node e.1.fromNode with
      | none => (st.1, st.2 ++ [.noInventoryEntry e.1.fromNode])
      | some _ =>
        match c.tenants.tenant e.1.tenant with
        | none => (st.1, st.2 ++ [.unknownTenant e.1.tenant])
        | some tenant =>
          (st.1.insert e.1.fromNode
            (tenant.sites.foldl (addRoute e.1 path) (st.1.getD e.1.fromNode ∅)), st.2)

def remoteRoutesByNode (c : Controller) (ord : RangeOrder) (paths : PathUpdate) :
    RemoteRoutes × List DispatchError :=
  (sortedPaths ord paths).foldl (addRoutes c) (∅, [])

def tenantIDText (tenantID : TenantID) : String := String.ofList (Text.decimal tenantID)

structure RouteState where
  tenantSIDIntents : List PESIDInstallIntent
  s : SIDState
  logged : List DispatchError

def routeRound (c : Controller) (nodeID : NodeID) (tenantID : TenantID) (st : RouteState)
    (route : RemoteSiteRoute) : RouteState :=
  match c.topology.nodes.lookup route.remote.attach with
  | none => { st with logged := st.logged ++ [.noRemoteNode nodeID] }
  | some remoteNode =>
    match getOrGenerateSID remoteNode.locator (tenantIDText tenantID) .dt46 st.s with
    | (.error _, s) => { st with s, logged := st.logged ++ [.noSID tenantID remoteNode.id] }
    | (.ok dt46, s) =>
      match transitSegments (newPCEGraph c.topology) route.path with
      | .error err => { st with s, logged := st.logged ++ [.noSegments tenantID nodeID err] }
      | .ok sidAddrList =>
        { st with
          s
          tenantSIDIntents := st.tenantSIDIntents ++
            [{ tenantID := tenantIDText tenantID
               prefixRoutes := [route.remote.sitePrefix]
               segments := sidAddrList ++ [dt46]
               color := route.path.label }] }

structure DispatchState where
  tx : RegistryTx
  s : SIDState
  logged : List DispatchError

def tenantRound (c : Controller) (nodeID : NodeID) (localNode : Node) (st : DispatchState)
    (e : TenantID × List RemoteSiteRoute) : DispatchState :=
  let built := e.2.foldl (routeRound c nodeID e.1)
    { tenantSIDIntents := [], s := st.s, logged := st.logged }
  { tx := stageSIDSegsForTenantOnNode st.tx (tenantIDText e.1) nodeID localNode.locator
      built.tenantSIDIntents
    s := built.s
    logged := built.logged }

structure DispatchOrders where
  paths : RangeOrder
  nodes : RangeOrder
  tenants : NodeID → RangeOrder

def nodeRound (c : Controller) (ords : DispatchOrders) (st : DispatchState)
    (e : NodeID × GoMap TenantID (List RemoteSiteRoute)) : DispatchState :=
  match c.topology.nodes.lookup e.1 with
  | none => { st with logged := st.logged ++ [.noLocalNode e.1] }
  | some localNode => (e.2.range (ords.tenants e.1)).foldl (tenantRound c e.1 localNode) st

def dispatch (c : Controller) (ords : DispatchOrders) (paths : PathUpdate) (s : SIDState) :
    DispatchState :=
  ((remoteRoutesByNode c ords.paths paths).1.range ords.nodes).foldl (nodeRound c ords)
    { tx := beginTx, s, logged := (remoteRoutesByNode c ords.paths paths).2 }

end Dispatch

section Grouping

variable {c : Controller}

def RemoteRoutes.of (m : RemoteRoutes) (nodeID : NodeID) (tenantID : TenantID) :
    List RemoteSiteRoute :=
  (m.getD nodeID ∅).getD tenantID []

def sitesOn (c : Controller) (tenantID : TenantID) (nodeID : NodeID) : List Site :=
  ((c.tenants.tenant tenantID).elim [] Tenant.sites).filter fun site => site.attach = nodeID

def routesOf (c : Controller) (e : PathKey × Option Path) : List RemoteSiteRoute :=
  e.2.toList.flatMap fun path =>
    (sitesOn c e.1.tenant e.1.toNode).map fun remote => ⟨remote, path⟩

def routesAt (c : Controller) (paths : PathUpdate) (nodeID : NodeID) (tenantID : TenantID) :
    List RemoteSiteRoute :=
  ((sortedPaths .listed paths).filter fun e =>
    e.1.tenant = tenantID ∧ e.1.fromNode = nodeID ∧ e.1.toNode ≠ nodeID).flatMap (routesOf c)

theorem getD_foldl_addRoute (key : PathKey) (path : Path) (sites : List Site)
    (byTenant : GoMap TenantID (List RemoteSiteRoute)) (tenantID : TenantID) :
    (sites.foldl (addRoute key path) byTenant).getD tenantID [] =
      byTenant.getD tenantID [] ++
        if tenantID = key.tenant then
          (sites.filter fun site => site.attach = key.toNode).map fun remote => ⟨remote, path⟩
        else [] := by
  induction sites generalizing byTenant with
  | nil => simp
  | cons site sites ih =>
    rw [List.foldl_cons, ih, addRoute]
    by_cases hattach : site.attach = key.toNode
    · rw [if_neg (not_not.mpr hattach), getD_insert,
        List.filter_cons_of_pos (by simpa using hattach)]
      split_ifs with htenant
      · rw [htenant, List.map_cons, List.append_assoc, List.singleton_append]
      · rfl
    · rw [if_pos hattach, List.filter_cons_of_neg (by simpa using hattach)]

theorem of_addRoutes (st : RemoteRoutes × List DispatchError) (e : PathKey × Option Path)
    {nodeID : NodeID} (hnode : (c.inventory.node nodeID).isSome) (tenantID : TenantID) :
    (addRoutes c st e).1.of nodeID tenantID =
      st.1.of nodeID tenantID ++
        if e.1.tenant = tenantID ∧ e.1.fromNode = nodeID ∧ e.1.toNode ≠ nodeID then routesOf c e
        else [] := by
  obtain ⟨key, path⟩ := e
  have hself : ∀ {rs : List RemoteSiteRoute}, rs = [] →
      st.1.of nodeID tenantID = st.1.of nodeID tenantID ++ rs := by
    rintro rs rfl
    exact (List.append_nil _).symm
  cases path with
  | none => exact hself (ite_self [])
  | some path =>
    rw [addRoutes]
    dsimp only
    by_cases hends : key.fromNode = key.toNode
    · rw [if_pos hends]
      refine hself (if_neg ?_)
      rintro ⟨-, rfl, hne⟩
      exact hne hends.symm
    rw [if_neg hends]
    cases hinv : c.inventory.node key.fromNode with
    | none =>
      refine hself (if_neg ?_)
      rintro ⟨-, rfl, -⟩
      rw [hinv] at hnode
      cases hnode
    | some node =>
      cases htenant : c.tenants.tenant key.tenant with
      | none =>
        have hnone : routesOf c (key, some path) = [] := by
          simp [routesOf, sitesOn, htenant]
        exact hself (by rw [hnone, ite_self])
      | some tenant =>
        have hroutes : routesOf c (key, some path) =
            (tenant.sites.filter fun site => site.attach = key.toNode).map
              fun remote => ⟨remote, path⟩ := by
          simp [routesOf, sitesOn, htenant]
        rw [hroutes, RemoteRoutes.of, getD_insert]
        by_cases hfrom : nodeID = key.fromNode
        · subst hfrom
          rw [if_pos rfl, getD_foldl_addRoute]
          simp only [eq_comm (a := tenantID), ne_eq, Ne.symm hends, not_false_eq_true,
            and_true, RemoteRoutes.of]
        · rw [if_neg hfrom]
          exact hself (if_neg fun hkey => hfrom hkey.2.1.symm)

theorem of_remoteRoutesByNode (c : Controller) (ord : RangeOrder) (paths : PathUpdate)
    {nodeID : NodeID} (hnode : (c.inventory.node nodeID).isSome) (tenantID : TenantID) :
    (remoteRoutesByNode c ord paths).1.of nodeID tenantID = routesAt c paths nodeID tenantID := by
  have hfold : ∀ (l : List (PathKey × Option Path)) (st : RemoteRoutes × List DispatchError),
      (l.foldl (addRoutes c) st).1.of nodeID tenantID = st.1.of nodeID tenantID ++
        (l.filter fun e => e.1.tenant = tenantID ∧ e.1.fromNode = nodeID ∧
          e.1.toNode ≠ nodeID).flatMap (routesOf c) := by
    intro l
    induction l with
    | nil => simp
    | cons e l ih =>
      intro st
      rw [List.foldl_cons, ih, of_addRoutes st e hnode, List.filter_cons, List.append_assoc]
      simp only [decide_eq_true_eq]
      split_ifs
      · rw [List.flatMap_cons]
      · rfl
  rw [remoteRoutesByNode, hfold, routesAt, sortedPaths_eq ord .listed]
  rfl

end Grouping

end Maeto.ControlPlane
