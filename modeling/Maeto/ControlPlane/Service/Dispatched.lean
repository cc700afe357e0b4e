import Maeto.ControlPlane.Service.Acknowledged
import Maeto.ControlPlane.Service.Dispatcher

/-!
# What the dispatcher installs

Every route of a tenant on a node becomes one entry of its list, in the order of the keys of
the paths and of the sites of the tenant. The SIDs that the tenant has on the egress nodes are
not lost or changed while the dispatcher runs, so an entry carries the SID that is known at
the end. The orders in which the maps are visited only decide which of the free SIDs a tenant
gets that had none.
-/

namespace Maeto.ControlPlane

open Foundation Netip Nodesync GoMap AList

section Sids

def Keeps (sids sids' : GoMap String Addr) : Prop :=
  ∀ key sid, sids.lookup key = some sid → sids'.lookup key = some sid

theorem Keeps.refl (sids : GoMap String Addr) : Keeps sids sids := fun _ _ h => h

variable {sids : GoMap String Addr}

theorem Keeps.trans {sids' sids'' : GoMap String Addr} (h : Keeps sids sids')
    (h' : Keeps sids' sids'') : Keeps sids sids'' :=
  fun key sid hsid => h' key sid (h key sid hsid)

theorem Served.keepsMap {k : SIDKey} {db : Database}
    {res : Except String Addr} {s' : SIDState} (h : Served k sids db res s') :
    Keeps sids s'.sidTenantMap := by
  cases h with
  | failed err hmap hdb => exact hmap ▸ Keeps.refl sids
  | found hlookup hmap hdb => exact hmap ▸ Keeps.refl sids
  | allocated hlookup hfresh hmap hdb =>
    intro key sid hsid
    rw [hmap, lookup_insert_ne, hsid]
    rintro rfl
    rw [hlookup] at hsid
    cases hsid

theorem Served.lookup {k : SIDKey} {db : Database} {sid : Addr}
    {s' : SIDState} (h : Served k sids db (.ok sid) s') :
    s'.sidTenantMap.lookup k.text = some sid := by
  cases h with
  | found hlookup hmap hdb => rw [hmap, hlookup]
  | allocated hlookup hfresh hmap hdb => rw [hmap, lookup_insert]

def egressSID (c : Controller) (sids : GoMap String Addr) (tenantID : TenantID)
    (route : RemoteSiteRoute) : Option Addr :=
  (c.topology.nodes.lookup route.remote.attach).bind fun remoteNode =>
    sids.lookup (tenantMapKey remoteNode.locator (tenantIDText tenantID) .dt46)

def installIntent (c : Controller) (sids : GoMap String Addr) (tenantID : TenantID)
    (route : RemoteSiteRoute) : Option PESIDInstallIntent :=
  (egressSID c sids tenantID route).bind fun dt46 =>
    (transitSegments (newPCEGraph c.topology) route.path).toOption.map fun segments =>
      { tenantID := tenantIDText tenantID
        prefixRoutes := [route.remote.sitePrefix]
        segments := segments ++ [dt46]
        color := route.path.label }

theorem Keeps.egressSID_eq {sids' : GoMap String Addr} (h : Keeps sids sids') {c : Controller}
    {tenantID : TenantID} {route : RemoteSiteRoute}
    (hsid : (egressSID c sids tenantID route).isSome) :
    egressSID c sids' tenantID route = egressSID c sids tenantID route := by
  unfold egressSID at hsid ⊢
  cases hnode : c.topology.nodes.lookup route.remote.attach with
  | none => rfl
  | some remoteNode =>
    rw [hnode, Option.bind_some] at hsid
    obtain ⟨sid, hsid⟩ := Option.isSome_iff_exists.mp hsid
    rw [Option.bind_some, Option.bind_some, hsid, h _ _ hsid]

end Sids

section Rounds

variable {c : Controller}

/-- Every SID that was asked for was found or generated. -/
def SIDsGenerated (logged : List DispatchError) : Prop :=
  ∀ err ∈ logged, err.msg ≠ "failed to get/generated DT46 SID for tenant @ remote"

instance (logged : List DispatchError) : Decidable (SIDsGenerated logged) :=
  inferInstanceAs (Decidable (∀ err ∈ logged, _))

def Found (c : Controller) (sids : GoMap String Addr) (asked : List (TenantID × RemoteSiteRoute)) :
    Prop :=
  ∀ a ∈ asked, a.2.remote.attach ∈ c.topology.nodes → (egressSID c sids a.1 a.2).isSome

theorem Found.of_keeps {sids sids' : GoMap String Addr} {asked : List (TenantID × RemoteSiteRoute)}
    (h : Found c sids asked) (hkeeps : Keeps sids sids') : Found c sids' asked := by
  intro a ha hnode
  rw [hkeeps.egressSID_eq (h a ha hnode)]
  exact h a ha hnode

theorem Found.append {sids : GoMap String Addr} {asked asked' : List (TenantID × RemoteSiteRoute)}
    (h : Found c sids asked) (h' : Found c sids asked') : Found c sids (asked ++ asked') := by
  intro a ha
  rcases List.mem_append.mp ha with ha | ha
  · exact h a ha
  · exact h' a ha

structure Builds (c : Controller) (tenantID : TenantID) (routes : List RemoteSiteRoute)
    (st st' : RouteState) : Prop where
  keeps : Keeps st.s.sidTenantMap st'.s.sidTenantMap
  logged : st.logged <+: st'.logged
  intents : SIDsGenerated st'.logged → ∀ sids, Keeps st'.s.sidTenantMap sids →
    st'.tenantSIDIntents = st.tenantSIDIntents ++ routes.filterMap (installIntent c sids tenantID)
  found : SIDsGenerated st'.logged → Found c st'.s.sidTenantMap (routes.map (Prod.mk tenantID))

theorem Builds.single {tenantID : TenantID} {route : RemoteSiteRoute} {st st' : RouteState}
    (intent : Option PESIDInstallIntent) (hkeeps : Keeps st.s.sidTenantMap st'.s.sidTenantMap)
    (hlogged : st.logged <+: st'.logged)
    (hintents : st'.tenantSIDIntents = st.tenantSIDIntents ++ intent.toList)
    (hinstall : ∀ sids, Keeps st'.s.sidTenantMap sids →
      installIntent c sids tenantID route = intent)
    (hfound : route.remote.attach ∈ c.topology.nodes →
      (egressSID c st'.s.sidTenantMap tenantID route).isSome) :
    Builds c tenantID [route] st st' := by
  refine ⟨hkeeps, hlogged, fun _ sids hsids => ?_, fun _ a ha => ?_⟩
  · rw [hintents, List.filterMap_cons, hinstall sids hsids]
    cases intent <;> rfl
  · cases List.mem_singleton.mp ha
    exact hfound

theorem routeRound_builds (nodeID : NodeID) (tenantID : TenantID) (st : RouteState)
    (route : RemoteSiteRoute) :
    Builds c tenantID [route] st (routeRound c nodeID tenantID st route) := by
  unfold routeRound
  cases hnode : c.topology.nodes.lookup route.remote.attach with
  | none =>
    refine .single none (Keeps.refl _) (List.prefix_append _ _) (List.append_nil _).symm
      (fun sids _ => ?_) fun hmem => absurd hmem (lookup_eq_none.mp hnode)
    rw [installIntent, egressSID, hnode]
    rfl
  | some remoteNode =>
    have hserved := getOrGenerateSID_served
      ⟨remoteNode.locator, tenantIDText tenantID, .dt46⟩ st.s
    dsimp only at hserved ⊢
    generalize getOrGenerateSID remoteNode.locator (tenantIDText tenantID) .dt46 st.s = out
      at hserved ⊢
    obtain ⟨res, s⟩ := out
    cases res with
    | error err =>
      have hfail : ¬ SIDsGenerated (st.logged ++ [.noSID tenantID remoteNode.id]) :=
        fun hgen => hgen (.noSID tenantID remoteNode.id) (by simp) rfl
      exact ⟨hserved.keepsMap, List.prefix_append _ _, fun hgen => absurd hgen hfail,
        fun hgen => absurd hgen hfail⟩
    | ok dt46 =>
      have hsid : ∀ sids, Keeps s.sidTenantMap sids →
          egressSID c sids tenantID route = some dt46 := by
        intro sids hsids
        rw [egressSID, hnode, Option.bind_some]
        exact hsids _ _ hserved.lookup
      have hfound := Option.isSome_of_eq_some (hsid _ (Keeps.refl _))
      cases hsegments : transitSegments (newPCEGraph c.topology) route.path with
      | error err =>
        refine .single none hserved.keepsMap (List.prefix_append _ _) (List.append_nil _).symm
          (fun sids hsids => ?_) fun _ => hfound
        rw [installIntent, hsid sids hsids, hsegments]
        rfl
      | ok sidAddrList =>
        refine .single (some _) hserved.keepsMap (List.prefix_refl _) rfl (fun sids hsids => ?_)
          fun _ => hfound
        rw [installIntent, hsid sids hsids, hsegments]
        rfl

theorem foldl_routeRound_builds (nodeID : NodeID) (tenantID : TenantID)
    (routes : List RemoteSiteRoute) (st : RouteState) :
    Builds c tenantID routes st (routes.foldl (routeRound c nodeID tenantID) st) := by
  induction routes generalizing st with
  | nil =>
    exact ⟨Keeps.refl _, List.prefix_refl _, fun _ _ _ => (List.append_nil _).symm,
      fun _ _ ha => absurd ha List.not_mem_nil⟩
  | cons route routes ih =>
    have hround := routeRound_builds (c := c) nodeID tenantID st route
    have hrest := ih (routeRound c nodeID tenantID st route)
    have hgen' : SIDsGenerated (routes.foldl (routeRound c nodeID tenantID)
        (routeRound c nodeID tenantID st route)).logged →
        SIDsGenerated (routeRound c nodeID tenantID st route).logged :=
      fun hgen err herr => hgen err (hrest.logged.subset herr)
    refine ⟨hround.keeps.trans hrest.keeps, hround.logged.trans hrest.logged, ?_, ?_⟩
    · intro hgen sids hsids
      rw [List.foldl_cons, hrest.intents hgen sids hsids,
        hround.intents (hgen' hgen) sids (hrest.keeps.trans hsids), List.append_assoc,
        ← List.filterMap_append, List.singleton_append]
    · intro hgen
      exact ((hround.found (hgen' hgen)).of_keeps hrest.keeps).append (hrest.found hgen)

structure Stages (c : Controller) (stage : GoMap String Addr → RegistryTx → RegistryTx)
    (asked : List (TenantID × RemoteSiteRoute)) (st st' : DispatchState) : Prop where
  keeps : Keeps st.s.sidTenantMap st'.s.sidTenantMap
  logged : st.logged <+: st'.logged
  tx : SIDsGenerated st'.logged → ∀ sids, Keeps st'.s.sidTenantMap sids →
    st'.tx = stage sids st.tx
  found : SIDsGenerated st'.logged → Found c st'.s.sidTenantMap asked

theorem Stages.foldl {α : Type} {round : DispatchState → α → DispatchState}
    {stage : GoMap String Addr → RegistryTx → α → RegistryTx}
    {asked : α → List (TenantID × RemoteSiteRoute)}
    (h : ∀ st e, Stages c (fun sids tx => stage sids tx e) (asked e) st (round st e)) (l : List α)
    (st : DispatchState) :
    Stages c (fun sids tx => l.foldl (stage sids) tx) (l.flatMap asked) st (l.foldl round st) := by
  induction l generalizing st with
  | nil =>
    exact ⟨Keeps.refl _, List.prefix_refl _, fun _ _ _ => rfl,
      fun _ _ ha => absurd ha List.not_mem_nil⟩
  | cons e l ih =>
    have hround := h st e
    have hrest := ih (round st e)
    have hgen' : SIDsGenerated (l.foldl round (round st e)).logged →
        SIDsGenerated (round st e).logged :=
      fun hgen err herr => hgen err (hrest.logged.subset herr)
    refine ⟨hround.keeps.trans hrest.keeps, hround.logged.trans hrest.logged, ?_, ?_⟩
    · intro hgen sids hsids
      rw [List.foldl_cons, hrest.tx hgen sids hsids,
        hround.tx (hgen' hgen) sids (hrest.keeps.trans hsids), List.foldl_cons]
    · intro hgen
      exact ((hround.found (hgen' hgen)).of_keeps hrest.keeps).append (hrest.found hgen)

def stagePaths (c : Controller) (nodeID : NodeID) (localNode : Node) (sids : GoMap String Addr)
    (tx : RegistryTx) (e : TenantID × List RemoteSiteRoute) : RegistryTx :=
  stageSIDSegsForTenantOnNode tx (tenantIDText e.1) nodeID localNode.locator
    (e.2.filterMap (installIntent c sids e.1))

def stageNode (c : Controller) (ords : DispatchOrders) (sids : GoMap String Addr)
    (tx : RegistryTx) (e : NodeID × GoMap TenantID (List RemoteSiteRoute)) : RegistryTx :=
  (c.topology.nodes.lookup e.1).elim tx fun localNode =>
    (e.2.range (ords.tenants e.1)).foldl (stagePaths c e.1 localNode sids) tx

def askedOn (c : Controller) (ords : DispatchOrders)
    (e : NodeID × GoMap TenantID (List RemoteSiteRoute)) : List (TenantID × RemoteSiteRoute) :=
  (c.topology.nodes.lookup e.1).elim [] fun _ =>
    (e.2.range (ords.tenants e.1)).flatMap fun e => e.2.map (Prod.mk e.1)

theorem tenantRound_stages (nodeID : NodeID) (localNode : Node) (st : DispatchState)
    (e : TenantID × List RemoteSiteRoute) :
    Stages c (fun sids tx => stagePaths c nodeID localNode sids tx e) (e.2.map (Prod.mk e.1)) st
      (tenantRound c nodeID localNode st e) := by
  have hbuilds := foldl_routeRound_builds (c := c) nodeID e.1 e.2
    { tenantSIDIntents := [], s := st.s, logged := st.logged }
  refine ⟨hbuilds.keeps, hbuilds.logged, fun hgen sids hsids => ?_, hbuilds.found⟩
  rw [tenantRound, stagePaths, hbuilds.intents hgen sids hsids]
  rfl

theorem nodeRound_stages (ords : DispatchOrders) (st : DispatchState)
    (e : NodeID × GoMap TenantID (List RemoteSiteRoute)) :
    Stages c (fun sids tx => stageNode c ords sids tx e) (askedOn c ords e) st
      (nodeRound c ords st e) := by
  unfold nodeRound stageNode askedOn
  cases c.topology.nodes.lookup e.1 with
  | none =>
    exact ⟨Keeps.refl _, List.prefix_append _ _, fun _ _ _ => rfl,
      fun _ _ ha => absurd ha List.not_mem_nil⟩
  | some localNode => exact Stages.foldl (tenantRound_stages e.1 localNode) _ st

theorem dispatch_stages (ords : DispatchOrders) (paths : PathUpdate) (s : SIDState) :
    Stages c (fun sids tx => ((remoteRoutesByNode c ords.paths paths).1.range ords.nodes).foldl
        (stageNode c ords sids) tx)
      (((remoteRoutesByNode c ords.paths paths).1.range ords.nodes).flatMap (askedOn c ords))
      { tx := beginTx, s, logged := (remoteRoutesByNode c ords.paths paths).2 }
      (dispatch c ords paths s) :=
  Stages.foldl (nodeRound_stages ords) _ _

end Rounds

section Pending

structure SetsPaths (tenantID : String) (paths : List PESIDInstallIntent) (m : PendingMutation) :
    Prop where
  nodeType : m.nodeType = .pe
  sets : ∀ intent s, (m.mutate intent s).1 = none →
    ∃ pe t, intent = .pe pe ∧ t.installPaths = paths ∧
      (m.mutate intent s).2.1 = .pe { pe with tenants := pe.tenants.insert tenantID t }

theorem pending_stageSIDSegs (tx : RegistryTx) (tenantID : String) (nodeID : NodeID)
    (locatorPrefix : Prefix) (paths : List PESIDInstallIntent) :
    ∃ m, SetsPaths tenantID paths m ∧
      (stageSIDSegsForTenantOnNode tx tenantID nodeID locatorPrefix paths).pending =
        tx.pending.insert nodeID (tx.pending.getD nodeID [] ++ [m]) := by
  refine ⟨_, ⟨rfl, ?_⟩, rfl⟩
  intro intent s hnone
  cases intent with
  | cpe i => cases hnone
  | pe pe =>
    dsimp only [pendingPE] at hnone ⊢
    generalize getOrCreateTenantIntentForPE tenantID locatorPrefix pe s = out at hnone ⊢
    obtain ⟨res, s'⟩ := out
    cases res with
    | error err => cases hnone
    | ok t => exact ⟨pe, { t with installPaths := paths }, rfl, rfl, rfl⟩

theorem pending_foldl_stagePaths (c : Controller) (nodeID : NodeID) (localNode : Node)
    (sids : GoMap String Addr) (l : List (TenantID × List RemoteSiteRoute)) (tx : RegistryTx) :
    ∃ ms, List.Forall₂ (fun (e : TenantID × List RemoteSiteRoute) m =>
        SetsPaths (tenantIDText e.1) (e.2.filterMap (installIntent c sids e.1)) m) l ms ∧
      (l.foldl (stagePaths c nodeID localNode sids) tx).pending.getD nodeID [] =
        tx.pending.getD nodeID [] ++ ms ∧
      ∀ id ≠ nodeID, (l.foldl (stagePaths c nodeID localNode sids) tx).pending.lookup id =
        tx.pending.lookup id := by
  induction l generalizing tx with
  | nil => exact ⟨[], .nil, (List.append_nil _).symm, fun _ _ => rfl⟩
  | cons e l ih =>
    obtain ⟨m, hsets, hpending⟩ := pending_stageSIDSegs tx (tenantIDText e.1) nodeID
      localNode.locator (e.2.filterMap (installIntent c sids e.1))
    obtain ⟨ms, hms, hself, hother⟩ := ih (stagePaths c nodeID localNode sids tx e)
    refine ⟨m :: ms, .cons hsets hms, ?_, ?_⟩
    · rw [List.foldl_cons, hself, stagePaths, hpending, getD_insert, if_pos rfl,
        List.append_assoc, List.singleton_append]
    · intro id hid
      rw [List.foldl_cons, hother id hid, stagePaths, hpending, lookup_insert_ne hid]

theorem lookup_stageNode_ne {c : Controller} {ords : DispatchOrders} {sids : GoMap String Addr}
    {e : NodeID × GoMap TenantID (List RemoteSiteRoute)} {id : NodeID} (h : id ≠ e.1)
    (tx : RegistryTx) : (stageNode c ords sids tx e).pending.lookup id = tx.pending.lookup id := by
  unfold stageNode
  cases c.topology.nodes.lookup e.1 with
  | none => rfl
  | some localNode =>
    obtain ⟨-, -, -, hother⟩ := pending_foldl_stagePaths c e.1 localNode sids
      (e.2.range (ords.tenants e.1)) tx
    exact hother id h

theorem lookup_foldl_stageNode {c : Controller} {ords : DispatchOrders} {sids : GoMap String Addr}
    {l : List (NodeID × GoMap TenantID (List RemoteSiteRoute))} {id : NodeID}
    (h : id ∉ l.map Prod.fst) (tx : RegistryTx) :
    (l.foldl (stageNode c ords sids) tx).pending.lookup id = tx.pending.lookup id := by
  induction l generalizing tx with
  | nil => rfl
  | cons e l ih =>
    obtain ⟨hne, hid⟩ := not_or.mp (mt List.mem_cons.mpr h)
    rw [List.foldl_cons, ih hid, lookup_stageNode_ne hne]

theorem pending_stageNodes (c : Controller) (ords : DispatchOrders) (sids : GoMap String Addr)
    {routes : RemoteRoutes} {nodeID : NodeID} {byTenant : GoMap TenantID (List RemoteSiteRoute)}
    (hroutes : routes.lookup nodeID = some byTenant) (hnode : nodeID ∈ c.topology.nodes) :
    ∃ ms, List.Forall₂ (fun (e : TenantID × List RemoteSiteRoute) m =>
        SetsPaths (tenantIDText e.1) (e.2.filterMap (installIntent c sids e.1)) m)
          (byTenant.range (ords.tenants nodeID)) ms ∧
      ((routes.range ords.nodes).foldl (stageNode c ords sids) beginTx).pending.getD nodeID [] =
        ms := by
  obtain ⟨localNode, hnode⟩ := mem_iff.mp hnode
  obtain ⟨after, hsplit, hafter⟩ := range_eq_takeWhile_append ords.nodes hroutes
  have hbefore : nodeID ∉ ((routes.range ords.nodes).takeWhile fun e => e.1 ≠ nodeID).map
      Prod.fst := by
    intro hmem
    obtain ⟨e, he, hid⟩ := List.mem_map.mp hmem
    have hne := List.mem_takeWhile_imp he
    simp [hid] at hne
  obtain ⟨ms, hms, hself, -⟩ := pending_foldl_stagePaths c nodeID localNode sids
    (byTenant.range (ords.tenants nodeID))
    (((routes.range ords.nodes).takeWhile fun e => e.1 ≠ nodeID).foldl (stageNode c ords sids)
      beginTx)
  refine ⟨ms, hms, ?_⟩
  rw [hsplit, List.foldl_append, List.foldl_cons, GoMap.getD, lookup_foldl_stageNode hafter]
  rw [GoMap.getD, GoMap.getD, lookup_foldl_stageNode hbefore] at hself
  rw [stageNode, hnode]
  exact hself

end Pending

section Commits

def installPathsAt (r : ServiceRegistry) (nodeID : NodeID) (tenantID : String) :
    Option (List PESIDInstallIntent) :=
  (r.registry.lookup nodeID).bind fun ni =>
    match ni.intent with
    | .pe pe => (pe.tenants.lookup tenantID).map TenantIntent.installPaths
    | .cpe _ => none

theorem of_foldl_mutateRound_eq_nil {ms : List PendingMutation}
    {st : List String × Intent × SIDState} (h : (ms.foldl mutateRound st).1 = []) : st.1 = [] := by
  induction ms generalizing st with
  | nil => exact h
  | cons m ms ih => exact (List.append_eq_nil_iff.mp (ih h)).1

section Mutations

variable {l : List (String × List PESIDInstallIntent)} {ms : List PendingMutation}
  {st : List String × Intent × SIDState}

theorem SetsPaths.mutateRound {e : String × List PESIDInstallIntent} {m : PendingMutation}
    (hm : SetsPaths e.1 e.2 m) (hnil : (ms.foldl mutateRound (mutateRound st m)).1 = []) :
    ∃ pe t, st.2.1 = .pe pe ∧ t.installPaths = e.2 ∧
      (mutateRound st m).2.1 = .pe { pe with tenants := pe.tenants.insert e.1 t } := by
  have herr : st.1 ++ (m.mutate st.2.1 st.2.2).1.toList = [] := of_foldl_mutateRound_eq_nil hnil
  exact hm.sets _ _ (Option.toList_eq_nil_iff.mp (List.append_eq_nil_iff.mp herr).2)

theorem foldl_mutateRound_frame (hms : List.Forall₂ (fun e m => SetsPaths e.1 e.2 m) l ms)
    {pe : PEIntent} (hpe : st.2.1 = .pe pe) (hnil : (ms.foldl mutateRound st).1 = []) :
    ∃ pe', (ms.foldl mutateRound st).2.1 = .pe pe' ∧
      ∀ id ∉ l.map Prod.fst, pe'.tenants.lookup id = pe.tenants.lookup id := by
  induction hms generalizing st pe with
  | nil => exact ⟨pe, hpe, fun _ _ => rfl⟩
  | cons hm hms ih =>
    obtain ⟨pe', t, hpe', -, hround⟩ := hm.mutateRound hnil
    cases hpe.symm.trans hpe'
    obtain ⟨pe'', hfinal, hframe⟩ := ih hround hnil
    refine ⟨pe'', hfinal, fun id hid => ?_⟩
    obtain ⟨hne, hid⟩ := not_or.mp (mt List.mem_cons.mpr hid)
    rw [hframe id hid, lookup_insert_ne hne]

theorem foldl_mutateRound_setsPaths (hms : List.Forall₂ (fun e m => SetsPaths e.1 e.2 m) l ms)
    (hnodup : (l.map Prod.fst).Nodup) (hnil : (ms.foldl mutateRound st).1 = [])
    {e : String × List PESIDInstallIntent} (he : e ∈ l) :
    ∃ pe t, (ms.foldl mutateRound st).2.1 = .pe pe ∧ pe.tenants.lookup e.1 = some t ∧
      t.installPaths = e.2 := by
  induction hms generalizing st with
  | nil => cases he
  | cons hm hms ih =>
    obtain ⟨hnew, hnodup⟩ := List.nodup_cons.mp hnodup
    rcases List.mem_cons.mp he with rfl | he
    · obtain ⟨pe, t, -, hpaths, hround⟩ := hm.mutateRound hnil
      obtain ⟨pe', hfinal, hframe⟩ := foldl_mutateRound_frame hms hround hnil
      exact ⟨pe', t, hfinal, by rw [hframe _ hnew, lookup_insert], hpaths⟩
    · exact ih hnodup hnil he

end Mutations

theorem commitRound_intent (now : ℤ) (st : CommitState) (id : String) (m : PendingMutation)
    (ms : List PendingMutation) :
    ∃ start : List String × Intent × SIDState,
      (commitRound now st (id, m :: ms)).collectedErrors =
        st.collectedErrors ++ ((m :: ms).foldl mutateRound start).1 ∧
      ∃ ni, (commitRound now st (id, m :: ms)).r.registry.lookup id = some ni ∧
        ni.intent = ((m :: ms).foldl mutateRound start).2.1 :=
  ⟨([], (getOrCreateRegistryEntry st.r m.nodeType id now).intent, st.r.toSIDState), rfl, _,
    lookup_insert _, rfl⟩

theorem installPathsAt_commitLocked {tx : RegistryTx} {nodeID : NodeID}
    {l : List (String × List PESIDInstallIntent)} {ms : List PendingMutation}
    (hpending : tx.pending.getD nodeID [] = ms)
    (hms : List.Forall₂ (fun e m => SetsPaths e.1 e.2 m) l ms) (hnodup : (l.map Prod.fst).Nodup)
    {ord : RangeOrder} {now : ℤ} {r : ServiceRegistry}
    (hnil : (commitLocked tx ord now r).collectedErrors = [])
    {e : String × List PESIDInstallIntent} (he : e ∈ l) :
    installPathsAt (commitLocked tx ord now r).r nodeID e.1 = some e.2 := by
  cases ms with
  | nil =>
    cases hms
    cases he
  | cons m ms =>
    have hlookup : tx.pending.lookup nodeID = some (m :: ms) := by
      rw [GoMap.getD] at hpending
      cases hsome : tx.pending.lookup nodeID with
      | none =>
        rw [hsome] at hpending
        cases hpending
      | some ms' =>
        rw [hsome, Option.getD_some] at hpending
        rw [hpending]
    obtain ⟨start, herrs, ni, hni, hintent⟩ :=
      commitRound_intent now (tx.before ord now r nodeID) nodeID m ms
    rw [applied_of_collectedErrors_eq_nil hlookup hnil, List.self_eq_append_right] at herrs
    obtain ⟨pe, t, hpe, ht, hpaths⟩ := foldl_mutateRound_setsPaths hms hnodup herrs he
    rw [installPathsAt, lookup_commitLocked hlookup, hni, Option.bind_some, hintent, hpe]
    dsimp only
    rw [ht, Option.map_some, hpaths]

end Commits

section Installed

variable {c : Controller} {paths : PathUpdate} {s : SIDState} {nodeID : NodeID}
  {tenantID : TenantID}

/-- Every node that the paths refer to is known. -/
def NodesExist (c : Controller) (paths : PathUpdate) : Prop :=
  ∀ key path, paths.lookup key = some (some path) →
    (c.inventory.node key.fromNode).isSome ∧ key.fromNode ∈ c.topology.nodes ∧
      key.toNode ∈ c.topology.nodes ∧ ∀ n ∈ path.nodes, n ∈ c.topology.nodes

/-- The entry of a route: the prefix of the site, the class of the path as its colour, and the
segments of the path before the SID of the tenant on the egress node. -/
def Carries (c : Controller) (sids : GoMap String Addr) (tenantID : TenantID)
    (route : RemoteSiteRoute) (intent : PESIDInstallIntent) : Prop :=
  ∃ remoteNode segments dt46, c.topology.nodes.lookup route.remote.attach = some remoteNode ∧
    transitSegments (newPCEGraph c.topology) route.path = .ok segments ∧
    sids.lookup (tenantMapKey remoteNode.locator (tenantIDText tenantID) .dt46) = some dt46 ∧
    intent =
      { tenantID := tenantIDText tenantID
        prefixRoutes := [route.remote.sitePrefix]
        segments := segments ++ [dt46]
        color := route.path.label }

theorem tenantIDText_injective : Function.Injective tenantIDText := by
  intro a b h
  exact Text.decimal_injective (String.ofList_injective h)

variable {route : RemoteSiteRoute} {sids : GoMap String Addr}

theorem exists_of_mem_routesAt (h : route ∈ routesAt c paths nodeID tenantID) :
    ∃ key, paths.lookup key = some (some route.path) ∧ key.fromNode = nodeID ∧
      key.toNode = route.remote.attach := by
  obtain ⟨⟨key, path⟩, he, hroute⟩ := List.mem_flatMap.mp h
  obtain ⟨hsorted, hkey⟩ := List.mem_filter.mp he
  obtain ⟨-, hfrom, -⟩ := of_decide_eq_true hkey
  obtain ⟨path, hpath, hsite⟩ := List.mem_flatMap.mp hroute
  obtain ⟨remote, hremote, rfl⟩ := List.mem_map.mp hsite
  refine ⟨key, ?_, hfrom, (of_decide_eq_true (List.mem_filter.mp hremote).2).symm⟩
  rw [(mem_range _ _ _ _).mp ((List.mem_insertionSort _).mp hsorted)]
  exact congrArg some (Option.mem_toList.mp hpath)

theorem lookup_remoteRoutesByNode (ord : RangeOrder) (hnode : (c.inventory.node nodeID).isSome)
    (hroutes : routesAt c paths nodeID tenantID ≠ []) :
    ∃ byTenant, (remoteRoutesByNode c ord paths).1.lookup nodeID = some byTenant ∧
      byTenant.lookup tenantID = some (routesAt c paths nodeID tenantID) := by
  have hof := of_remoteRoutesByNode c ord paths hnode tenantID
  rw [RemoteRoutes.of, GoMap.getD, GoMap.getD] at hof
  cases hby : (remoteRoutesByNode c ord paths).1.lookup nodeID with
  | none =>
    rw [hby] at hof
    exact absurd hof.symm hroutes
  | some byTenant =>
    refine ⟨byTenant, rfl, ?_⟩
    rw [hby, Option.getD_some] at hof
    cases hrs : byTenant.lookup tenantID with
    | none =>
      rw [hrs] at hof
      exact absurd hof.symm hroutes
    | some rs =>
      rw [hrs, Option.getD_some] at hof
      rw [hof]

/-- A commit without an error installs the entries of the routes, read off the SIDs that are
known at the end of the dispatch or later. -/
theorem installPathsAt_dispatch {ords : DispatchOrders} {ord : RangeOrder} {now : ℤ}
    {r : ServiceRegistry} (hinv : (c.inventory.node nodeID).isSome)
    (htop : nodeID ∈ c.topology.nodes) (hroutes : routesAt c paths nodeID tenantID ≠ [])
    (hgen : SIDsGenerated (dispatch c ords paths s).logged)
    (hnil : (commitLocked (dispatch c ords paths s).tx ord now r).collectedErrors = [])
    (hsids : Keeps (dispatch c ords paths s).s.sidTenantMap sids) :
    installPathsAt (commitLocked (dispatch c ords paths s).tx ord now r).r nodeID
        (tenantIDText tenantID) =
      some ((routesAt c paths nodeID tenantID).filterMap (installIntent c sids tenantID)) := by
  obtain ⟨byTenant, hby, hrs⟩ := lookup_remoteRoutesByNode ords.paths hinv hroutes
  obtain ⟨ms, hms, hpending⟩ := pending_stageNodes c ords sids hby htop
  have htx := (dispatch_stages (c := c) ords paths s).tx hgen sids hsids
  have hnodup : (((byTenant.range (ords.tenants nodeID)).map fun e =>
      (tenantIDText e.1, e.2.filterMap (installIntent c sids e.1))).map Prod.fst).Nodup := by
    have hkeys := (range_keys_nodup (ords.tenants nodeID) byTenant).map
      tenantIDText_injective
    rwa [List.map_map] at hkeys ⊢
  dsimp only at htx
  rw [← htx] at hpending
  exact installPathsAt_commitLocked hpending (List.forall₂_map_left_iff.mpr hms) hnodup hnil
    (List.mem_map.mpr ⟨_, (mem_range _ _ _ _).mpr hrs, rfl⟩)

theorem found_dispatch {ords : DispatchOrders} (hinv : (c.inventory.node nodeID).isSome)
    (htop : nodeID ∈ c.topology.nodes) (hroutes : routesAt c paths nodeID tenantID ≠ [])
    (hgen : SIDsGenerated (dispatch c ords paths s).logged)
    (hroute : route ∈ routesAt c paths nodeID tenantID)
    (hremote : route.remote.attach ∈ c.topology.nodes) :
    (egressSID c (dispatch c ords paths s).s.sidTenantMap tenantID route).isSome := by
  obtain ⟨byTenant, hby, hrs⟩ := lookup_remoteRoutesByNode ords.paths hinv hroutes
  obtain ⟨localNode, hlocal⟩ := mem_iff.mp htop
  refine (dispatch_stages (c := c) ords paths s).found hgen (tenantID, route) ?_ hremote
  refine List.mem_flatMap.mpr ⟨_, (mem_range _ _ _ _).mpr hby, ?_⟩
  rw [askedOn, hlocal]
  exact List.mem_flatMap.mpr ⟨_, (mem_range _ _ _ _).mpr hrs,
    List.mem_map.mpr ⟨route, hroute, rfl⟩⟩

theorem installIntent_cases (hexist : NodesExist c paths)
    (hroute : route ∈ routesAt c paths nodeID tenantID)
    (hsid : (egressSID c sids tenantID route).isSome) :
    (route.path.edges.length + 1 = route.path.nodes.length ∧
      ∃ intent, installIntent c sids tenantID route = some intent ∧
        Carries c sids tenantID route intent) ∨
      route.path.edges.length + 1 ≠ route.path.nodes.length ∧
        installIntent c sids tenantID route = none := by
  obtain ⟨key, hlookup, -, hto⟩ := exists_of_mem_routesAt hroute
  obtain ⟨-, -, hremote, hnodes⟩ := hexist key route.path hlookup
  obtain ⟨dt46, hdt46⟩ := Option.isSome_iff_exists.mp hsid
  have hiff := @exists_transitSegments_iff (newPCEGraph c.topology) route.path
    (by rwa [newPCEGraph_nodes])
  cases hsegments : transitSegments (newPCEGraph c.topology) route.path with
  | error err =>
    refine Or.inr ⟨fun hlength => ?_, by rw [installIntent, hdt46, hsegments]; rfl⟩
    obtain ⟨segments, hok⟩ := hiff.mpr hlength
    rw [hsegments] at hok
    cases hok
  | ok segments =>
    refine Or.inl ⟨hiff.mp ⟨segments, hsegments⟩, _,
      by rw [installIntent, hdt46, hsegments]; rfl, ?_⟩
    rw [egressSID, Option.bind_eq_some_iff] at hdt46
    obtain ⟨remoteNode, hnode, hsid⟩ := hdt46
    exact ⟨remoteNode, segments, dt46, hnode, hsegments, hsid, rfl⟩

/-- When every SID is known, the entries are those of the routes whose paths have an edge for
each hop. -/
theorem forall₂_carries (hexist : NodesExist c paths)
    {routes : List RemoteSiteRoute} (hsub : routes ⊆ routesAt c paths nodeID tenantID)
    (hsids : ∀ route ∈ routes, (egressSID c sids tenantID route).isSome) :
    List.Forall₂ (Carries c sids tenantID)
      (routes.filter fun route => route.path.edges.length + 1 = route.path.nodes.length)
      (routes.filterMap (installIntent c sids tenantID)) := by
  induction routes with
  | nil => exact .nil
  | cons route routes ih =>
    obtain ⟨hroute, hsub⟩ := List.cons_subset.mp hsub
    obtain ⟨hsid, hsids⟩ := List.forall_mem_cons.mp hsids
    rcases installIntent_cases hexist hroute hsid with
      ⟨hlength, intent, hintent, hcarries⟩ | ⟨hlength, hnone⟩
    · rw [List.filter_cons_of_pos (by simpa using hlength), List.filterMap_cons_some hintent]
      exact .cons hcarries (ih hsub hsids)
    · rw [List.filter_cons_of_neg (by simpa using hlength), List.filterMap_cons_none hnone]
      exact ih hsub hsids

/-- The transaction of the dispatcher sets the list of every tenant on every node where it has
a route. It has one entry for each path whose edges fit its nodes and each site that the path
leads to, with the SIDs that are known when the dispatch ends. If the tenant had its SIDs
before, the list does not depend on the orders in which the maps are visited. -/
theorem dispatch_translates (c : Controller) (paths : PathUpdate) (hexist : NodesExist c paths)
    (s : SIDState) (nodeID : NodeID) (tenantID : TenantID)
    (hroutes : routesAt c paths nodeID tenantID ≠ []) :
    (∀ ords ord now r, SIDsGenerated (dispatch c ords paths s).logged →
      (commitLocked (dispatch c ords paths s).tx ord now r).collectedErrors = [] →
      ∃ intents, installPathsAt (commitLocked (dispatch c ords paths s).tx ord now r).r nodeID
          (tenantIDText tenantID) = some intents ∧
        List.Forall₂ (Carries c (dispatch c ords paths s).s.sidTenantMap tenantID)
          ((routesAt c paths nodeID tenantID).filter fun route =>
            route.path.edges.length + 1 = route.path.nodes.length) intents) ∧
    ((∀ route ∈ routesAt c paths nodeID tenantID,
        (egressSID c s.sidTenantMap tenantID route).isSome) →
      ∃ intents, ∀ ords ord now r, SIDsGenerated (dispatch c ords paths s).logged →
        (commitLocked (dispatch c ords paths s).tx ord now r).collectedErrors = [] →
        installPathsAt (commitLocked (dispatch c ords paths s).tx ord now r).r nodeID
          (tenantIDText tenantID) = some intents) := by
  obtain ⟨route, hroute⟩ := List.exists_mem_of_ne_nil _ hroutes
  obtain ⟨key, hlookup, rfl, -⟩ := exists_of_mem_routesAt hroute
  obtain ⟨hinv, htop, -, -⟩ := hexist key route.path hlookup
  constructor
  · intro ords ord now r hgen hnil
    refine ⟨_, installPathsAt_dispatch hinv htop hroutes hgen hnil (Keeps.refl _), ?_⟩
    refine forall₂_carries hexist (List.Subset.refl _) fun route hroute => ?_
    obtain ⟨key', hlookup', -, hto⟩ := exists_of_mem_routesAt hroute
    have hremote := (hexist key' route.path hlookup').2.2.1
    rw [hto] at hremote
    exact found_dispatch hinv htop hroutes hgen hroute hremote
  · intro hknown
    refine ⟨(routesAt c paths key.fromNode tenantID).filterMap
      (installIntent c s.sidTenantMap tenantID), fun ords ord now r hgen hnil => ?_⟩
    rw [installPathsAt_dispatch hinv htop hroutes hgen hnil (Keeps.refl _)]
    refine congrArg some (List.filterMap_congr fun route hroute => ?_)
    rw [installIntent, installIntent,
      (dispatch_stages (c := c) ords paths s).keeps.egressSID_eq (hknown route hroute)]

def siteOn (nodeID : NodeID) (sitePrefix : Prefix) : Site where
  tenantID := 1
  cpe := "cpe" ++ nodeID
  portalID := "cpe" ++ nodeID
  node := "cpe" ++ nodeID
  sitePrefix
  attach := nodeID
  attachNode := nodeID
  ifID := 0
  identity := "cpe" ++ nodeID ++ ".cpe.maeto.net"
  reservationMbps := 10
  classMbps := ∅

def siteOnEach : Controller where
  tenants :=
    { twoSites.tenants with
      byID := GoMap.collect Tenant.id
        [{ id := 1, allocation := .prefixFrom (.v6 0xfd000000000000000000000000000000) 48,
           tier := "", tierIndex := 0, vrfTable := 0,
           sites :=
            [siteOn "A" (.prefixFrom (.v6 0xfd000000000100000000000000000000) 64),
              siteOn "B" (.prefixFrom (.v6 0xfd000000000200000000000000000000) 64)] }]
      byID_id := by
        intro id t h
        exact (of_lookup_collect h).2 }
  inventory :=
    { byID := GoMap.collect InventoryNode.id
        [{ id := "A", name := "A" }, { id := "B", name := "B" }]
      byID_id := by
        intro id n h
        exact (of_lookup_collect h).2 }
  topology :=
    { twoSites.topology with
      nodes := GoMap.collect Node.id
        [⟨"A", .prefixFrom (.v6 0xfc000000000100000000000000000000) 48⟩,
          ⟨"B", .prefixFrom (.v6 0xfc000000000200000000000000000000) 48⟩] }

def oneHop (fromNode toNode : NodeID) : PathKey × Path :=
  (⟨1, fromNode, toNode, defaultClassLabel⟩,
    { nodes := [fromNode, toNode], edges := [⟨.link, fromNode, toNode, "", fromNode ++ toNode⟩],
      links := [fromNode ++ toNode], cost := 1, label := defaultClassLabel })

def bothWays : PathUpdate :=
  GoMap.storeEach (fun e : PathKey × Path => e.1) (fun e => some e.2)
    [oneHop "A" "B", oneHop "B" "A"] ∅

theorem nodesExist_bothWays : NodesExist siteOnEach bothWays := by
  intro key path h
  rcases of_lookup_storeEach h with ⟨e, he, rfl, hpath⟩ | hempty
  · cases hpath
    simp only [List.mem_cons, List.not_mem_nil, or_false] at he
    rcases he with rfl | rfl
    · decide
    · decide
  · cases hempty

def dispatchBothWays (nodes : RangeOrder) : DispatchState :=
  dispatch siteOnEach ⟨.listed, nodes, fun _ => .listed⟩ bothWays
    (newServiceRegistry .empty 0).toSIDState

def commitBothWays (nodes : RangeOrder) : CommitState :=
  commitLocked (dispatchBothWays nodes).tx .listed 0
    { newServiceRegistry .empty 0 with toSIDState := (dispatchBothWays nodes).s }

/-- Node `A` gets one entry, for the site on `B`. -/
theorem installed_on_A :
    (commitBothWays .listed).collectedErrors = [] ∧
      ∃ intent, installPathsAt (commitBothWays .listed).r "A" (tenantIDText 1) = some [intent] ∧
        Carries siteOnEach (dispatchBothWays .listed).s.sidTenantMap 1
          ⟨siteOn "B" (.prefixFrom (.v6 0xfd000000000200000000000000000000) 64),
            (oneHop "A" "B").2⟩ intent := by
  have hroutes : routesAt siteOnEach bothWays "A" 1 =
      [⟨siteOn "B" (.prefixFrom (.v6 0xfd000000000200000000000000000000) 64),
        (oneHop "A" "B").2⟩] := rfl
  have hnil : (commitBothWays .listed).collectedErrors = [] := by decide +kernel
  obtain ⟨hlist, -⟩ := dispatch_translates siteOnEach bothWays nodesExist_bothWays
    (newServiceRegistry .empty 0).toSIDState "A" 1 (by rw [hroutes]; exact List.cons_ne_nil _ _)
  obtain ⟨intents, hintents, hcarries⟩ := hlist ⟨.listed, .listed, fun _ => .listed⟩ .listed 0
    { newServiceRegistry .empty 0 with toSIDState := (dispatchBothWays .listed).s }
    (by decide +kernel) hnil
  rw [hroutes] at hcarries
  cases hcarries with
  | cons hintent hrest =>
    cases hrest
    exact ⟨hnil, _, hintents, hintent⟩

/-- The node that is visited first gets the first of the free SIDs, so the list of `A` depends
on the order. -/
theorem list_depends_on_order :
    SIDsGenerated (dispatchBothWays .listed).logged ∧
      SIDsGenerated (dispatchBothWays (.rotated 1)).logged ∧
      (commitBothWays .listed).collectedErrors = [] ∧
      (commitBothWays (.rotated 1)).collectedErrors = [] ∧
      installPathsAt (commitBothWays .listed).r "A" "1" ≠
        installPathsAt (commitBothWays (.rotated 1)).r "A" "1" := by
  decide +kernel

end Installed

end Maeto.ControlPlane
