import Maeto.Agent.Tunnel
import Maeto.ControlPlane.Service.Registry
import Maeto.ControlPlane.Tenants
import Maeto.Dataplane.Render
import Maeto.Foundation.Run

/-!
# Tunnels of the sites of a provider edge

When a tunnel comes up on a provider edge, the controller records its interface id for
the portal in the intent of the node. A record is only ever added or replaced. The
interface ids of the tunnels that are up are distinct, but the id of a tunnel that went
down may be given to a tunnel of another portal, and the record of the first portal is
still there. The portals of a node keep distinct tunnels exactly as long as no tunnel
comes up with an id that is recorded for another portal.
-/

namespace Maeto.ControlPlane

open Foundation Netip Nodesync GoMap
open Agent (PETunnelUpdateRequest UpDownEvent UpdateError watchTunnelUpdates
  watchTunnelUpdates_eq_ok)
open Dataplane (xfrmName)

section Handler

structure NodeAccess where
  address : Prefix

structure InventoryNode where
  id : NodeID
  name : String
  access : Option NodeAccess := none

structure NodeInventory where
  byID : GoMap NodeID InventoryNode
  byID_id : ∀ id n, byID.lookup id = some n → n.id = id

def NodeInventory.node (inv : NodeInventory) (id : NodeID) : Option InventoryNode :=
  inv.byID.lookup id

structure Controller where
  tenants : TenantRepository
  inventory : NodeInventory
  topology : Graph

structure Attachment where
  site : Site
  tenant : Tenant
  node : InventoryNode
  topologyNode : Node

def Controller.attachment (c : Controller) (portalID : String) : Except String Attachment :=
  match c.tenants.siteByPortalID portalID with
  | none => .error "portal identity not found"
  | some site =>
    match c.tenants.tenant site.tenantID with
    | none => .error "tenant not found"
    | some tenant =>
      match c.inventory.node site.attach with
      | none => .error "attach node not found in inventory"
      | some node =>
        match c.topology.nodes.lookup site.attach with
        | none => .error "attach node not found in topology"
        | some topologyNode => .ok { site, tenant, node, topologyNode }

def Tenant.text (t : Tenant) : String := String.ofList (Text.decimal t.id)

def Attachment.portalIntent (a : Attachment) (ifID : UInt32) : PEPortalIntent where
  hostFacingInterface := "eth1"
  tunnelInterfaceID := ifID
  sitePrefix := a.site.sitePrefix
  tenantPrefix := a.tenant.allocation

def Attachment.portalTx (a : Attachment) (req : PETunnelUpdateRequest) : RegistryTx :=
  stagePortalIntentForNode beginTx a.node.id a.tenant.text req.portalID (a.portalIntent req.ifID)
    a.topologyNode.locator

def handlePETunnelUpdate (c : Controller) (ords : CommitOrders) (now : ℤ)
    (req : PETunnelUpdateRequest) (st : Stores) : Option String × Stores :=
  match c.attachment req.portalID with
  | .error err => (some err, st)
  | .ok a =>
    match commit (a.portalTx req) ords now st with
    | ([], st) => (none, st)
    | (errs, st) => (some ("failed to set intent for tenant: " ++ "\n".intercalate errs), st)

end Handler

section Portals

def portalAt (r : ServiceRegistry) (nodeID : NodeID) (tenantID portalID : String) :
    Option PEPortalIntent :=
  match (r.registry.lookup nodeID).map NodeIntent.intent with
  | some (.pe pe) => (pe.tenants.lookup tenantID).bind fun t => t.portalIntents.lookup portalID
  | _ => none

variable {c : Controller}

theorem attachment_eq_ok {portalID : String} {a : Attachment} (h : c.attachment portalID = .ok a) :
    c.tenants.siteByPortalID portalID = some a.site ∧
      c.tenants.tenant a.site.tenantID = some a.tenant ∧ a.node.id = a.site.attach := by
  unfold Controller.attachment at h
  split at h
  · cases h
  · rename_i site hsite
    split at h
    · cases h
    · rename_i tenant htenant
      split at h
      · cases h
      · rename_i node hnode
        split at h
        · cases h
        · cases h
          exact ⟨hsite, htenant, c.inventory.byID_id _ _ hnode⟩

variable {now : ℤ}

theorem portalAt_of_entry {r : ServiceRegistry} {nodeID : NodeID} {pe : PEIntent}
    (h : (getOrCreateRegistryEntry r .pe nodeID now).intent = .pe pe) (t p : String) :
    portalAt r nodeID t p = (pe.tenants.lookup t).bind fun t => t.portalIntents.lookup p := by
  unfold getOrCreateRegistryEntry at h
  unfold portalAt
  cases hentry : r.registry.lookup nodeID with
  | some ni =>
    rw [hentry] at h
    change ni.intent = .pe pe at h
    simp [h]
  | none =>
    rw [hentry] at h
    cases h
    rfl

theorem handlePETunnelUpdate_eq_none {ords : CommitOrders} {req : PETunnelUpdateRequest}
    {st : Stores} (h : (handlePETunnelUpdate c ords now req st).1 = none) :
    ∃ a, c.attachment req.portalID = .ok a ∧
      (commit (a.portalTx req) ords now st).1 = [] ∧
      (handlePETunnelUpdate c ords now req st).2 = (commit (a.portalTx req) ords now st).2 := by
  unfold handlePETunnelUpdate at h ⊢
  cases ha : c.attachment req.portalID with
  | error err =>
    rw [ha] at h
    cases h
  | ok a =>
    rw [ha] at h
    dsimp only at h ⊢
    cases hcommit : commit (a.portalTx req) ords now st with
    | mk errs st' =>
      rw [hcommit] at h
      cases errs with
      | nil => exact ⟨a, rfl, by rw [hcommit], by rw [hcommit]⟩
      | cons err errs => cases h

theorem handlePETunnelUpdate_portalAt {ords : CommitOrders} {req : PETunnelUpdateRequest}
    {st : Stores} (h : (handlePETunnelUpdate c ords now req st).1 = none) :
    ∃ a, c.attachment req.portalID = .ok a ∧
      ∀ nodeID t p, portalAt (handlePETunnelUpdate c ords now req st).2.r nodeID t p =
        if nodeID = a.node.id ∧ t = a.tenant.text ∧ p = req.portalID
        then some (a.portalIntent req.ifID) else portalAt st.r nodeID t p := by
  obtain ⟨a, ha, hcommit, hstores⟩ := handlePETunnelUpdate_eq_none h
  obtain ⟨pe, tenant, ni, hentry, htenant, hni, hregistry⟩ := commit_stageTenant hcommit
  refine ⟨a, ha, ?_⟩
  intro nodeID t p
  have hrecord : (pe.tenants.lookup a.tenant.text).bind (fun t => t.portalIntents.lookup p) =
      tenant.portalIntents.lookup p := by
    rcases htenant with htenant | ⟨hnone, sid, rfl⟩
    · rw [htenant]
      rfl
    · rw [hnone]
      rfl
  by_cases hnode : nodeID = a.node.id
  · subst hnode
    rw [portalAt_of_entry hentry, hstores]
    unfold portalAt Attachment.portalTx stagePortalIntentForNode
    rw [hregistry, AList.lookup_insert, Option.map_some, hni]
    dsimp only
    rw [lookup_insert_eq]
    by_cases ht : t = a.tenant.text
    · subst ht
      rw [if_pos rfl, Option.bind_some, lookup_insert_eq, hrecord]
      simp
    · simp [ht]
  · rw [if_neg (fun h => hnode h.1), hstores]
    unfold portalAt Attachment.portalTx stagePortalIntentForNode
    rw [hregistry, AList.lookup_insert_ne hnode]

/-- The portals of a node have tunnels of their own: no two have the same interface id,
and no two routes are rendered to the same device. -/
def OwnTunnels (r : ServiceRegistry) (nodeID : NodeID) : Prop :=
  ∀ t p x t' p' x', portalAt r nodeID t p = some x → portalAt r nodeID t' p' = some x' →
    (t, p) ≠ (t', p') → x.tunnelInterfaceID ≠ x'.tunnelInterfaceID ∧
      xfrmName t x.tunnelInterfaceID ≠ xfrmName t' x'.tunnelInterfaceID

theorem xfrmName_ne {t t' : String} {id id' : UInt32} (h : id ≠ id') :
    xfrmName t id ≠ xfrmName t' id' := by
  have hdash : ∀ n : ℕ, '-' ∉ Text.decimal n := by
    intro n
    rw [Text.decimal, if_neg (by omega)]
    exact Text.notMem_toDigits (by decide) (by decide) _ (by simp)
  intro hname
  have htext := congrArg String.toList hname
  simp only [xfrmName, String.toList_append, String.toList_ofList, List.append_assoc] at htext
  have htail := List.append_cancel_left htext
  obtain ⟨-, hdigits⟩ := (Text.append_sep_inj_last (hdash _) (hdash _)).mp htail
  exact h (UInt32.toNat_inj.mp (by exact_mod_cast Text.decimal_injective hdigits))

theorem ownTunnels_iff (r : ServiceRegistry) (nodeID : NodeID) :
    OwnTunnels r nodeID ↔
      ∀ t p x t' p' x', portalAt r nodeID t p = some x → portalAt r nodeID t' p' = some x' →
        x.tunnelInterfaceID = x'.tunnelInterfaceID → (t, p) = (t', p') := by
  constructor
  · intro h t p x t' p' x' hx hx' hid
    by_contra hne
    exact (h t p x t' p' x' hx hx' hne).1 hid
  · intro h t p x t' p' x' hx hx' hne
    have hid : x.tunnelInterfaceID ≠ x'.tunnelInterfaceID :=
      fun hid => hne (h t p x t' p' x' hx hx' hid)
    exact ⟨hid, xfrmName_ne hid⟩

end Portals

section Run

structure Tunnel where
  portalID : String
  ifID : UInt32
  deriving DecidableEq

structure World where
  live : List Tunnel
  stores : Stores

inductive TunnelEvent where
  | comesUp (e : UpDownEvent) (ords : CommitOrders) (now : ℤ)
  | goesDown (t : Tunnel) (e : UpDownEvent) (ords : CommitOrders) (now : ℤ)

variable (c : Controller) (nodeID : NodeID)

def report (e : UpDownEvent) (ords : CommitOrders) (now : ℤ) (st : Stores) : Stores :=
  match watchTunnelUpdates nodeID e with
  | .error _ => st
  | .ok req => (handlePETunnelUpdate c ords now req st).2

def tunnelStep (w : World) : TunnelEvent → World
  | .comesUp e ords now =>
    { live :=
        match watchTunnelUpdates nodeID e with
        | .error _ => w.live
        | .ok req => ⟨req.portalID, req.ifID⟩ :: w.live
      stores := report c nodeID e ords now w.stores }
  | .goesDown t e ords now =>
    { live := w.live.erase t
      stores := report c nodeID e ords now w.stores }

/-- What is assumed of an event. A tunnel that comes up belongs to a site of the node, is
reported with an id that no tunnel that is up has, and is recorded. A tunnel that goes
down is no longer installed. -/
def Allowed (w : World) : TunnelEvent → Prop
  | .comesUp e ords now =>
    ∃ req, watchTunnelUpdates nodeID e = .ok req ∧ (∀ t ∈ w.live, t.ifID ≠ req.ifID) ∧
      (∀ a, c.attachment req.portalID = .ok a → a.node.id = nodeID) ∧
      (handlePETunnelUpdate c ords now req w.stores).1 = none
  | .goesDown t e _ _ => t ∈ w.live ∧ ¬ e.Installed

/-- A tunnel comes up with an id that is not recorded for another portal. -/
def FreshID (w : World) : TunnelEvent → Prop
  | .comesUp e _ _ => ∀ req, watchTunnelUpdates nodeID e = .ok req →
      ∀ t p x, portalAt w.stores.r nodeID t p = some x → x.tunnelInterfaceID = req.ifID →
        p = req.portalID
  | .goesDown .. => True

def PortalsOwned (w : World) : Prop :=
  ∀ t p x, portalAt w.stores.r nodeID t p = some x →
    ∃ a, c.attachment p = .ok a ∧ t = a.tenant.text

variable {c nodeID} {w : World}

theorem report_of_not_installed {e : UpDownEvent} (h : ¬ e.Installed) (ords : CommitOrders)
    (now : ℤ) (st : Stores) : report c nodeID e ords now st = st := by
  unfold report
  split
  · rfl
  · rename_i req hreq
    exact absurd (watchTunnelUpdates_eq_ok hreq).1 h

theorem portalAt_comesUp {e : UpDownEvent} {ords : CommitOrders} {now : ℤ}
    (h : Allowed c nodeID w (.comesUp e ords now)) :
    ∃ req a, watchTunnelUpdates nodeID e = .ok req ∧ c.attachment req.portalID = .ok a ∧
      ∀ t p, portalAt (tunnelStep c nodeID w (.comesUp e ords now)).stores.r nodeID t p =
        if t = a.tenant.text ∧ p = req.portalID then some (a.portalIntent req.ifID)
        else portalAt w.stores.r nodeID t p := by
  obtain ⟨req, hreq, -, hnode, hnone⟩ := h
  obtain ⟨a, ha, hrecords⟩ := handlePETunnelUpdate_portalAt hnone
  refine ⟨req, a, hreq, ha, ?_⟩
  intro t p
  have hstores : (tunnelStep c nodeID w (.comesUp e ords now)).stores =
      (handlePETunnelUpdate c ords now req w.stores).2 := by
    simp only [tunnelStep, report, hreq]
  rw [hstores, hrecords, ← hnode a ha]
  simp

theorem PortalsOwned.of_tunnelStep (h : PortalsOwned c nodeID w) {e : TunnelEvent}
    (he : Allowed c nodeID w e) : PortalsOwned c nodeID (tunnelStep c nodeID w e) := by
  intro t p x hx
  cases e with
  | comesUp e ords now =>
    obtain ⟨req, a, -, ha, hrecords⟩ := portalAt_comesUp he
    rw [hrecords] at hx
    split_ifs at hx with hnew
    · exact ⟨a, hnew.2 ▸ ha, hnew.1⟩
    · exact h t p x hx
  | goesDown t' e ords now =>
    simp only [tunnelStep, report_of_not_installed he.2] at hx
    exact h t p x hx

theorem ownTunnels_tunnelStep_iff (howned : PortalsOwned c nodeID w)
    (hown : OwnTunnels w.stores.r nodeID) {e : TunnelEvent} (he : Allowed c nodeID w e) :
    OwnTunnels (tunnelStep c nodeID w e).stores.r nodeID ↔ FreshID nodeID w e := by
  cases e with
  | goesDown t' e ords now =>
    simp only [tunnelStep, report_of_not_installed he.2, hown, FreshID]
  | comesUp e ords now =>
    obtain ⟨req, a, hreq, ha, hrecords⟩ := portalAt_comesUp he
    rw [ownTunnels_iff] at hown ⊢
    constructor
    · intro hafter req' hreq' t p x hx hid
      cases hreq.symm.trans hreq'
      by_contra hp
      have hold : portalAt (tunnelStep c nodeID w (.comesUp e ords now)).stores.r nodeID t p =
          some x := by rw [hrecords, if_neg (fun h => hp h.2), hx]
      have hnew := hrecords a.tenant.text req.portalID
      rw [if_pos ⟨rfl, rfl⟩] at hnew
      exact hp (Prod.ext_iff.mp (hafter _ _ _ _ _ _ hold hnew hid)).2
    · intro hfresh t p x t' p' x' hx hx' hid
      -- a record with the new id is the one of the portal itself
      have hself : ∀ t p x, portalAt w.stores.r nodeID t p = some x →
          x.tunnelInterfaceID = req.ifID → t = a.tenant.text ∧ p = req.portalID := by
        intro t p x hx hid
        obtain rfl := hfresh req hreq t p x hx hid
        obtain ⟨a', ha', rfl⟩ := howned t _ x hx
        cases ha.symm.trans ha'
        exact ⟨rfl, rfl⟩
      rw [hrecords] at hx hx'
      split_ifs at hx with h1 <;> split_ifs at hx' with h2
      · rw [h1.1, h1.2, h2.1, h2.2]
      · cases hx
        exact absurd (hself t' p' x' hx' hid.symm) h2
      · cases hx'
        exact absurd (hself t p x hx hid) h1
      · exact hown t p x t' p' x' hx hx' hid

/-- From a registry without portals on the node, the portals have tunnels of their own
after every event of a run exactly when every tunnel comes up with an id that is not
recorded for another portal. -/
theorem ownTunnels_iff_freshIDs (st : Stores) (hstart : ∀ t p, portalAt st.r nodeID t p = none)
    (events : List TunnelEvent)
    (hallowed : Run.EachStep (tunnelStep c nodeID) (Allowed c nodeID) ⟨[], st⟩ events) :
    (∀ w ∈ events.scanl (tunnelStep c nodeID) ⟨[], st⟩, OwnTunnels w.stores.r nodeID) ↔
      Run.EachStep (tunnelStep c nodeID) (FreshID nodeID) ⟨[], st⟩ events := by
  have howned : PortalsOwned c nodeID ⟨[], st⟩ := by
    intro t p x hx
    rw [hstart] at hx
    cases hx
  have hown : OwnTunnels st.r nodeID := by
    intro t p x t' p' x' hx
    rw [hstart] at hx
    cases hx
  exact Run.forall_scanl_iff (fun _ _ h he => h.of_tunnelStep he)
    (fun _ _ h h' he => ownTunnels_tunnelStep_iff h h' he) howned hown hallowed

def siteOnPE1 (portalID : String) (sitePrefix : Prefix) : Site where
  tenantID := 1
  cpe := portalID
  portalID
  node := portalID
  sitePrefix
  attach := "pe1"
  attachNode := "pe1"
  ifID := 0
  identity := portalID ++ ".cpe.maeto.net"
  reservationMbps := 10
  classMbps := ∅

def siteA : Site := siteOnPE1 "a" (.prefixFrom (.v6 0xfd000000000100000000000000000000) 64)

def siteB : Site := siteOnPE1 "b" (.prefixFrom (.v6 0xfd000000000200000000000000000000) 64)

def twoSites : Controller where
  tenants :=
    { classes := GoMap.collect TrafficClass.label []
      byID := GoMap.collect Tenant.id
        [{ id := 1, allocation := .prefixFrom (.v6 0xfd000000000000000000000000000000) 48,
           tier := "", tierIndex := 0, vrfTable := 0, sites := [siteA, siteB] }]
      byIdentity := ∅
      byPortalID := GoMap.collect Site.portalID [siteA, siteB]
      byPop := ∅
      classes_label := fun _ _ h => (of_lookup_collect h).2
      byID_id := fun _ _ h => (of_lookup_collect h).2
      byPortalID_portalID := fun _ _ h => (of_lookup_collect h).2 }
  inventory :=
    { byID := GoMap.collect InventoryNode.id [{ id := "pe1", name := "pe1" }]
      byID_id := fun _ _ h => (of_lookup_collect h).2 }
  topology :=
    { nodes := (∅ : GoMap NodeID Node).insert "pe1"
        { id := "pe1", locator := .prefixFrom (.v6 0xfc000000000100000000000000000000) 48 }
      edges := GoMap.collect Edge.id []
      adj := ∅
      edges_id := fun _ _ h => (of_lookup_collect h).2 }

theorem twoSites_attach {portalID : String} {a : Attachment}
    (h : twoSites.attachment portalID = .ok a) : a.node.id = "pe1" := by
  obtain ⟨hsite, -, hnode⟩ := attachment_eq_ok h
  have hmem := (of_lookup_collect hsite).1
  rw [hnode]
  rcases List.mem_pair.mp hmem with hsite | hsite <;> rw [hsite] <;> rfl

def childUpDown (portalID ifID state : String) : UpDownEvent where
  event := "child-updown"
  ike :=
    { state := "ESTABLISHED"
      remoteID := portalID ++ ".cpe.maeto.net"
      childSAs := (∅ : GoMap String Agent.ChildSA).insert "net"
        { state, ifIDIn := ifID, ifIDOut := ifID } }

def tunnelUp (portalID ifID : String) : TunnelEvent :=
  .comesUp (childUpDown portalID ifID "INSTALLED") ⟨.listed, .listed⟩ 0

def tunnelDown (portalID ifID : String) (id : UInt32) : TunnelEvent :=
  .goesDown ⟨portalID, id⟩ (childUpDown portalID ifID "DELETING") ⟨.listed, .listed⟩ 0

def noTunnels : World := ⟨[], newServiceRegistry .empty 0, .empty⟩

theorem childUpDown_deleting (portalID ifID : String) :
    ¬ (childUpDown portalID ifID "DELETING").Installed := by
  rintro ⟨-, childSA, hmem, hstate⟩
  rw [show (childUpDown portalID ifID "DELETING").ike.childSAs.entries =
    [⟨"net", ⟨"DELETING", ifID, ifID⟩⟩] from rfl, List.mem_singleton] at hmem
  rw [hmem] at hstate
  change "DELETING" = "INSTALLED" at hstate
  exact absurd hstate (by decide)

theorem ownTunnels_a_then_b :
    Run.EachStep (tunnelStep twoSites "pe1") (Allowed twoSites "pe1") noTunnels
        [tunnelUp "a" "00000001", tunnelUp "b" "00000002"] ∧
      ∀ w ∈ [tunnelUp "a" "00000001", tunnelUp "b" "00000002"].scanl (tunnelStep twoSites "pe1")
        noTunnels, OwnTunnels w.stores.r "pe1" := by
  have hallowed : Run.EachStep (tunnelStep twoSites "pe1") (Allowed twoSites "pe1") noTunnels
      [tunnelUp "a" "00000001", tunnelUp "b" "00000002"] := by
    refine ⟨⟨⟨"a", 1, "pe1"⟩, by decide +kernel, by decide +kernel, fun a => twoSites_attach,
      by decide +kernel⟩, ⟨⟨"b", 2, "pe1"⟩, by decide +kernel, by decide +kernel,
      fun a => twoSites_attach, by decide +kernel⟩, trivial⟩
  refine ⟨hallowed,
    (ownTunnels_iff_freshIDs _ (fun t p => rfl) _ hallowed).mpr ⟨?_, ?_, trivial⟩⟩
  · intro req hreq t p x hx
    cases hx
  · intro req hreq t p x hx hid
    obtain ⟨reqA, a, hreqA, -, hrecords⟩ := portalAt_comesUp hallowed.1
    have hidA : reqA.ifID = 1 := by
      have hokA : watchTunnelUpdates "pe1" (childUpDown "a" "00000001" "INSTALLED") =
          .ok ⟨"a", 1, "pe1"⟩ := by decide +kernel
      rw [Except.ok.inj (hreqA.symm.trans hokA)]
    have hidB : req.ifID = 2 := by
      have hokB : watchTunnelUpdates "pe1" (childUpDown "b" "00000002" "INSTALLED") =
          .ok ⟨"b", 2, "pe1"⟩ := by decide +kernel
      rw [Except.ok.inj (hreq.symm.trans hokB)]
    have hx := (hrecords t p).symm.trans hx
    split_ifs at hx
    · cases hx
      change reqA.ifID = req.ifID at hid
      rw [hidA, hidB] at hid
      exact absurd hid (by decide)
    · cases hx

/-- The tunnel of portal `a` goes down, which is not reported, and its id is given to the
tunnel of portal `b`. -/
theorem tunnel_shared_after_reuse :
    Run.EachStep (tunnelStep twoSites "pe1") (Allowed twoSites "pe1") noTunnels
        [tunnelUp "a" "00000001", tunnelDown "a" "00000001" 1, tunnelUp "b" "00000001"] ∧
      ¬ OwnTunnels ([tunnelUp "a" "00000001", tunnelDown "a" "00000001" 1,
        tunnelUp "b" "00000001"].foldl (tunnelStep twoSites "pe1") noTunnels).stores.r "pe1" := by
  refine ⟨⟨⟨⟨"a", 1, "pe1"⟩, by decide +kernel, by decide +kernel, fun a => twoSites_attach,
      by decide +kernel⟩, ⟨by decide +kernel, childUpDown_deleting _ _⟩,
      ⟨⟨"b", 1, "pe1"⟩, by decide +kernel, by decide +kernel, fun a => twoSites_attach,
      by decide +kernel⟩, trivial⟩, ?_⟩
  intro hown
  have hrecord : ∀ site ∈ [siteA, siteB],
      portalAt ([tunnelUp "a" "00000001", tunnelDown "a" "00000001" 1,
        tunnelUp "b" "00000001"].foldl (tunnelStep twoSites "pe1") noTunnels).stores.r "pe1" "1"
        site.portalID = some
          { hostFacingInterface := "eth1", tunnelInterfaceID := 1, sitePrefix := site.sitePrefix,
            tenantPrefix := .prefixFrom (.v6 0xfd000000000000000000000000000000) 48 } := by
    decide +kernel
  exact (hown _ _ _ _ _ _ (hrecord siteA (by simp)) (hrecord siteB (by simp))
    (by decide)).1 rfl

end Run

end Maeto.ControlPlane
