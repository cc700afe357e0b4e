import Maeto.Dataplane.Lookup
import Maeto.Dataplane.Provenance

/-!
# Tenants stay apart

A packet that comes in over the VRF of a tenant is looked up there. When the route that takes it
has a segment list, the packet crosses the core under this list, is taken out by the last address
of the list into the VRF of a table of another node, and is looked up again. Wherever it leaves a
VRF over a link, the link is the tunnel of a portal of the same tenant (`carry_own_tenant`).

This holds between any two reconciles. The kernels may hold objects of older intents and lack
those whose calls failed, and be at different intents on different nodes, and the core may take a
packet to any node. What it takes is that the intents agree on which tenant a SID belongs to, and
that the tenants have VRF tables of their own.

Not covered is a packet that no table of the tenant takes. It leaves the VRF for the main table,
since the route that would stop it is not kept (`catchAll_iff_no_tenants`).
-/

namespace Maeto.Fabric

open Foundation GoMap
open ControlPlane (NodeID)
open Dataplane Netip Nodesync

section Model

structure Backbone where
  kernel : NodeID → Kernel
  core : NodeID → List Addr → Option NodeID

inductive Fate where
  | out (n : NodeID) (dev : String)
  | unreachable
  | leavesVRF (n : NodeID)
  deriving DecidableEq

def Backbone.carry (b : Backbone) : ℕ → NodeID → Packet → Addr → Option Fate
  | 0, _, _, _ => none
  | fuel + 1, n, pkt, dst =>
    match (b.kernel n).vrfRoute pkt dst with
    | none => some (.leavesVRF n)
    | some r =>
      match r.action with
      | .unicast => some (.out n r.dev)
      | .gateway _ => some (.out n r.dev)
      | .unreachable => some .unreachable
      | .seg6local _ _ => some (.leavesVRF n)
      | .seg6 segments =>
        -- A header stores its addresses in reverse.
        segments.head?.bind fun sid =>
          (b.core n segments).bind fun m =>
            ((b.kernel m).decapTable sid).bind fun table =>
              match (b.kernel m).vrfByTable table.toNat with
              | none => some .unreachable
              | some (_, vrf) => b.carry fuel m ⟨vrf.name, 0, pkt.src⟩ dst

/-- An intent that was delivered to the node asks for this of the tenant. -/
def TenantOn (ds : NodeID → List (Delivery Kernel)) (n : NodeID) (tenantID : String)
    (t : TenantIntent) : Prop :=
  ∃ d ∈ ds n, ∃ pe, d.intent.intent = .pe pe ∧ pe.tenants.lookup tenantID = some t

structure Agree (tenantOf : Addr → Option String) (ds : NodeID → List (Delivery Kernel)) :
    Prop where
  tables : ∀ n n' tenantID tenantID' t t', TenantOn ds n tenantID t → TenantOn ds n' tenantID' t' →
    stringToID tenantID = stringToID tenantID' → tenantID = tenantID'
  sids : ∀ n tenantID t, TenantOn ds n tenantID t → t.dt46SID.isValid →
    tenantOf t.dt46SID = some tenantID
  paths : ∀ n tenantID t, TenantOn ds n tenantID t → ∀ path ∈ t.installPaths,
    ∃ sid, path.segments.getLast? = some sid ∧ tenantOf sid = some tenantID

structure Bare (k : Kernel) : Prop where
  vrfs : ∀ i l, k.links.lookup i = some l → ∀ t, l.kind ≠ .vrf t
  routes : ∀ r ∈ k.routes, r.table.toNat < minTableID ∧ r.protocol ≠ maetoSIDProto
  rules : ∀ r ∈ k.rules, r.protocol ≠ maetoRouteProto

/-- The kernels after intents for provider edges were delivered to the nodes. In between, objects
may have been taken from the kernels. -/
structure Backbone.After (b : Backbone) (k₀ : NodeID → Kernel)
    (ds : NodeID → List (Delivery Kernel)) : Prop where
  bare : ∀ n, Bare (k₀ n)
  kind : ∀ n, ∀ d ∈ ds n, d.intent.intent.nodeType = .pe
  disturb : ∀ n, ∀ d ∈ ds n, ∀ k : Kernel, k.Fewer (d.disturb k)
  kernel : ∀ n, b.kernel n = ((ds n).foldl (deliver linuxNetlink) (.start .pe (k₀ n))).state

end Model

section Tables

def TableOf (tenantID : String) (table : UInt32) : Prop :=
  table.toNat % 2 ^ vrfTableBits = (stringToID tenantID).toNat

theorem tableOf_stringToID (tenantID : String) : TableOf tenantID (stringToID tenantID) :=
  Nat.mod_eq_of_lt (stringToID_lt tenantID)

theorem TableOf.not_lt {tenantID : String} {table : UInt32} (h : TableOf tenantID table) :
    ¬ table.toNat < minTableID := by
  have hspan : 0 < tableSpan := by decide
  have hlt := Nat.mod_lt (fnv1a64 (utf8 tenantID)).toNat hspan
  have hsum : minTableID + tableSpan = 2 ^ vrfTableBits := by decide
  have hbits : (2 : ℕ) ^ vrfTableBits < 2 ^ 32 := by decide
  have hmod := Nat.mod_le table.toNat (2 ^ vrfTableBits)
  rw [TableOf, stringToID, UInt32.toNat_ofNat'] at h
  omega

variable {tenantID : String} {t : TenantIntent}

theorem tableOf_routingTable {y : Resource} (h : TenantResource tenantID t y) {n : ℤ}
    (hn : y.routingTable = some n) : TableOf tenantID (uint32OfInt n) := by
  have hemod := h.routingTable_emod hn
  have hbits : (2 : ℤ) ^ vrfTableBits = 16777216 := by decide
  have hbits' : (2 : ℕ) ^ vrfTableBits = 16777216 := by decide
  rw [TableOf, uint32OfInt, UInt32.toNat_ofNat', hbits']
  rw [hbits] at hemod
  omega

theorem exists_path_of_srRoute {s : SRRoute} (h : TenantResource tenantID t (.srRoute s)) :
    ∃ path ∈ t.installPaths, s.segments = path.segments.reverse := by
  generalize hr : Resource.srRoute s = r at h
  cases h with
  | srRoute path hpath p hp =>
    cases hr
    exact ⟨path, hpath, rfl⟩
  | portal id p hid r hmem => simp [renderPortal, ← hr] at hmem
  | _ => cases hr

theorem sid_eq_of_tenantResource {s : SID} (h : TenantResource tenantID t (.sid s)) :
    t.dt46SID.isValid ∧ s.sid = t.dt46SID ∧ s.tableID = (stringToID tenantID).toNat := by
  generalize hr : Resource.sid s = r at h
  cases h with
  | sid hvalid =>
    cases hr
    exact ⟨hvalid, rfl, rfl⟩
  | portal id p hid r hmem => simp [renderPortal, ← hr] at hmem
  | _ => cases hr

end Tables

section Isolation

variable {b : Backbone} {k₀ : NodeID → Kernel} {ds : NodeID → List (Delivery Kernel)}
  {tenantOf : Addr → Option String} {n : NodeID} {tenantID : String} {r : KernelRoute}

theorem Backbone.After.asked (h : b.After k₀ ds) (n : NodeID) :
    Kernel.From (AskedIn (ds n)) (k₀ n) (b.kernel n) := by
  rw [h.kernel n]
  exact deliveries_from (ds n) (h.disturb n) (.refl _) fun _ => id

theorem Backbone.After.asked_cases (h : b.After k₀ ds) {y : Resource} (hy : AskedIn (ds n) y) :
    (∃ c, y = .classification c) ∨
      ∃ tenantID t, TenantOn ds n tenantID t ∧ TenantResource tenantID t y := by
  obtain ⟨d, hd, hy⟩ := hy
  have hkind := h.kind n d hd
  have hres := hy.intentResource
  generalize hi : d.intent.intent = i at hkind hres
  cases hres with
  | classification pe c => exact Or.inl ⟨c, rfl⟩
  | tenant pe tenantID t ht _ hres => exact Or.inr ⟨tenantID, t, ⟨d, hd, pe, hi, ht⟩, hres⟩
  | _ => cases hkind

variable {n' : NodeID} {table : UInt32}

theorem Agree.eq_of_tableOf (ha : Agree tenantOf ds) {t t' : TenantIntent}
    {tenantID' : String} (ht : TenantOn ds n tenantID t) (ht' : TenantOn ds n' tenantID' t')
    (htable : TableOf tenantID table) (htable' : TableOf tenantID' table) :
    tenantID = tenantID' :=
  ha.tables n n' _ _ t t' ht ht' (UInt32.toNat_inj.mp (htable.symm.trans htable'))

/-- A route in a table of a tenant is a catch-all, or that of a portal of the tenant, or that of a
segment list of the tenant. -/
theorem Backbone.After.route_cases (h : b.After k₀ ds) (ha : Agree tenantOf ds)
    {t' : TenantIntent} (ht' : TenantOn ds n' tenantID t') (hr : r ∈ (b.kernel n).routes)
    (htable : TableOf tenantID r.table) :
    ∃ t, TenantOn ds n tenantID t ∧
      (r.action = .unreachable ∨
        (∃ id p, t.portalIntents.lookup id = some p ∧ r.action = .unicast ∧
          r.dev = xfrmName tenantID p.tunnelInterfaceID) ∨
        ∃ path ∈ t.installPaths, r.action = .seg6 path.segments.reverse) := by
  rcases (h.asked n).routes r hr with ⟨y, hy, hstored⟩ | hbefore
  · rcases h.asked_cases hy with ⟨c, rfl⟩ | ⟨tenantID', t, ht, hres⟩
    · cases hstored
    · have hsame : TableOf tenantID' r.table → tenantID' = tenantID :=
        fun htable' => ha.eq_of_tableOf ht ht' htable' htable
      cases hstored with
      | catchAll v =>
        obtain rfl := hsame (tableOf_routingTable hres rfl)
        exact ⟨t, ht, Or.inl rfl⟩
      | route u net dev action hnet hunicast =>
        obtain rfl := hsame (tableOf_routingTable hres rfl)
        obtain ⟨id, p, hid, rfl⟩ := hres.eq_route
        obtain ⟨rfl, rfl⟩ := hunicast rfl
        exact ⟨t, ht, Or.inr (Or.inl ⟨id, p, hid, rfl, rfl⟩)⟩
      | srRoute s net hnet =>
        obtain rfl := hsame (tableOf_routingTable hres rfl)
        obtain ⟨path, hpath, hsegments⟩ := exists_path_of_srRoute hres
        rw [hsegments]
        exact ⟨t, ht, Or.inr (Or.inr ⟨path, hpath, rfl⟩)⟩
      | sid s net dev table hnet htable' =>
        -- The SIDs are in the main table, which is no tenant's.
        exact absurd (by decide : rtTableMain.toNat < minTableID) htable.not_lt
  · exact absurd ((h.bare n).routes r hbefore).1 htable.not_lt

theorem Backbone.After.vrf_cases (h : b.After k₀ ds) {i : ℕ} {l : Link}
    (hl : (b.kernel n).links.lookup i = some l) (hkind : l.kind = .vrf table) :
    ∃ tenantID t, TenantOn ds n tenantID t ∧ l.name = vrfTableName tenantID ∧
      table = stringToID tenantID := by
  rcases (h.asked n).links i l hl with ⟨y, hy, hlink⟩ | ⟨l₀, hl₀, hident⟩
  · rw [hkind] at hlink
    rcases h.asked_cases hy with ⟨c, rfl⟩ | ⟨tenantID, t, ht, hres⟩
    · cases hlink
    · cases y with
      | vrf v =>
        obtain rfl := hres.eq_vrf
        simp only [Resource.link, Option.some.injEq, Prod.mk.injEq, LinkKind.vrf.injEq] at hlink
        exact ⟨tenantID, t, ht, hlink.1.symm, hlink.2.symm⟩
      | xfrm x => simp [Resource.link] at hlink
      | _ => cases hlink
  · simp only [Link.ident, Prod.mk.injEq] at hident
    exact absurd (hident.2.2.symm.trans hkind) ((h.bare n).vrfs i l₀ hl₀ table)

/-- A rule of ours that takes packets of a VRF leads to a table of its tenant. -/
theorem Backbone.After.rule_cases (h : b.After k₀ ds) {rule : KernelRule} {pkt : Packet}
    (hrule : rule ∈ (b.kernel n).rules) (hown : rule.protocol = maetoRouteProto)
    (hmatch : rule.matches pkt = true) (hiif : pkt.iif = vrfTableName tenantID) :
    ∃ t, TenantOn ds n tenantID t ∧ TableOf tenantID rule.table := by
  rcases (h.asked n).rules rule hrule with ⟨y, hy, hkernel⟩ | hbefore
  · rcases h.asked_cases hy with ⟨c, rfl⟩ | ⟨tenantID', t, ht, hres⟩
    · cases hkernel
    · cases y with
      | rule r =>
        have htable := tableOf_routingTable hres rfl
        obtain ⟨path, -, -, hcolor⟩ := hres.eq_colorRule
        rw [hcolor] at hkernel
        cases hcolor
        cases hkernel
        simp only [KernelRule.matches, Bool.and_eq_true, Bool.or_eq_true, decide_eq_true_eq,
          hiif] at hmatch
        rcases hmatch.1.1 with hempty | hname
        · exact absurd (congrArg String.toList hempty) (by simp [vrfTableName])
        · obtain rfl : tenantID' = tenantID := String.append_right_inj _ |>.mp hname
          exact ⟨t, ht, htable⟩
      | _ => cases hkernel
  · exact absurd hown ((h.bare n).rules rule hbefore)

/-- The route of a packet that comes in over the VRF of a tenant is in a table of the tenant. -/
theorem Backbone.After.vrfRoute_tableOf (h : b.After k₀ ds) {pkt : Packet} {dst : Addr}
    (hiif : pkt.iif = vrfTableName tenantID) (hroute : (b.kernel n).vrfRoute pkt dst = some r) :
    r ∈ (b.kernel n).routes ∧ ∃ t, TenantOn ds n tenantID t ∧ TableOf tenantID r.table := by
  obtain ⟨hr, ⟨rule, hrule, hown, hmatch, htable⟩ | ⟨i, l, hl, hname, hkind⟩⟩ :=
    Kernel.of_vrfRoute hroute
  · rw [htable]
    exact ⟨hr, h.rule_cases hrule hown hmatch hiif⟩
  · obtain ⟨tenantID', t, ht, hname', htable⟩ := h.vrf_cases hl hkind
    obtain rfl : tenantID = tenantID' :=
      String.append_right_inj _ |>.mp (hiif.symm.trans (hname.symm.trans hname'))
    rw [htable]
    exact ⟨hr, t, ht, tableOf_stringToID tenantID⟩

/-- A node takes packets out by the SID of a tenant into the VRF table of the tenant. -/
theorem Backbone.After.decap_table (h : b.After k₀ ds) (ha : Agree tenantOf ds) {sid : Addr}
    (hsid : tenantOf sid = some tenantID)
    (hdecap : (b.kernel n).decapTable sid = some table) : table = stringToID tenantID := by
  obtain ⟨r, hr, hproto, hnet, haction⟩ := Kernel.of_decapTable hdecap
  rcases (h.asked n).routes r hr with ⟨y, hy, hstored⟩ | hbefore
  · rcases h.asked_cases hy with ⟨c, rfl⟩ | ⟨tenantID', t, ht, hres⟩
    · cases hstored
    · cases hstored with
      | catchAll v => cases haction
      | route u net dev action hnet' hunicast =>
        have hdistinct : maetoRouteProto ≠ maetoSIDProto := by decide
        exact absurd hproto hdistinct
      | srRoute s net hnet' => cases haction
      | sid s net dev table' hnet' htable =>
        cases haction
        obtain ⟨hvalid, hs, htable'⟩ := sid_eq_of_tenantResource hres
        have haddr : sid = t.dt46SID := by
          rw [← hs, ← sidNet_eq_some hnet, ← sidNet_eq_some hnet']
        have howner := ha.sids n tenantID' t ht hvalid
        rw [← haddr, hsid] at howner
        cases howner
        refine UInt32.toNat_inj.mp ?_
        exact_mod_cast htable.symm.trans htable'
  · exact absurd hproto ((h.bare n).routes r hbefore).2

theorem Backbone.After.vrfByTable_name (h : b.After k₀ ds) (ha : Agree tenantOf ds)
    {t : TenantIntent} (ht : TenantOn ds n' tenantID t) {i : ℕ} {l : Link}
    (hvrf : (b.kernel n).vrfByTable (stringToID tenantID).toNat = some (i, l)) :
    l.name = vrfTableName tenantID := by
  have hl := (mem_range _ _ _ _).mp (List.mem_of_find?_eq_some hvrf)
  have hkind := List.find?_some hvrf
  dsimp only at hkind
  split at hkind
  · rename_i table htable
    have htoNat : table.toNat = (stringToID tenantID).toNat := by
      exact_mod_cast of_decide_eq_true hkind
    obtain ⟨tenantID', t', ht', hname, hsame⟩ := h.vrf_cases hl htable
    rw [hname, ha.tables n n' tenantID' tenantID t' t ht' ht
      (hsame.symm.trans (UInt32.toNat_inj.mp htoNat))]
  · cases hkind

/-- After any intents were delivered to any of the nodes in any order, whatever became of their
calls: a packet that came in over the VRF of a tenant and is taken to a link by the tables of VRFs
goes out over the tunnel of a portal of this tenant, when the intents agree on the tenants of the
SIDs and the tenants have VRF tables of their own. -/
theorem carry_own_tenant (h : b.After k₀ ds) (ha : Agree tenantOf ds) (fuel : ℕ) (n : NodeID)
    (tenantID : String) (mark : UInt32) (src dst : Addr) (m : NodeID) (dev : String)
    (hfate : b.carry fuel n ⟨vrfTableName tenantID, mark, src⟩ dst = some (.out m dev)) :
    ∃ t, TenantOn ds m tenantID t ∧
      ∃ id p, t.portalIntents.lookup id = some p ∧ dev = xfrmName tenantID p.tunnelInterfaceID := by
  -- On every VRF that the packet comes in over, it is the tenant's.
  induction fuel generalizing n mark with
  | zero => cases hfate
  | succ fuel ih =>
    rw [Backbone.carry] at hfate
    cases hroute : (b.kernel n).vrfRoute ⟨vrfTableName tenantID, mark, src⟩ dst with
    | none =>
      rw [hroute] at hfate
      cases hfate
    | some r =>
      obtain ⟨hr, t', ht', htable⟩ := h.vrfRoute_tableOf rfl hroute
      obtain ⟨t, ht, haction | ⟨id, p, hid, haction, hdev⟩ | ⟨path, hpath, haction⟩⟩ :=
        h.route_cases ha ht' hr htable
      · simp only [hroute, haction] at hfate
        cases hfate
      · simp only [hroute, haction] at hfate
        cases hfate
        exact ⟨t, ht, id, p, hid, hdev⟩
      · -- The list ends in a SID of the tenant, by which the packet is taken out.
        obtain ⟨sid, hlast, hsid⟩ := ha.paths n tenantID t ht path hpath
        simp only [hroute, haction, List.head?_reverse, hlast, Option.bind_some] at hfate
        obtain ⟨k, -, hfate⟩ := Option.bind_eq_some_iff.mp hfate
        obtain ⟨table, hdecap, hfate⟩ := Option.bind_eq_some_iff.mp hfate
        obtain rfl := h.decap_table ha hsid hdecap
        split at hfate
        · cases hfate
        · rename_i i vrf hvrf
          rw [h.vrfByTable_name ha ht hvrf] at hfate
          exact ih k 0 hfate

end Isolation

section TwoNodes

def peer (n : NodeID) : NodeID := if n = "A" then "B" else "A"

def sidOn (n : NodeID) : Addr :=
  .v6 (if n = "A" then 0xfc0000000001f4df0000000000000000 else 0xfc0000000002f4df0000000000000000)

def siteAt (n : NodeID) : Prefix :=
  .prefixFrom (.v6 (if n = "A" then 0x20010db8000100000000000000000000
    else 0x20010db8000200000000000000000000)) 48

def siteTenant (n : NodeID) : TenantIntent where
  portalIntents := (∅ : GoMap String PEPortalIntent).insert n ⟨"eth1", 7, siteAt n, siteAt n⟩
  dt46SID := sidOn n
  installPaths := [⟨"1", [siteAt (peer n)], [sidOn (peer n)], 5⟩]

def siteDelivery (n : NodeID) : Delivery Kernel :=
  ⟨⟨n, .pe, .pe ⟨n, (∅ : GoMap String TenantIntent).insert "1" (siteTenant n), []⟩, 0, 1, 1⟩,
    fun _ => .listed, id⟩

def twoNodes : Backbone where
  kernel := fun n => ([siteDelivery n].foldl (deliver linuxNetlink) (.start .pe .started)).state
  core := fun n _ => some (peer n)

theorem bare_started : Bare .started where
  vrfs := by
    refine forall_lookup_insert (P := fun _ (l : Link) => ∀ t, l.kind ≠ .vrf t) ?_ ?_
    refine forall_lookup_insert (forall_lookup_insert ?_ ?_) ?_
    exact forall_lookup_empty _
    all_goals exact fun _ => LinkKind.noConfusion
  routes := List.forall_mem_nil _
  rules := List.forall_mem_nil _

theorem after_twoNodes : twoNodes.After (fun _ => .started) fun n => [siteDelivery n] where
  bare := fun _ => bare_started
  kind := by simp [siteDelivery, Intent.nodeType]
  disturb := by
    intro n d hd k
    rw [List.mem_singleton.mp hd]
    exact .refl k
  kernel := fun _ => rfl

theorem of_tenantOn_twoNodes {n : NodeID} {tenantID : String} {t : TenantIntent}
    (h : TenantOn (fun n => [siteDelivery n]) n tenantID t) :
    tenantID = "1" ∧ t = siteTenant n := by
  obtain ⟨d, hd, pe, hpe, ht⟩ := h
  rw [List.mem_singleton.mp hd] at hpe
  cases hpe
  rw [lookup_insert_eq] at ht
  split_ifs at ht with hone
  · exact ⟨hone, (Option.some.inj ht).symm⟩
  · exact absurd ht (lookup_empty_ne _ _)

theorem agree_twoNodes : Agree (fun _ => some "1") fun n => [siteDelivery n] where
  tables := by
    intro n n' tenantID tenantID' t t' ht ht' _
    rw [(of_tenantOn_twoNodes ht).1, (of_tenantOn_twoNodes ht').1]
  sids := fun n tenantID t ht _ => congrArg some (of_tenantOn_twoNodes ht).1.symm
  paths := by
    intro n tenantID t ht path hpath
    obtain ⟨rfl, rfl⟩ := of_tenantOn_twoNodes ht
    rw [List.mem_singleton.mp hpath]
    exact ⟨_, rfl, rfl⟩

/-- From the site on the first node to the site on the second, in the class with label 5. -/
theorem carry_own_tenant_twoNodes :
    ∃ t, TenantOn (fun n => [siteDelivery n]) "B" "1" t ∧
      ∃ id p, t.portalIntents.lookup id = some p ∧
        "maeto-tun-1-7" = xfrmName "1" p.tunnelInterfaceID :=
  carry_own_tenant after_twoNodes agree_twoNodes 5 "A" "1" 5 .invalid
    (.v6 0x20010db8000200000000000000000001) "B" "maeto-tun-1-7" (by decide +kernel)

end TwoNodes

end Maeto.Fabric
