import Maeto.Dataplane.Rendered

/-!
# The names of the links

The kernel takes a link only when its name has at most fifteen bytes. The names are made of a
fixed text and one or two numbers: the tenant, and on a provider edge also the interface id of
the tunnel. The two numbers of a name can be read back from it, so no two links of a node have
the same name. How long a name gets depends on how many digits the numbers have, and nothing
bounds these (`linksCreatable_iff`).
-/

namespace Maeto.Dataplane

open Foundation Nodesync GoMap Resource

def maxLinkName : ℕ := 15

/-- Every link has a name that the kernel takes, and no two links have the same one. -/
structure LinksCreatable (m : ResourceMap) : Prop where
  short : ∀ key r name, m.lookup key = some r → r.linkName = some name →
    (utf8 name).length ≤ maxLinkName
  distinct : ∀ key key' r r' name, m.lookup key = some r → m.lookup key' = some r' →
    r.linkName = some name → r'.linkName = some name → r = r'

section Lengths

theorem utf8_append (s s' : String) : utf8 (s ++ s') = utf8 s ++ utf8 s' := by
  rw [utf8, String.toList_append, List.flatMap_append]
  rfl

theorem length_utf8_decimal (n : ℕ) :
    (utf8 (String.ofList (Text.decimal n))).length = (Text.decimal n).length := by
  have hdigit : ∀ d < 10, (String.utf8EncodeChar (Nat.digitChar d)).length = 1 := by decide
  have hchar : ∀ c ∈ Text.decimal n, (String.utf8EncodeChar c).length = 1 := by
    intro c hc
    obtain ⟨d, hd, rfl⟩ := Text.digit_of_mem_decimal hc
    exact hdigit d hd
  rw [utf8, String.toList_ofList, List.length_flatMap, List.map_congr_left hchar, List.map_const',
    List.sum_replicate_nat, Nat.mul_one]

theorem length_utf8_vrfTableName (t : String) :
    (utf8 (vrfTableName t)).length = 10 + (utf8 t).length := by
  rw [vrfTableName, utf8_append, List.length_append]
  rfl

theorem length_utf8_xfrmTunnelName (t : String) :
    (utf8 (xfrmTunnelName t)).length = 12 + (utf8 t).length := by
  rw [xfrmTunnelName, utf8_append, List.length_append]
  rfl

theorem length_utf8_xfrmName (t : String) (ifID : UInt32) :
    (utf8 (xfrmName t ifID)).length =
      11 + (utf8 t).length + (Text.decimal ifID.toNat).length := by
  have hfixed : (utf8 "maeto-tun-").length = 10 := by decide
  have hdash : (utf8 "-").length = 1 := by decide
  rw [xfrmName, utf8_append, utf8_append, utf8_append, List.length_append, List.length_append,
    List.length_append, length_utf8_decimal, hfixed, hdash]
  omega

end Lengths

section Names

theorem xfrmName_injective {t t' : String} {ifID ifID' : UInt32}
    (h : xfrmName t ifID = xfrmName t' ifID') : t = t' ∧ ifID = ifID' := by
  have hlist := congrArg String.toList h
  simp only [xfrmName, String.toList_append, String.toList_ofList, List.append_assoc,
    List.append_cancel_left_eq] at hlist
  have hdash : ∀ n : ℕ, '-' ∉ Text.decimal n := Text.notMem_decimal (by decide)
  obtain ⟨ht, hid⟩ := (Text.append_sep_inj_last (hdash _) (hdash _)).mp hlist
  have hnat := Text.decimal_injective hid
  exact ⟨String.toList_injective ht, UInt32.toNat_inj.mp (by omega)⟩

theorem vrfTableName_ne_xfrmName (t t' : String) (ifID : UInt32) :
    vrfTableName t ≠ xfrmName t' ifID := by
  intro h
  have hlist := congrArg String.toList h
  simp [vrfTableName, xfrmName] at hlist

theorem linkName_eq_of_key_eq {r r' : Resource} (h : r.key = r'.key) :
    r.linkName = r'.linkName := by
  obtain ⟨hkind, hbody⟩ := key_eq_iff.mp h
  cases r with
  | vrf v =>
    cases r' with
    | vrf w => exact congrArg some (keyBody_vrf hbody)
    | _ => cases hkind
  | xfrm x =>
    cases r' with
    | xfrm y => exact congrArg some (keyBody_xfrm hbody).1
    | _ => cases hkind
  | _ =>
    cases r' with
    | vrf w => cases hkind
    | xfrm y => cases hkind
    | _ => rfl

theorem TenantResource.of_linkName {tenantID : String} {t : TenantIntent} {r : Resource}
    (h : TenantResource tenantID t r) {name : String} (hname : r.linkName = some name) :
    (name = vrfTableName tenantID ∧
      r = .vrf { name := vrfTableName tenantID, tableID := stringToID tenantID, index := 0 }) ∨
    ∃ id p, t.portalIntents.lookup id = some p ∧ name = xfrmName tenantID p.tunnelInterfaceID ∧
      r = .xfrm
        { name := xfrmName tenantID p.tunnelInterfaceID, ifID := p.tunnelInterfaceID,
          parent := p.hostFacingInterface, masterVRF := vrfTableName tenantID, index := 0 } := by
  cases h with
  | vrf => exact Or.inl ⟨(Option.some.inj hname).symm, rfl⟩
  | portal id p hid r hr =>
    rw [renderPortal, List.mem_pair] at hr
    rcases hr with rfl | rfl
    · exact Or.inr ⟨id, p, hid, (Option.some.inj hname).symm, rfl⟩
    · cases hname
  | _ => cases hname

theorem xfrm_mem_tenantResources {ords : RenderOrders} {tenantID : String} {t : TenantIntent}
    {collisions : GoMap ℤ String} {id : String} {p : PEPortalIntent}
    (h : t.portalIntents.lookup id = some p) :
    .xfrm
        { name := xfrmName tenantID p.tunnelInterfaceID, ifID := p.tunnelInterfaceID,
          parent := p.hostFacingInterface, masterVRF := vrfTableName tenantID, index := 0 } ∈
      tenantResources ords tenantID t collisions := by
  unfold tenantResources
  refine List.mem_append_left _ (List.mem_append_left _ (List.mem_append_right _ ?_))
  exact List.mem_flatMap.mpr ⟨(id, p), (mem_range _ _ _ _).mpr h, List.mem_cons_self⟩

end Names

section Intents

/-- The tunnels of a tenant have different interface ids, and a customer edge has one. -/
def TunnelsNumbered : Intent → Prop
  | .pe pe => ∀ tenantID t, pe.tenants.lookup tenantID = some t →
      ∀ id id' p p', t.portalIntents.lookup id = some p → t.portalIntents.lookup id' = some p' →
        p.tunnelInterfaceID = p'.tunnelInterfaceID → id = id'
  | .cpe cpe => cpe.tunnelInterfaceID ≠ 0

/-- The numbers in the names have few enough digits. -/
def NamesFit : Intent → Prop
  | .pe pe => ∀ tenantID t, pe.tenants.lookup tenantID = some t →
      (utf8 tenantID).length ≤ 5 ∧
      ∀ id p, t.portalIntents.lookup id = some p →
        (utf8 tenantID).length + (Text.decimal p.tunnelInterfaceID.toNat).length ≤ 4
  | .cpe cpe => (utf8 cpe.tenantID).length ≤ 3

variable {ords : RenderOrders} {m : ResourceMap} {r : Resource} {name : String} {pe : PEIntent}

theorem exists_lookup_storeAll {rs : List Resource} (hr : r ∈ rs) (hname : r.linkName = some name) :
    ∃ key r', (storeAll rs).lookup key = some r' ∧ r'.linkName = some name := by
  obtain ⟨r', hr'⟩ := mem_iff.mp ((mem_collect Resource.key rs r.key).mpr ⟨r, hr, rfl⟩)
  refine ⟨r.key, r', hr', ?_⟩
  rw [linkName_eq_of_key_eq (of_lookup_collect hr').2, hname]

theorem exists_lookup_renderPEIntent (h : renderPEIntent ords pe = .ok m)
    {tenantID : String} {t : TenantIntent} (ht : pe.tenants.lookup tenantID = some t)
    (hr : ∀ collisions, r ∈ tenantResources ords tenantID t collisions)
    (hname : r.linkName = some name) :
    ∃ key r', m.lookup key = some r' ∧ r'.linkName = some name := by
  obtain ⟨classes, -, rfl⟩ := renderPEIntent_eq_ok h
  obtain ⟨collisions, hmem⟩ := mem_renderTenants ords pe
  refine exists_lookup_storeAll (List.mem_append_right _ ?_) hname
  refine List.mem_map.mpr ⟨(tenantID, r), ?_, rfl⟩
  exact (hmem tenantID r).mpr ⟨t, ht, hr _⟩

theorem short_iff_pe (h : renderPEIntent ords pe = .ok m) :
    (∀ key r name, m.lookup key = some r → r.linkName = some name →
      (utf8 name).length ≤ maxLinkName) ↔ NamesFit (.pe pe) := by
  unfold maxLinkName
  constructor
  · intro hshort tenantID t ht
    constructor
    · obtain ⟨key, r, hr, hname⟩ := exists_lookup_renderPEIntent h ht
        (fun _ => vrf_mem_tenantResources) rfl
      have hlen := hshort key r _ hr hname
      rw [length_utf8_vrfTableName] at hlen
      omega
    · intro id p hp
      obtain ⟨key, r, hr, hname⟩ := exists_lookup_renderPEIntent h ht
        (fun _ => xfrm_mem_tenantResources hp) rfl
      have hlen := hshort key r _ hr hname
      rw [length_utf8_xfrmName] at hlen
      omega
  · intro hfit key r name hr hname
    have hrender : renderIntent ords (.pe pe) = .ok m := h
    cases (renderIntent_lookup hrender hr).2 with
    | classification _ c => cases hname
    | tenant _ tenantID t ht r hround =>
      obtain ⟨hid, hportals⟩ := hfit tenantID t ht
      rcases hround.of_linkName hname with ⟨rfl, -⟩ | ⟨id, p, hp, rfl, -⟩
      · rw [length_utf8_vrfTableName]
        omega
      · have := hportals id p hp
        rw [length_utf8_xfrmName]
        omega

theorem distinct_pe (h : renderPEIntent ords pe = .ok m)
    (hnumbered : TunnelsNumbered (.pe pe)) {key key' : String} {r' : Resource}
    (hr : m.lookup key = some r) (hr' : m.lookup key' = some r') (hname : r.linkName = some name)
    (hname' : r'.linkName = some name) : r = r' := by
  have hrender : renderIntent ords (.pe pe) = .ok m := h
  cases (renderIntent_lookup hrender hr).2 with
  | classification _ c => cases hname
  | tenant _ tenantID t ht r hround =>
    cases (renderIntent_lookup hrender hr').2 with
    | classification _ c => cases hname'
    | tenant _ tenantID' t' ht' r' hround' =>
      rcases hround.of_linkName hname with ⟨rfl, rfl⟩ | ⟨id, p, hp, rfl, rfl⟩ <;>
        rcases hround'.of_linkName hname' with ⟨heq, rfl⟩ | ⟨id', p', hp', heq, rfl⟩
      · obtain rfl : tenantID = tenantID' := (String.append_right_inj _).mp heq
        rfl
      · exact absurd heq (vrfTableName_ne_xfrmName _ _ _)
      · exact absurd heq.symm (vrfTableName_ne_xfrmName _ _ _)
      · obtain ⟨rfl, hid⟩ := xfrmName_injective heq
        cases ht.symm.trans ht'
        obtain rfl := hnumbered tenantID t ht id id' p p' hp hp' hid
        cases hp.symm.trans hp'
        rfl

theorem lookup_renderCPEIntent {cpe : CPEIntent} (h : renderCPEIntent cpe = .ok m)
    (hid : cpe.tunnelInterfaceID ≠ 0) :
    (∃ key r, m.lookup key = some r ∧ r.linkName = some (xfrmTunnelName cpe.tenantID)) ∧
    ∀ key r name, m.lookup key = some r → r.linkName = some name →
      name = xfrmTunnelName cpe.tenantID ∧
      r = .xfrm
        { name := xfrmTunnelName cpe.tenantID, ifID := cpe.tunnelInterfaceID, parent := "lo",
          masterVRF := "", index := 0 } := by
  constructor
  · unfold renderCPEIntent at h
    rw [if_neg hid] at h
    split_ifs at h
    cases h
    exact exists_lookup_storeAll List.mem_cons_self rfl
  · intro key r name hr hname
    have hrender : renderIntent .listed (.cpe cpe) = .ok m := h
    cases (renderIntent_lookup hrender hr).2 with
    | tunnel => exact ⟨(Option.some.inj hname).symm, rfl⟩
    | tunnelDefault => cases hname
    | siteRule => cases hname

/-- The links that an intent is rendered to can all be created exactly when the numbers in their
names have few enough digits. -/
theorem linksCreatable_iff (i : Intent) (hnumbered : TunnelsNumbered i)
    (h : renderIntent ords i = .ok m) : LinksCreatable m ↔ NamesFit i := by
  cases i with
  | pe pe =>
    rw [← short_iff_pe h]
    refine ⟨LinksCreatable.short, fun hshort => ⟨hshort, ?_⟩⟩
    intro key key' r r' name hr hr' hname hname'
    exact distinct_pe h hnumbered hr hr' hname hname'
  | cpe cpe =>
    obtain ⟨⟨key, r, hr, hname⟩, honly⟩ := lookup_renderCPEIntent h hnumbered
    have hlen := length_utf8_xfrmTunnelName cpe.tenantID
    constructor
    · intro hlinks
      have hshort := hlinks.short key r _ hr hname
      unfold maxLinkName at hshort
      change (utf8 cpe.tenantID).length ≤ 3
      omega
    · intro hfit
      have hfit : (utf8 cpe.tenantID).length ≤ 3 := hfit
      refine ⟨?_, ?_⟩
      · intro key r name hr hname
        rw [(honly key r name hr hname).1, hlen]
        unfold maxLinkName
        omega
      · intro key key' r r' name hr hr' hname hname'
        rw [(honly key r name hr hname).2, (honly key' r' name hr' hname').2]

def tunnelPortal (ifID : UInt32) : PEPortalIntent :=
  ⟨"eth1", ifID, Netip.Prefix.default6, Netip.Prefix.default6⟩

def tunnelTenant (ifID : UInt32) : TenantIntent where
  portalIntents := (∅ : GoMap String PEPortalIntent).insert "a" (tunnelPortal ifID)
  dt46SID := .invalid
  installPaths := []

def oneTunnel (ifID : UInt32) : PEIntent where
  nodeID := "pe1"
  tenants := (∅ : GoMap String TenantIntent).insert "1" (tunnelTenant ifID)
  trafficClassIntent := []

theorem oneTunnel_numbered (ifID : UInt32) : TunnelsNumbered (.pe (oneTunnel ifID)) := by
  refine forall_lookup_singleton ?_
  intro id id' p p' hp hp' _
  have hone : ∀ id p, (tunnelTenant ifID).portalIntents.lookup id = some p → id = "a" :=
    forall_lookup_singleton rfl
  exact (hone id p hp).trans (hone id' p' hp').symm

/-- The links of tenant 1 with a tunnel of interface id 7 can be created. -/
theorem linksCreatable_oneTunnel :
    ∃ m, renderIntent .listed (.pe (oneTunnel 7)) = .ok m ∧ LinksCreatable m := by
  refine ⟨_, rfl, (linksCreatable_iff (.pe (oneTunnel 7)) (oneTunnel_numbered 7) rfl).mpr ?_⟩
  refine forall_lookup_singleton ?_
  refine ⟨by decide, ?_⟩
  exact forall_lookup_singleton (by decide)

/-- With interface id 1000 the name of the tunnel has sixteen bytes. -/
theorem tunnel_1000_not_creatable :
    TunnelsNumbered (.pe (oneTunnel 1000)) ∧
    ∃ m, renderIntent .listed (.pe (oneTunnel 1000)) = .ok m ∧
      ∃ key r, m.lookup key = some r ∧ r.linkName = some "maeto-tun-1-1000" ∧
        (utf8 "maeto-tun-1-1000").length = 16 := by
  refine ⟨oneTunnel_numbered 1000, _, rfl, ?_⟩
  have hname : xfrmName "1" 1000 = "maeto-tun-1-1000" := by decide +kernel
  have ht : (oneTunnel 1000).tenants.lookup "1" = some (tunnelTenant 1000) := AList.lookup_insert _
  have hp : (tunnelTenant 1000).portalIntents.lookup "a" = some (tunnelPortal 1000) :=
    AList.lookup_insert _
  obtain ⟨key, r, hr, hlink⟩ :=
    exists_lookup_renderPEIntent rfl ht (fun _ => xfrm_mem_tenantResources hp) rfl
  exact ⟨key, r, hr, hlink.trans (congrArg some hname), by decide +kernel⟩

end Intents

end Maeto.Dataplane
