import Maeto.Dataplane.Linux
import Maeto.Dataplane.Reconcile

/-!
# The objects of the kernel as resources

Every object of ours in the kernel stands for a resource (`Kernel.Has`), and
the reads show these resources except for the gateway of a route
(`mem_resources_of_readFIB`). The kernel only has networks in place of prefixes,
so that the key of an object can be read back: an object and a resource with the
same key agree in everything that `Apply` writes as soon as they agree in the one
field, or the two, that the key leaves out (`written_eq_iff`).
-/

namespace Maeto.Dataplane

open Foundation Netip Result Resource

def RouteAction.via : RouteAction → Addr
  | .gateway gw => gw
  | _ => .invalid

inductive LinkObject (i : ℕ) (l : Link) : Resource → Prop
  | vrf (t : UInt32) (hgroup : l.group = maetoLinkGroup) (hkind : l.kind = .vrf t) :
      LinkObject i l (.vrf { name := l.name, tableID := t, index := i })
  | xfrm (ifID : UInt32) (hgroup : l.group = maetoLinkGroup) (hkind : l.kind = .xfrm ifID) :
      LinkObject i l
        (.xfrm { name := l.name, ifID, parent := l.parent, masterVRF := l.master, index := i })

/-- The resource that a route of ours stands for, by its protocol. -/
inductive RouteObject (r : KernelRoute) : Resource → Prop
  | route (hproto : r.protocol = maetoRouteProto) :
      RouteObject r
        (.route
          { table := r.table.toNat, dst := r.dst.net, dev := r.dev, via := r.action.via,
            metric := r.metric })
  | sid (sidType : EncapType) (t : UInt32) (hproto : r.protocol = maetoSIDProto)
      (haction : r.action = .seg6local sidType t) :
      RouteObject r
        (.sid
          { sidType, sid := r.dst.net.ip, tableID := t.toNat, metric := r.metric,
            vrfTableID := 0 })
  | srRoute (segments : List Addr) (hproto : r.protocol = maetoSIDSegsProto)
      (haction : r.action = .seg6 segments) :
      RouteObject r
        (.srRoute { routePrefix := r.dst.net, segments, table := r.table.toNat, color := 0 })

theorem RouteObject.eq {r : KernelRoute} {o o' : Resource} (h : RouteObject r o)
    (h' : RouteObject r o') : o = o' := by
  have hne : maetoRouteProto ≠ maetoSIDProto ∧ maetoRouteProto ≠ maetoSIDSegsProto ∧
      maetoSIDProto ≠ maetoSIDSegsProto := by decide
  cases h with
  | route hproto =>
    cases h' with
    | route => rfl
    | sid _ _ hproto' => exact absurd (hproto.symm.trans hproto') hne.1
    | srRoute _ hproto' => exact absurd (hproto.symm.trans hproto') hne.2.1
  | sid sidType t hproto haction =>
    cases h' with
    | route hproto' => exact absurd (hproto'.symm.trans hproto) hne.1
    | sid sidType' t' _ haction' =>
      cases haction.symm.trans haction'
      rfl
    | srRoute _ hproto' => exact absurd (hproto.symm.trans hproto') hne.2.2
  | srRoute segments hproto haction =>
    cases h' with
    | route hproto' => exact absurd (hproto'.symm.trans hproto) hne.2.1
    | sid _ _ hproto' => exact absurd (hproto'.symm.trans hproto) hne.2.2
    | srRoute segments' _ haction' =>
      cases haction.symm.trans haction'
      rfl

inductive RuleObject (r : KernelRule) : Resource → Prop
  | rule (hproto : r.protocol = maetoRouteProto) :
      RuleObject r
        (.rule
          { priority := r.priority, src := r.src.map Network.net, table := r.table.toNat,
            mark := r.mark.toNat, iif := r.iif })

inductive Kernel.Has (k : Kernel) : Resource → Prop
  | classification (key : UInt8) (mark : UInt32)
      (h : (k.classes.getD ∅).lookup key = some mark) :
      Has k (.classification { classifier := key.toUInt32, mark })
  | link (i : ℕ) (l : Link) (o : Resource) (h : k.links.lookup i = some l)
      (ho : LinkObject i l o) : Has k o
  | route (r : KernelRoute) (o : Resource) (h : r ∈ k.routes) (ho : RouteObject r o) : Has k o
  | rule (r : KernelRule) (o : Resource) (h : r ∈ k.rules) (ho : RuleObject r o) : Has k o

def Resource.observed : Resource → Resource
  | .route r => .route { r with via := .invalid, metric := 0 }
  | .sid s => .sid { s with metric := 0 }
  | r => r

@[simp] theorem Resource.observed_key (r : Resource) : r.observed.key = r.key := by
  cases r <;> rfl

theorem Network.prefixFrom_eq (n : Network) :
    Prefix.prefixFrom n.net.ip (n.net.bits.getD 0) = n.net := by
  obtain ⟨⟨ip, bits, hbits⟩, hvalid, -⟩ := n
  cases bits with
  | none => cases hvalid
  | some b => simp [Prefix.prefixFrom, hbits b rfl]

section Reads

variable {k : Kernel} {fib : FIB} {links : List DataplaneLink}

theorem mem_getLinksByType {ifaceType : String}
    (h : Linux.getLinksByType ifaceType k = .ok links) (d : DataplaneLink) :
    d ∈ links ↔ ∃ i l, k.links.lookup i = some l ∧ l.group = maetoLinkGroup ∧
      ((∃ t, l.kind = .vrf t ∧ ifaceType = "vrf" ∧
          d = .vrf { name := l.name, index := i, tableID := t }) ∨
        ∃ ifID, l.kind = .xfrm ifID ∧ ifaceType = "xfrm" ∧
          d = .xfrm
            { name := l.name, index := i, parentName := l.parent, masterName := l.master,
              ifID }) := by
  cases h
  simp only [List.mem_filterMap, Prod.exists, Kernel.linkList, GoMap.mem_range]
  refine exists_congr fun i => exists_congr fun l => and_congr_right fun _ => ?_
  by_cases hgroup : l.group = maetoLinkGroup
  · cases hkind : l.kind <;> simp [hgroup, eq_comm]
  · simp [hgroup]

theorem mem_getPrefixRoutes {routes : List DataplaneRoute}
    (h : Linux.getPrefixRoutes k = .ok routes) (d : DataplaneRoute) :
    d ∈ routes ↔ ∃ r ∈ k.routes, r.protocol = maetoRouteProto ∧ Linux.listRoute r = d := by
  cases h
  simp [and_assoc]

theorem mem_getRules {rules : List DataplaneRule} (h : Linux.getRules k = .ok rules)
    (d : DataplaneRule) :
    d ∈ rules ↔ ∃ r ∈ k.rules, r.protocol = maetoRouteProto ∧ Linux.listRule r = d := by
  cases h
  simp [and_assoc]

theorem mem_getSIDs {sids : List DataplaneSID} (h : Linux.getSIDs k = .ok sids) (d : DataplaneSID) :
    d ∈ sids ↔ ∃ r ∈ k.routes, r.protocol = maetoSIDProto ∧ ∃ sidType t,
      r.action = .seg6local sidType t ∧
        d = { dst := ⟨r.dst.net.ip, r.dst.net.bits.getD 0⟩, vrfTableID := t.toNat,
              encapType := sidType } := by
  rw [mem_of_mapM_eq_ok h]
  simp only [List.mem_filter, decide_eq_true_eq, and_assoc]
  refine exists_congr fun r => and_congr_right fun _ => and_congr_right fun _ => ?_
  unfold Linux.listSID
  cases r.action <;> simp [eq_comm]

theorem mem_getSRRoutes {srRoutes : List DataplaneSRRoute}
    (h : Linux.getSRRoutes k = .ok srRoutes) (d : DataplaneSRRoute) :
    d ∈ srRoutes ↔ ∃ r ∈ k.routes, r.protocol = maetoSIDSegsProto ∧ ∃ segments,
      r.action = .seg6 segments ∧
        d = { dst := ⟨r.dst.net.ip, r.dst.net.bits.getD 0⟩, table := r.table.toNat, color := 0,
              segments } := by
  cases h
  simp only [List.mem_filterMap, List.mem_filter, decide_eq_true_eq, and_assoc]
  refine exists_congr fun r => and_congr_right fun _ => and_congr_right fun _ => ?_
  cases r.action <;> simp [eq_comm]

theorem mem_getClassifications {classifications : List DataplaneClassification}
    (h : Linux.getClassifications k = .ok classifications) (d : DataplaneClassification) :
    d ∈ classifications ↔ ∃ key mark, (k.classes.getD ∅).lookup key = some mark ∧
      d = { classifier := key.toUInt32, mark } := by
  unfold Linux.getClassifications at h
  cases hclasses : k.classes with
  | none =>
    rw [hclasses] at h
    cases h
  | some classes =>
    rw [hclasses] at h
    cases h
    simp [GoMap.mem_range, eq_comm]

theorem mem_asVRF {vrfLinks : List DataplaneVRF}
    (h : Linux.getLinksByType "vrf" k = .ok links) (hvrfs : links.mapM asVRF = .ok vrfLinks)
    (v : DataplaneVRF) :
    v ∈ vrfLinks ↔ ∃ i l t, k.links.lookup i = some l ∧ l.group = maetoLinkGroup ∧
      l.kind = .vrf t ∧ v = { name := l.name, index := i, tableID := t } := by
  rw [mem_of_mapM_eq_ok hvrfs]
  constructor
  · rintro ⟨d, hd, hv⟩
    obtain ⟨i, l, hl, hgroup, ⟨t, hkind, -, rfl⟩ | ⟨_, _, hxfrm, _⟩⟩ :=
      (mem_getLinksByType h d).mp hd
    · cases hv
      exact ⟨i, l, t, hl, hgroup, hkind, rfl⟩
    · exact absurd hxfrm (by decide)
  · rintro ⟨i, l, t, hl, hgroup, hkind, rfl⟩
    exact ⟨_, (mem_getLinksByType h _).mpr ⟨i, l, hl, hgroup, Or.inl ⟨t, hkind, rfl, rfl⟩⟩, rfl⟩

theorem mem_asXFRM {xfrmLinks : List DataplaneXFRM}
    (h : Linux.getLinksByType "xfrm" k = .ok links) (hxfrms : links.mapM asXFRM = .ok xfrmLinks)
    (x : DataplaneXFRM) :
    x ∈ xfrmLinks ↔ ∃ i l ifID, k.links.lookup i = some l ∧ l.group = maetoLinkGroup ∧
      l.kind = .xfrm ifID ∧
        x = { name := l.name, index := i, parentName := l.parent, masterName := l.master,
              ifID } := by
  rw [mem_of_mapM_eq_ok hxfrms]
  constructor
  · rintro ⟨d, hd, hx⟩
    obtain ⟨i, l, hl, hgroup, ⟨_, _, hvrf, _⟩ | ⟨ifID, hkind, -, rfl⟩⟩ :=
      (mem_getLinksByType h d).mp hd
    · exact absurd hvrf (by decide)
    · cases hx
      exact ⟨i, l, ifID, hl, hgroup, hkind, rfl⟩
  · rintro ⟨i, l, ifID, hl, hgroup, hkind, rfl⟩
    exact ⟨_, (mem_getLinksByType h _).mpr ⟨i, l, hl, hgroup, Or.inr ⟨ifID, hkind, rfl, rfl⟩⟩,
      rfl⟩

structure ReadFrom (k : Kernel) (fib : FIB) : Prop where
  vrfLinks : ∀ v, v ∈ fib.vrfLinks ↔ ∃ i l t, k.links.lookup i = some l ∧
    l.group = maetoLinkGroup ∧ l.kind = .vrf t ∧
      v = { name := l.name, index := i, tableID := t }
  xfrmLinks : ∀ x, x ∈ fib.xfrmLinks ↔ ∃ i l ifID, k.links.lookup i = some l ∧
    l.group = maetoLinkGroup ∧ l.kind = .xfrm ifID ∧
      x = { name := l.name, index := i, parentName := l.parent, masterName := l.master, ifID }
  routes : Linux.getPrefixRoutes k = .ok fib.routes
  rules : Linux.getRules k = .ok fib.rules
  sids : Linux.getSIDs k = .ok fib.sids
  srRoutes : Linux.getSRRoutes k = .ok fib.srRoutes
  classifications : Linux.getClassifications k = .ok fib.classifications

theorem readFIB_linux (h : readFIB linuxNetlink k = .ok fib) : ReadFrom k fib := by
  obtain ⟨rVrfs, hrVrfs, h⟩ := bind_eq_ok.mp h
  obtain ⟨vrfLinks, hvrfLinks, h⟩ := bind_eq_ok.mp h
  obtain ⟨rXfrms, hrXfrms, h⟩ := bind_eq_ok.mp h
  obtain ⟨xfrmLinks, hxfrmLinks, h⟩ := bind_eq_ok.mp h
  obtain ⟨routes, hroutes, h⟩ := bind_eq_ok.mp h
  obtain ⟨rules, hrules, h⟩ := bind_eq_ok.mp h
  obtain ⟨sids, hsids, h⟩ := bind_eq_ok.mp h
  obtain ⟨srRoutes, hsrRoutes, h⟩ := bind_eq_ok.mp h
  obtain ⟨classifications, hclassifications, h⟩ := bind_eq_ok.mp h
  cases h
  exact {
    vrfLinks := mem_asVRF (mapError_eq_ok.mp hrVrfs) hvrfLinks
    xfrmLinks := mem_asXFRM (mapError_eq_ok.mp hrXfrms) hxfrmLinks
    routes := mapError_eq_ok.mp hroutes
    rules := mapError_eq_ok.mp hrules
    sids := mapError_eq_ok.mp hsids
    srRoutes := mapError_eq_ok.mp hsrRoutes
    classifications := mapError_eq_ok.mp hclassifications }

theorem mem_resources (fib : FIB) (x : Resource) :
    x ∈ fib.resources ↔
      (∃ c ∈ fib.classifications,
        Resource.classification { classifier := c.classifier, mark := c.mark } = x) ∨
      (∃ l ∈ fib.vrfLinks,
        Resource.vrf { name := l.name, tableID := l.tableID, index := l.index } = x) ∨
      (∃ l ∈ fib.xfrmLinks,
        Resource.xfrm
          { name := l.name, ifID := l.ifID, parent := l.parentName, masterVRF := l.masterName,
            index := l.index } = x) ∨
      (∃ r ∈ fib.routes,
        Resource.route
          { table := r.table, dst := Prefix.prefixFrom r.dst.ip r.dst.ones, dev := r.dev,
            via := r.via, metric := 0 } = x) ∨
      (∃ r ∈ fib.rules,
        Resource.rule
          { priority := r.priority, src := r.src, table := r.table, mark := r.mark,
            iif := r.iif } = x) ∨
      (∃ s ∈ fib.sids,
        Resource.sid
          { sidType := s.encapType, sid := s.dst.ip, tableID := s.vrfTableID, metric := 0,
            vrfTableID := 0 } = x) ∨
      ∃ r ∈ fib.srRoutes,
        Resource.srRoute
          { routePrefix := Prefix.prefixFrom r.dst.ip r.dst.ones, segments := r.segments,
            table := r.table, color := UInt64.ofInt r.color } = x := by
  simp only [FIB.resources, List.mem_append, List.mem_map, or_assoc]

theorem ReadFrom.has (h : ReadFrom k fib) {x : Resource} (hx : x ∈ fib.resources) :
    ∃ o, k.Has o ∧ o.observed = x := by
  rw [mem_resources] at hx
  rcases hx with ⟨c, hc, rfl⟩ | ⟨v, hv, rfl⟩ | ⟨v, hv, rfl⟩ | ⟨r, hr, rfl⟩ | ⟨r, hr, rfl⟩ |
    ⟨r, hr, rfl⟩ | ⟨r, hr, rfl⟩
  · obtain ⟨key, mark, hmem, rfl⟩ := (mem_getClassifications h.classifications c).mp hc
    exact ⟨_, .classification key mark hmem, rfl⟩
  · obtain ⟨i, l, t, hl, hgroup, hkind, rfl⟩ := (h.vrfLinks v).mp hv
    exact ⟨_, .link i l _ hl (.vrf t hgroup hkind), rfl⟩
  · obtain ⟨i, l, ifID, hl, hgroup, hkind, rfl⟩ := (h.xfrmLinks v).mp hv
    exact ⟨_, .link i l _ hl (.xfrm ifID hgroup hkind), rfl⟩
  · obtain ⟨route, hmem, hproto, rfl⟩ := (mem_getPrefixRoutes h.routes r).mp hr
    refine ⟨_, .route route _ hmem (.route hproto), ?_⟩
    simp [Resource.observed, Linux.listRoute, Network.prefixFrom_eq]
  · obtain ⟨rule, hmem, hproto, rfl⟩ := (mem_getRules h.rules r).mp hr
    exact ⟨_, .rule rule _ hmem (.rule hproto), rfl⟩
  · obtain ⟨route, hmem, hproto, sidType, t, haction, rfl⟩ := (mem_getSIDs h.sids r).mp hr
    exact ⟨_, .route route _ hmem (.sid sidType t hproto haction), rfl⟩
  · obtain ⟨route, hmem, hproto, segments, haction, rfl⟩ := (mem_getSRRoutes h.srRoutes r).mp hr
    refine ⟨_, .route route _ hmem (.srRoute segments hproto haction), ?_⟩
    rw [Network.prefixFrom_eq]
    rfl

theorem ReadFrom.mem_of_has (h : ReadFrom k fib) {o : Resource} (ho : k.Has o) :
    o.observed ∈ fib.resources := by
  rw [mem_resources]
  cases ho with
  | classification key mark hmem =>
    exact Or.inl
      ⟨_, (mem_getClassifications h.classifications _).mpr ⟨key, mark, hmem, rfl⟩, rfl⟩
  | link i l o hl ho =>
    cases ho with
    | vrf t hgroup hkind =>
      exact Or.inr (Or.inl ⟨_, (h.vrfLinks _).mpr ⟨i, l, t, hl, hgroup, hkind, rfl⟩, rfl⟩)
    | xfrm ifID hgroup hkind =>
      exact Or.inr (Or.inr (Or.inl
        ⟨_, (h.xfrmLinks _).mpr ⟨i, l, ifID, hl, hgroup, hkind, rfl⟩, rfl⟩))
  | route route o hmem ho =>
    cases ho with
    | route hproto =>
      refine Or.inr (Or.inr (Or.inr (Or.inl
        ⟨_, (mem_getPrefixRoutes h.routes _).mpr ⟨route, hmem, hproto, rfl⟩, ?_⟩)))
      simp [Resource.observed, Linux.listRoute, Network.prefixFrom_eq]
    | sid sidType t hproto haction =>
      exact Or.inr (Or.inr (Or.inr (Or.inr (Or.inr (Or.inl
        ⟨_, (mem_getSIDs h.sids _).mpr ⟨route, hmem, hproto, sidType, t, haction, rfl⟩,
          rfl⟩)))))
    | srRoute segments hproto haction =>
      refine Or.inr (Or.inr (Or.inr (Or.inr (Or.inr (Or.inr
        ⟨_, (mem_getSRRoutes h.srRoutes _).mpr
          ⟨route, hmem, hproto, segments, haction, rfl⟩, ?_⟩)))))
      rw [Network.prefixFrom_eq]
      rfl
  | rule rule o hmem ho =>
    cases ho with
    | rule hproto =>
      exact Or.inr (Or.inr (Or.inr (Or.inr (Or.inl
        ⟨_, (mem_getRules h.rules _).mpr ⟨rule, hmem, hproto, rfl⟩, rfl⟩))))

theorem mem_resources_of_readFIB (h : readFIB linuxNetlink k = .ok fib) (x : Resource) :
    x ∈ fib.resources ↔ ∃ o, k.Has o ∧ o.observed = x := by
  have hread := readFIB_linux h
  constructor
  · exact hread.has
  · rintro ⟨o, ho, rfl⟩
    exact hread.mem_of_has ho

end Reads

section Keys

def Resource.written : Resource → Resource
  | .vrf v => .vrf { v with index := 0 }
  | .xfrm x => .xfrm { x with parent := if x.parent = "" then "lo" else x.parent, index := 0 }
  | .route r => .route { r with metric := 0 }
  | .rule r => .rule r
  | .sid s => .sid { s with metric := 0, vrfTableID := 0 }
  | .srRoute s => .srRoute { s with color := 0 }
  | .classification c => .classification c

inductive Unkeyed where
  | nothing
  | table (t : ℤ)
  | links (parent master : String)
  | via (a : Addr)
  | iif (name : String)
  | segments (l : List Addr)
  deriving DecidableEq

def Resource.unkeyed : Resource → Unkeyed
  | .vrf v => .table v.tableID.toNat
  | .xfrm x => .links (if x.parent = "" then "lo" else x.parent) x.masterVRF
  | .route r => .via r.via
  | .rule r => .iif r.iif
  | .sid s => .table s.tableID
  | .srRoute s => .segments s.segments
  | .classification _ => .nothing

def Resource.Readable : Resource → Prop
  | .route r => r.dst.isValid
  | .srRoute s => s.routePrefix.isValid
  | .rule r => ∀ p ∈ r.src, p.isValid
  | _ => True

theorem Kernel.Has.readable {k : Kernel} {o : Resource} (h : k.Has o) : o.Readable := by
  cases h with
  | classification key mark h => trivial
  | link i l o h ho => cases ho <;> trivial
  | route route o h ho =>
    cases ho with
    | route => exact route.dst.valid
    | sid => trivial
    | srRoute => exact route.dst.valid
  | rule rule o h ho =>
    cases ho
    intro p hp
    obtain ⟨net, -, rfl⟩ := Option.mem_map.mp hp
    exact net.valid

/-- A resource whose key can be read back agrees with one of the same key in what is
written as soon as they agree in what the key leaves out. -/
theorem Resource.written_eq_iff {o r : Resource} (ho : o.Readable) (hkey : o.key = r.key) :
    o.written = r.written ↔ o.unkeyed = r.unkeyed := by
  obtain ⟨hkind, hbody⟩ := key_eq_iff.mp hkey
  cases o with
  | vrf v =>
    cases r with
    | vrf w =>
      have hname := keyBody_vrf hbody
      simp [Resource.written, Resource.unkeyed, hname, ← UInt32.toNat_inj]
    | _ => cases hkind
  | xfrm x =>
    cases r with
    | xfrm y =>
      obtain ⟨hname, hid⟩ := keyBody_xfrm hbody
      simp [Resource.written, Resource.unkeyed, hname, hid]
    | _ => cases hkind
  | route route =>
    cases r with
    | route r =>
      obtain ⟨htable, hdst, hdev⟩ := keyBody_route ho hbody
      simp [Resource.written, Resource.unkeyed, htable, hdst, hdev]
    | _ => cases hkind
  | rule rule =>
    cases r with
    | rule r =>
      obtain ⟨hpriority, hsrc, htable, hmark⟩ := keyBody_rule ho hbody
      simp [Resource.written, Resource.unkeyed, hpriority, hsrc, htable, hmark, Rule.ext_iff]
    | _ => cases hkind
  | sid s =>
    cases r with
    | sid s' =>
      obtain ⟨htype, hsid, -⟩ := keyBody_sid hbody
      simp [Resource.written, Resource.unkeyed, htype, hsid]
    | _ => cases hkind
  | srRoute s =>
    cases r with
    | srRoute s' =>
      obtain ⟨htable, hprefix, -⟩ := keyBody_srRoute ho hbody
      simp [Resource.written, Resource.unkeyed, htable, hprefix]
    | _ => cases hkind
  | classification c =>
    cases r with
    | classification c' =>
      rw [keyBody_classification hbody]
      simp
    | _ => cases hkind

end Keys

end Maeto.Dataplane
