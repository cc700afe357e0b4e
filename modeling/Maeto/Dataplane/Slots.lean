import Maeto.Dataplane.Made

/-!
# The places of the routes

The kernel keeps one route for each table, destination and metric. The resources that become
routes have such a place (`Resource.slot`), which can be read off their keys, and among the routes
that the reconciler makes the object of a route is in the place of its resource unless it is the
catch-all of a VRF. So the objects of ours are told apart by their keys (`Made.route_eq_of_key`,
`KernelRule.ident_eq_of_key`, `LinkObject.name_eq_of_key`).
-/

namespace Maeto.Dataplane

open Foundation Netip Nodesync Resource

def Kernel.HasKey (k : Kernel) (key : String) : Prop := ∃ o, k.Has o ∧ o.key = key

def Resource.slot : Resource → Option (UInt32 × Network × ℕ)
  | .route r =>
    (prefixToIPNet r.dst).map fun n => (uint32OfInt r.table, n, Kernel.userMetric n)
  | .srRoute s =>
    (prefixToIPNet s.routePrefix).map fun n => (uint32OfInt s.table, n, Kernel.userMetric n)
  | .sid s => (Linux.sidNet s.sid).map fun n => (rtTableMain, n, Kernel.userMetric n)
  | _ => none

theorem Resource.slot_congr {o y : Resource} (ho : o.Readable) (hkey : o.key = y.key) :
    o.slot = y.slot := by
  obtain ⟨hkind, hbody⟩ := key_eq_iff.mp hkey
  cases o with
  | route r =>
    cases y with
    | route r' =>
      obtain ⟨htable, hdst, -⟩ := keyBody_route ho hbody
      rw [Resource.slot, Resource.slot, htable, hdst]
    | _ => cases hkind
  | srRoute s =>
    cases y with
    | srRoute s' =>
      obtain ⟨htable, hdst, -⟩ := keyBody_srRoute ho hbody
      rw [Resource.slot, Resource.slot, htable, hdst]
    | _ => cases hkind
  | sid s =>
    cases y with
    | sid s' =>
      obtain ⟨-, hsid, -⟩ := keyBody_sid hbody
      rw [Resource.slot, Resource.slot, hsid]
    | _ => cases hkind
  | vrf | xfrm | rule | classification =>
    cases y with
    | vrf | xfrm | rule | classification => rfl
    | _ => cases hkind

theorem Network.net_injective : Function.Injective Network.net := by
  rintro ⟨net, _, _⟩ ⟨net', _, _⟩ rfl
  rfl

theorem sidNet_of_bits {n : Network} (h : n.net.bits = some 128) :
    Linux.sidNet n.net.ip = some n := by
  have hself : Prefix.prefixFrom n.net.ip 128 = n.net := by
    have heq := n.prefixFrom_eq
    rwa [h, Option.getD_some] at heq
  have his6 : n.net.ip.is6 = true := by
    have hlen := n.net.bits_le 128 h
    cases hip : n.net.ip with
    | v6 a => rfl
    | v4 a =>
      rw [hip, Addr.bitLen] at hlen
      omega
    | invalid =>
      rw [hip] at hlen
      cases hlen.1
  rw [Linux.sidNet, if_pos his6, hself, Network.prefixToIPNet_net]

section Inversion

variable {k : Kernel} {o : Resource}

theorem Kernel.Has.of_classification (h : k.Has o) (hkind : o.kind = .classification) :
    ∃ key mark, (k.classes.getD ∅).lookup key = some mark ∧
      o = .classification { classifier := key.toUInt32, mark } := by
  cases h with
  | classification key mark hmark => exact ⟨key, mark, hmark, rfl⟩
  | link i l _ hl ho => cases ho <;> cases hkind
  | route r _ hr ho => cases ho <;> cases hkind
  | rule r _ hr ho => cases ho; cases hkind

theorem Kernel.Has.of_rule (h : k.Has o) (hkind : o.kind = .rule) :
    ∃ r ∈ k.rules, r.protocol = maetoRouteProto ∧ o = r.object := by
  cases h with
  | classification => cases hkind
  | link i l _ hl ho => cases ho <;> cases hkind
  | route r _ hr ho => cases ho <;> cases hkind
  | rule r _ hr ho =>
    cases ho with
    | rule hproto => exact ⟨r, hr, hproto, rfl⟩

theorem Kernel.Has.of_link (h : k.Has o) (hkind : o.kind = .vrf ∨ o.kind = .xfrm) :
    ∃ i l, k.links.lookup i = some l ∧ LinkObject i l o := by
  cases h with
  | classification => simp [Resource.kind] at hkind
  | link i l _ hl ho => exact ⟨i, l, hl, ho⟩
  | route r _ hr ho => cases ho <;> simp [Resource.kind] at hkind
  | rule r _ hr ho => cases ho; simp [Resource.kind] at hkind

theorem LinkObject.linkName {i : ℕ} {l : Link} (h : LinkObject i l o) :
    o.linkName = some l.name := by
  cases h <;> rfl

theorem Kernel.Has.of_linkName (h : k.Has o) {name : String} (hname : o.linkName = some name) :
    ∃ i l, k.links.lookup i = some l ∧ LinkObject i l o ∧ l.name = name := by
  cases h with
  | classification => cases hname
  | link i l _ hl ho => exact ⟨i, l, hl, ho, Option.some.inj (ho.linkName.symm.trans hname)⟩
  | route r _ hr ho => cases ho <;> cases hname
  | rule r _ hr ho => cases ho; cases hname

theorem Kernel.Has.of_route (h : k.Has o)
    (hkind : o.kind = .route ∨ o.kind = .sid ∨ o.kind = .srRoute) :
    ∃ r ∈ k.routes, RouteObject r o := by
  cases h with
  | classification => simp [Resource.kind] at hkind
  | link i l _ hl ho => cases ho <;> simp [Resource.kind] at hkind
  | route r _ hr ho => exact ⟨r, hr, ho⟩
  | rule r _ hr ho => cases ho; simp [Resource.kind] at hkind

end Inversion

section Objects

variable {nodeType : NodeType} {k : Kernel} {r r' : KernelRoute} {o o' : Resource}

def KernelRoute.object (r : KernelRoute) : Resource :=
  .route
    { table := r.table.toNat, dst := r.dst.net, dev := r.dev, via := r.action.via,
      metric := r.metric }

theorem RouteObject.slot (hown : OwnRoute r) (h : RouteObject r o)
    (hne : r ≠ Linux.vrfCatchAll r.table.toNat) : o.slot = some r.slot := by
  cases h with
  | route hproto =>
    obtain ⟨hmetric, -⟩ := (hown.route hproto).resolve_left hne
    rw [Resource.slot, Network.prefixToIPNet_net, Option.map_some, uint32OfInt_toNat,
      KernelRoute.slot, hmetric]
  | sid sidType t hproto haction =>
    obtain ⟨htable, hmetric, hbits, -⟩ := hown.sid hproto
    rw [Resource.slot, sidNet_of_bits hbits, Option.map_some, KernelRoute.slot, htable, hmetric]
  | srRoute segments hproto haction =>
    obtain ⟨hmetric, -, -⟩ := hown.srRoute hproto
    rw [Resource.slot, Network.prefixToIPNet_net, Option.map_some, uint32OfInt_toNat,
      KernelRoute.slot, hmetric]

theorem RouteObject.eq_catchAll {t : ℤ} (hown : OwnRoute r) (h : RouteObject r o)
    (hkey : o.key = (Linux.vrfCatchAll t).object.key) : r = Linux.vrfCatchAll t := by
  obtain ⟨hkind, hbody⟩ := key_eq_iff.mp hkey
  cases h with
  | route hproto =>
    obtain ⟨htable, -, hdev⟩ := keyBody_route r.dst.valid hbody
    have htable : r.table.toNat = (uint32OfInt t).toNat := Int.ofNat_inj.mp htable
    have heq := (hown.route hproto).resolve_right fun h => h.2 hdev
    rw [heq, Linux.vrfCatchAll, Linux.vrfCatchAll, uint32OfInt_toNat, UInt32.toNat_inj.mp htable]
  | sid => cases hkind
  | srRoute => cases hkind

end Objects

section Unique

variable {nodeType : NodeType} {k : Kernel}

theorem Made.route_eq_of_slot (h : Made nodeType k) {r r' : KernelRoute} (hr : r ∈ k.routes)
    (hr' : r' ∈ k.routes) (hslot : r.slot = r'.slot) : r = r' :=
  List.inj_on_of_nodup_map (List.pairwise_map.mpr h.slots) hr hr' hslot

theorem Made.route_eq_of_key (h : Made nodeType k) {r r' : KernelRoute} {o o' : Resource}
    (hr : r ∈ k.routes) (hr' : r' ∈ k.routes) (ho : RouteObject r o) (ho' : RouteObject r' o')
    (hkey : o.key = o'.key) : r = r' := by
  have hown := h.ownRoutes r hr
  have hown' := h.ownRoutes r' hr'
  by_cases hcatchAll : r = Linux.vrfCatchAll r.table.toNat
  · have hobject : o = r.object := ho.eq (.route (by rw [hcatchAll]; rfl))
    rw [hobject, hcatchAll] at hkey
    rw [hcatchAll]
    exact (ho'.eq_catchAll hown' hkey.symm).symm
  by_cases hcatchAll' : r' = Linux.vrfCatchAll r'.table.toNat
  · have hobject : o' = r'.object := ho'.eq (.route (by rw [hcatchAll']; rfl))
    rw [hobject, hcatchAll'] at hkey
    rw [hcatchAll']
    exact ho.eq_catchAll hown hkey
  have hreadable : o.Readable := (Kernel.Has.route r o hr ho : k.Has o).readable
  have hslot := slot_congr hreadable hkey
  rw [ho.slot hown hcatchAll, ho'.slot hown' hcatchAll'] at hslot
  exact h.route_eq_of_slot hr hr' (Option.some.inj hslot)

theorem KernelRule.ident_eq_of_key {r r' : KernelRule} (hkey : r.object.key = r'.object.key) :
    r.ident = r'.ident := by
  obtain ⟨-, hbody⟩ := key_eq_iff.mp hkey
  have hvalid : ∀ p ∈ r.src.map Network.net, p.isValid := by
    intro p hp
    obtain ⟨net, -, rfl⟩ := Option.mem_map.mp hp
    exact net.valid
  obtain ⟨hpriority, hsrc, htable, hmark⟩ := keyBody_rule hvalid hbody
  have hsrc : r.src = r'.src := Option.map_injective Network.net_injective hsrc
  have htable : r.table = r'.table := UInt32.toNat_inj.mp (Int.ofNat_inj.mp htable)
  have hmark : r.mark = r'.mark := UInt32.toNat_inj.mp (Int.ofNat_inj.mp hmark)
  have hpriority : r.priority = r'.priority := hpriority
  rw [KernelRule.ident, KernelRule.ident, hpriority, hsrc, htable, hmark]

end Unique

section Fewer

variable {nodeType : NodeType} {k k' : Kernel}

theorem LinkObject.of_ident {i : ℕ} {l l' : Link} {o' : Resource} (hident : l'.ident = l.ident)
    (h : LinkObject i l' o') :
    ∃ o, LinkObject i l o ∧ o.key = o'.key ∧ o.linkName = o'.linkName := by
  simp only [Link.ident, Prod.mk.injEq] at hident
  obtain ⟨hname, hgroup', hkind'⟩ := hident
  cases h with
  | vrf t hgroup hkind =>
    refine ⟨_, .vrf t (hgroup'.symm.trans hgroup) (hkind'.symm.trans hkind), ?_, ?_⟩
    · simp [Resource.key, Resource.keyBody, Resource.kind, hname]
    · simp [Resource.linkName, hname]
  | xfrm ifID hgroup hkind =>
    refine ⟨_, .xfrm ifID (hgroup'.symm.trans hgroup) (hkind'.symm.trans hkind), ?_, ?_⟩
    · simp [Resource.key, Resource.keyBody, Resource.kind, hname]
    · simp [Resource.linkName, hname]

theorem LinkObject.name_eq_of_key {i j : ℕ} {l l' : Link} {o o' : Resource}
    (h : LinkObject i l o) (h' : LinkObject j l' o') (hkey : o.key = o'.key) :
    l.name = l'.name := by
  obtain ⟨hkind, hbody⟩ := key_eq_iff.mp hkey
  cases h with
  | vrf =>
    cases h' with
    | vrf => exact keyBody_vrf hbody
    | xfrm => cases hkind
  | xfrm =>
    cases h' with
    | vrf => cases hkind
    | xfrm => exact (keyBody_xfrm hbody).1

theorem Kernel.Fewer.hasKey (h : k.Fewer k') {key : String} (hkey : k'.HasKey key) :
    k.HasKey key := by
  obtain ⟨o', ho', rfl⟩ := hkey
  cases ho' with
  | classification key mark hmark => exact ⟨_, .classification key mark (h.classes _ _ hmark), rfl⟩
  | route r _ hr ho => exact ⟨o', .route r o' (h.routes.subset hr) ho, rfl⟩
  | rule r _ hr ho => exact ⟨o', .rule r o' (h.rules.subset hr) ho, rfl⟩
  | link i l' _ hl' ho =>
    obtain ⟨l, hl, hident⟩ := h.links i l' hl'
    obtain ⟨o, ho, hkey, -⟩ := ho.of_ident hident
    exact ⟨o, .link i l o hl ho, hkey⟩

end Fewer

section Keeps

variable {nodeType : NodeType} {k k' : Kernel} {y o : Resource}

structure Keeps (taken : UInt32 × Network × ℕ → Prop) (k k' : Kernel) : Prop where
  links : ∀ i l, k.links.lookup i = some l → k'.links.lookup i = some l
  routes : ∀ r ∈ k.routes, ¬ taken r.slot → r ∈ k'.routes
  rules : k.rules ⊆ k'.rules
  classes : ∀ key mark, (k.classes.getD ∅).lookup key = some mark →
    (k'.classes.getD ∅).lookup key = some mark

theorem Keeps.refl (taken : UInt32 × Network × ℕ → Prop) (k : Kernel) : Keeps taken k k where
  links := fun _ _ hl => hl
  routes := fun _ hr _ => hr
  rules := List.Subset.refl _
  classes := fun _ _ h => h

theorem Keeps.has {taken : UInt32 × Network × ℕ → Prop} (h : Keeps taken k k') (ho : k.Has o)
    (hfree : ∀ r ∈ k.routes, RouteObject r o → ¬ taken r.slot) : k'.Has o := by
  cases ho with
  | classification key mark hmark => exact .classification key mark (h.classes _ _ hmark)
  | link i l _ hl ho => exact .link i l o (h.links i l hl) ho
  | rule r _ hr ho => exact .rule r o (h.rules hr) ho
  | route r _ hr ho => exact .route r o (h.routes r hr (hfree r hr ho)) ho

theorem keeps_routeReplace (k : Kernel) (r : KernelRoute)
    {taken : UInt32 × Network × ℕ → Prop} (htaken : taken r.slot) :
    Keeps taken k (k.routeReplace r) := by
  refine { Keeps.refl taken k with routes := fun r' hr' hfree => ?_ }
  refine List.mem_append_left _ (List.mem_filter.mpr ⟨hr', decide_eq_true ?_⟩)
  rintro ⟨htable, hdst, hmetric⟩
  rw [KernelRoute.slot, htable, hdst, hmetric] at hfree
  exact hfree htaken

/-- The places that a call takes: that of the resource, and with a VRF that of the catch-all. -/
def Resource.Takes (y : Resource) (slot : UInt32 × Network × ℕ) : Prop :=
  y.slot = some slot ∨ ∃ v, y = .vrf v ∧ slot = (Linux.vrfCatchAll v.tableID.toNat).slot

theorem Resource.StoredAs.takes {r : KernelRoute} (h : y.StoredAs r) : y.Takes r.slot := by
  cases h with
  | catchAll v => exact Or.inr ⟨v, rfl, rfl⟩
  | route u net dev action hnet => exact Or.inl (by rw [Resource.slot, hnet]; rfl)
  | srRoute s net hnet => exact Or.inl (by rw [Resource.slot, hnet]; rfl)
  | sid s net dev t hnet => exact Or.inl (by rw [Resource.slot, hnet]; rfl)

theorem subset_addRule (rules : List KernelRule) (r : KernelRule) : rules ⊆ addRule rules r := by
  unfold addRule
  split_ifs
  · exact List.Subset.refl _
  · exact List.subset_append_left _ _

/-- An addition keeps everything but the routes in the places it takes. -/
theorem AddStep.keeps (h : AddStep k y k') : Keeps y.Takes k k' := by
  have hlinks := fun i l => @AddStep.lookup_of_some k k' y i l h
  cases h with
  | refl => exact .refl _ k
  | stored _ r hr => exact keeps_routeReplace k r hr.takes
  | vrf v hfree =>
    have hreplaced := keeps_routeReplace (k.insertLink v.link) (Linux.vrfCatchAll v.tableID.toNat)
      (Resource.StoredAs.catchAll v).takes
    exact { hreplaced with links := hlinks }
  | tunnel x hfree hmaster => exact { Keeps.refl _ k with links := hlinks }
  | enslaved x vrf _ hfree hname hset =>
    obtain ⟨hroutes, hrules, hclasses⟩ := linkSetMaster_eq hset
    refine ⟨hlinks, fun r hr _ => ?_, ?_, fun key mark hmark => ?_⟩
    · rw [hroutes]
      exact hr
    · rw [hrules]
      exact List.Subset.refl _
    · rw [hclasses]
      exact hmark
  | rule _ r hrule => exact { Keeps.refl _ k with rules := subset_addRule k.rules r }
  | queued c queue => exact { Keeps.refl _ k with }

theorem Fitting.key_ne_catchAll (hy : Fitting nodeType y) (t : ℤ) :
    (Linux.vrfCatchAll t).object.key ≠ y.key := by
  intro hkey
  obtain ⟨hkind, hbody⟩ := key_eq_iff.mp hkey
  cases y with
  | route r =>
    obtain ⟨-, -, hdev⟩ := keyBody_route (Linux.vrfCatchAll t).dst.valid hbody
    exact hy.2 hdev.symm
  | _ => cases hkind

theorem Fitting.ne_catchAll (hy : Fitting nodeType y) {r : KernelRoute} (ho : RouteObject r o)
    (hkey : o.key = y.key) : r ≠ Linux.vrfCatchAll r.table.toNat := by
  intro hcatchAll
  have hobject : o = r.object := ho.eq (.route (by rw [hcatchAll]; rfl))
  refine hy.key_ne_catchAll r.table.toNat ?_
  rw [← hkey, hobject, ← hcatchAll]

end Keeps

end Maeto.Dataplane
