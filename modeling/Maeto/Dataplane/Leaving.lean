import Maeto.Dataplane.LinkNames
import Maeto.Dataplane.Slots

/-!
# What the removals of a pass leave

The first pass removes the links of ours that are not asked for, and with them go the routes over
them and the references to them (`Kernel.without`). An object that is left then and has a key that
is asked for is there after the removals, unless it is a prefix route (`Leaves.has`).
-/

namespace Maeto.Dataplane

open Foundation Netip Nodesync GoMap

section Leaving

def Link.detachAll (gone : List String) (l : Link) : Link :=
  { l with
    parent := if l.parent ∈ gone then "" else l.parent
    master := if l.master ∈ gone then "" else l.master }

def Kernel.without (k : Kernel) (gone : List String) : Kernel :=
  { k with
    links := k.links.copyInto .listed
      (fun _ l => if l.name ∈ gone then none else some (l.detachAll gone)) ∅
    routes := k.routes.filter fun r => r.dev ∉ gone
    index_lt := fun i hi => k.index_lt i (mem_of_mem_copyInto hi) }

def Link.resource (i : ℕ) (l : Link) : Option Resource :=
  if l.group = maetoLinkGroup then
    match l.kind with
    | .vrf t => some (.vrf { name := l.name, tableID := t, index := i })
    | .xfrm ifID =>
      some (.xfrm
        { name := l.name, ifID, parent := l.parent, masterVRF := l.master, index := i })
    | .other _ => none
  else none

def Kernel.leaving (desired : ResourceMap) (k : Kernel) : List String :=
  k.linkList.filterMap fun (i, l) =>
    (l.resource i).bind fun o => if o.key ∈ desired then none else some l.name

variable {desired : ResourceMap} {k : Kernel} {gone : List String}

theorem Link.resource_eq_some {i : ℕ} {l : Link} {o : Resource} :
    l.resource i = some o ↔ LinkObject i l o := by
  unfold Link.resource
  constructor
  · intro h
    split_ifs at h with hgroup
    split at h
    · rename_i t hkind
      cases h
      exact .vrf t hgroup hkind
    · rename_i ifID hkind
      cases h
      exact .xfrm ifID hgroup hkind
    · cases h
  · intro h
    cases h with
    | vrf t hgroup hkind => rw [if_pos hgroup, hkind]
    | xfrm ifID hgroup hkind => rw [if_pos hgroup, hkind]

theorem mem_leaving {name : String} :
    name ∈ k.leaving desired ↔ ∃ o, k.Has o ∧ o.key ∉ desired ∧ o.linkName = some name := by
  simp only [Kernel.leaving, List.mem_filterMap, Prod.exists, Option.bind_eq_some_iff,
    Kernel.linkList, mem_range, Link.resource_eq_some]
  constructor
  · rintro ⟨i, l, hl, o, ho, hname⟩
    split_ifs at hname with hkey
    exact ⟨o, .link i l o hl ho, hkey, ho.linkName.trans hname⟩
  · rintro ⟨o, ho, hkey, hname⟩
    obtain ⟨i, l, hl, ho, rfl⟩ := ho.of_linkName hname
    exact ⟨i, l, hl, o, ho, if_neg hkey⟩

theorem lookup_without (k : Kernel) (gone : List String) (i : ℕ) :
    (k.without gone).links.lookup i = (k.links.lookup i).bind fun l =>
      if l.name ∈ gone then none else some (l.detachAll gone) := by
  change (k.links.copyInto .listed _ ∅).lookup i = _
  rw [lookup_copyInto, AList.lookup_empty, Option.or_none]

theorem mem_routes_without {r : KernelRoute} :
    r ∈ (k.without gone).routes ↔ r ∈ k.routes ∧ r.dev ∉ gone := by
  rw [Kernel.without, List.mem_filter, decide_eq_true_eq]

theorem LinkObject.of_detachAll {i : ℕ} {l : Link} {o : Resource}
    (h : LinkObject i (l.detachAll gone) o) : ∃ o₀, LinkObject i l o₀ ∧ o₀.key = o.key := by
  cases h with
  | vrf t hgroup hkind => exact ⟨_, .vrf t hgroup hkind, rfl⟩
  | xfrm ifID hgroup hkind => exact ⟨_, .xfrm ifID hgroup hkind, rfl⟩

end Leaving

section Removals

structure Stripped (k : Kernel) (gone : List String) (s : Kernel) : Prop where
  links : ∀ i, s.links.lookup i = (k.without gone).links.lookup i
  routes : ∀ r ∈ s.routes, r ∈ (k.without gone).routes
  rules : ∀ r ∈ s.rules, r ∈ k.rules

variable {desired : ResourceMap} {k s s' : Kernel} {gone : List String} {o : Resource}

theorem Stripped.congr {gone' : List String} (h : Stripped k gone s)
    (hgone : ∀ name, name ∈ gone ↔ name ∈ gone') : Stripped k gone' s where
  links := by
    intro i
    rw [h.links, lookup_without, lookup_without]
    cases k.links.lookup i with
    | none => rfl
    | some l => simp only [Option.bind_some, Link.detachAll, hgone]
  routes := by
    intro r hr
    have hmem := mem_routes_without.mp (h.routes r hr)
    exact mem_routes_without.mpr ⟨hmem.1, fun hdev => hmem.2 ((hgone _).mpr hdev)⟩
  rules := h.rules

theorem Stripped.of_eq (hlinks : s.links = k.links) (hroutes : s.routes = k.routes)
    (hrules : s.rules = k.rules) : Stripped k [] s where
  links := by
    intro i
    rw [hlinks, lookup_without]
    cases k.links.lookup i <;> simp [Link.detachAll]
  routes := fun r hr => mem_routes_without.mpr ⟨hroutes ▸ hr, List.not_mem_nil⟩
  rules := fun r hr => hrules ▸ hr

theorem Stripped.has (h : Stripped k gone s) (ho : s.Has o) :
    (k.without gone).Has o ∨ o.kind = .classification := by
  cases ho with
  | classification key mark hmark => exact Or.inr rfl
  | link i l _ hl ho => exact Or.inl (.link i l o ((h.links i).symm.trans hl) ho)
  | route r _ hr ho => exact Or.inl (.route r o (h.routes r hr) ho)
  | rule r _ hr ho => exact Or.inl (.rule r o (h.rules r hr) ho)

variable {i : ℕ}

theorem Stripped.lookup_cases (h : Stripped k gone s) {l' : Link}
    (hl' : s.links.lookup i = some l') :
    ∃ l, k.links.lookup i = some l ∧ l.name ∉ gone ∧ l' = l.detachAll gone := by
  rw [h.links, lookup_without] at hl'
  obtain ⟨l, hl, hif⟩ := Option.bind_eq_some_iff.mp hl'
  split_ifs at hif with hname
  exact ⟨l, hl, hname, (Option.some.inj hif).symm⟩

theorem Stripped.linkDel (h : Stripped k gone s) (hnames : k.NamesApart) {l' : Link}
    (hl' : s.links.lookup i = some l') {routes : List KernelRoute}
    (hroutes : ∀ r ∈ routes, r ∈ s.routes) :
    Stripped k (gone ++ [l'.name]) (({ s with routes } : Kernel).linkDel i l'.name) := by
  obtain ⟨l, hl, hname, rfl⟩ := h.lookup_cases hl'
  change Stripped k (gone ++ [l.name]) (({ s with routes } : Kernel).linkDel i l.name)
  refine ⟨fun j => ?_, fun r hr => ?_, h.rules⟩
  · rw [lookup_linkDel, lookup_without]
    have hs := h.links j
    rw [lookup_without] at hs
    change (if j = i then none else (s.links.lookup j).map (Link.detach l.name)) = _
    rw [hs]
    split_ifs with hj
    · rw [hj, hl, Option.bind_some, if_pos (List.mem_append_right _ List.mem_cons_self)]
    · cases hlj : k.links.lookup j with
      | none => rfl
      | some lj =>
        have hne : lj.name ≠ l.name := fun heq => hj (hnames j i lj l hlj hl heq)
        change Option.map _ (if lj.name ∈ gone then none else some (lj.detachAll gone)) =
          if lj.name ∈ gone ++ [l.name] then none else some (lj.detachAll (gone ++ [l.name]))
        by_cases hgone : lj.name ∈ gone
        · simp [hgone]
        · simp only [hgone, hne, if_false, List.mem_append, List.mem_singleton, or_false,
            Option.map_some, Link.detach, Link.detachAll]
          grind
  · obtain ⟨hr, hdev⟩ := List.mem_filter.mp hr
    obtain ⟨hr, hgone⟩ := mem_routes_without.mp (h.routes r (hroutes r hr))
    refine mem_routes_without.mpr ⟨hr, ?_⟩
    rw [List.mem_append, List.mem_singleton, not_or]
    exact ⟨hgone, of_decide_eq_true hdev⟩

theorem Stripped.removeLink (h : Stripped k gone s) (hnames : k.NamesApart) {l : Link}
    (hl : k.links.lookup i = some l) (ho : LinkObject i l o)
    (hstep : RemoveStep s o.observed s') : Stripped k (gone ++ [l.name]) s' := by
  have hindex := ho.linkIndex
  cases hstep with
  | refl hlink =>
    -- The link is gone already, by an earlier call for its name.
    have hgone : l.name ∈ gone := by
      by_contra hgone
      have hs : s.links.lookup i = some (l.detachAll gone) := by
        rw [h.links, lookup_without, hl, Option.bind_some, if_neg hgone]
      cases ho with
      | vrf t hgroup hkind => exact hlink i _ _ hs (.vrf t hgroup hkind) rfl hindex
      | xfrm ifID hgroup hkind => exact hlink i _ _ hs (.xfrm ifID hgroup hkind) rfl hindex
    refine h.congr fun name => ?_
    rw [List.mem_append, List.mem_singleton, or_iff_left_of_imp]
    rintro rfl
    exact hgone
  | route r hr hx => cases ho <;> cases hx
  | rule r r' hx => cases ho <;> cases hx
  | queued queue hx => cases ho <;> cases hx
  | link i' l' routes hx hl' hroutes hrest =>
    have hi : i' = i := by exact_mod_cast Option.some.inj (hx.symm.trans hindex)
    rw [hi] at hl' ⊢
    obtain ⟨l₀, hl₀, -, rfl⟩ := h.lookup_cases hl'
    cases hl.symm.trans hl₀
    exact h.linkDel hnames hl' fun r hr => hroutes.subset hr

theorem Stripped.removeStep (h : Stripped k gone s) (hnames : k.NamesApart) (ho : k.Has o)
    (hstep : RemoveStep s o.observed s') : Stripped k (gone ++ o.linkName.toList) s' := by
  cases hname : o.linkName with
  | none =>
    have hlinks := hstep.links_eq (by cases o <;> first | rfl | cases hname)
    have hfewer := hstep.fewer
    rw [Option.toList_none, List.append_nil]
    exact ⟨fun i => by rw [hlinks, h.links], fun r hr => h.routes r (hfewer.routes.subset hr),
      fun r hr => h.rules r (hfewer.rules.subset hr)⟩
  | some name =>
    obtain ⟨i, l, hl, ho, rfl⟩ := ho.of_linkName hname
    exact h.removeLink hnames hl ho hstep

theorem Stripped.removeAll (h : Stripped k gone s) (hnames : k.NamesApart) (rs : List Resource)
    (hrs : ∀ x ∈ rs, ∃ o, k.Has o ∧ o.observed = x) :
    Stripped k (gone ++ rs.filterMap Resource.linkName) (removeAll linuxNetlink rs s) := by
  induction rs generalizing gone s with
  | nil => simpa [Dataplane.removeAll] using h
  | cons x rs ih =>
    obtain ⟨o, ho, rfl⟩ := hrs x List.mem_cons_self
    have hfirst := h.removeStep hnames ho (removeCall_step s o.observed)
    have hrest := ih hfirst fun x hx => hrs x (List.mem_cons_of_mem _ hx)
    refine hrest.congr fun name => ?_
    have hname : o.observed.linkName = o.linkName := by cases o <;> rfl
    rw [List.filterMap_cons, hname]
    cases o.linkName <;> simp

end Removals

section Kept

variable {nodeType : NodeType} {desired : ResourceMap} {k k' s s' : Kernel} {y o o₁ : Resource}

theorem RouteObject.removedBy {r : KernelRoute} (hown : OwnRoute r) (h : RouteObject r o) :
    o.observed.removedBy = some (r.dst, r.table, r.protocol) := by
  cases h with
  | route hproto =>
    simp only [Resource.observed, Resource.removedBy, Network.prefixToIPNet_net, Option.map_some,
      uint32OfInt_toNat, hproto]
  | sid sidType t hproto haction =>
    obtain ⟨htable, -, hbits, -⟩ := hown.sid hproto
    simp only [Resource.observed, Resource.removedBy, sidNet_of_bits hbits, Option.map_some,
      htable, hproto]
  | srRoute segments hproto haction =>
    simp only [Resource.observed, Resource.removedBy, Network.prefixToIPNet_net, Option.map_some,
      uint32OfInt_toNat, hproto]

theorem RouteObject.metric {r : KernelRoute} (hown : OwnRoute r) (h : RouteObject r o)
    (hkind : o.kind ≠ .route) :
    r.protocol ≠ maetoRouteProto ∧ r.metric = Kernel.userMetric r.dst := by
  cases h with
  | route => exact absurd rfl hkind
  | sid sidType t hproto haction =>
    exact ⟨by rw [hproto]; decide, (hown.sid hproto).2.1⟩
  | srRoute segments hproto haction =>
    exact ⟨by rw [hproto]; decide, (hown.srRoute hproto).1⟩

theorem KernelRule.kernelRule_object {r : KernelRule} (hproto : r.protocol = maetoRouteProto) :
    r.object.observed.kernelRule = some r := by
  obtain ⟨priority, src, table, mark, iif, protocol⟩ := r
  cases hproto
  cases src <;> simp [KernelRule.object, Resource.observed, Resource.kernelRule, Linux.maetoRule,
    maetoRouteProto]

/-- The removal of an object leaves the rules of ours with other keys. -/
theorem RemoveStep.keeps_rule (hk : Made nodeType k) (ho : k.Has o)
    (hstep : RemoveStep s o.observed s') {r : KernelRule} (hrk : r ∈ k.rules) (hr : r ∈ s.rules)
    (hproto : r.protocol = maetoRouteProto) (hne : r.object.key ≠ o.key) : r ∈ s'.rules := by
  cases hstep with
  | refl | route | link | queued => exact hr
  | rule r₁ r' hx hr' hsel =>
    refine (List.mem_erase_of_ne ?_).mpr hr
    rintro rfl
    have hkind : o.kind = .rule := by
      cases o with
      | rule => rfl
      | _ => cases hx
    obtain ⟨r₀, hr₀, hproto₀, rfl⟩ := ho.of_rule hkind
    cases (KernelRule.kernelRule_object hproto₀).symm.trans hx
    have hident := (hk.ownRules r₁ hr₀ hproto₀).ident_eq_of_selects
      (hk.ownRules r hrk hproto) hsel
    exact hne (KernelRule.key_object_congr hident)

/-- The call that removes one route of the sid kinds takes no other of them: their metric is the
default one, so that the destination and the table identify the route. -/
theorem Made.eq_of_removedBy (hk : Made nodeType k) (ho : k.Has o) {r : KernelRoute}
    (hr : r ∈ k.routes) (ho₁ : RouteObject r o₁) (hkind : o₁.kind ≠ .route)
    (hx : o.observed.removedBy = some (r.dst, r.table, r.protocol)) : o₁ = o := by
  obtain ⟨hproto, hmetric⟩ := ho₁.metric (hk.ownRoutes r hr) hkind
  have hroute : o.kind = .route ∨ o.kind = .sid ∨ o.kind = .srRoute := by
    cases o with
    | route | sid | srRoute => simp [Resource.kind]
    | _ => cases hx
  obtain ⟨r₀, hr₀, ho₀⟩ := ho.of_route hroute
  have hown₀ := hk.ownRoutes r₀ hr₀
  have hsame := (ho₀.removedBy hown₀).symm.trans hx
  simp only [Option.some.injEq, Prod.mk.injEq] at hsame
  obtain ⟨hdst, htable, hproto₀⟩ := hsame
  have hkind₀ : o.kind ≠ .route := by
    intro hkind₀
    cases ho₀ with
    | route hproto' => exact hproto (hproto₀.symm.trans hproto')
    | _ => cases hkind₀
  obtain ⟨-, hmetric₀⟩ := ho₀.metric hown₀ hkind₀
  have hslot : r₀.slot = r.slot := by
    rw [KernelRoute.slot, KernelRoute.slot, hmetric, hmetric₀, hdst, htable]
  rw [hk.route_eq_of_slot hr₀ hr hslot] at ho₀
  exact ho₁.eq ho₀

/-- The removal of an object leaves the SIDs and SR routes with other keys, but for those over a
link that goes. -/
theorem RemoveStep.keeps_route (hk : Made nodeType k) (ho : k.Has o)
    (hlinks : ∀ i l, s.links.lookup i = some l → ∃ l₀, k.links.lookup i = some l₀ ∧
      l.ident = l₀.ident)
    (hstep : RemoveStep s o.observed s') {r : KernelRoute} (hrk : r ∈ k.routes)
    (hr : r ∈ s.routes) (ho₁ : RouteObject r o₁) (hkind : o₁.kind ≠ .route)
    (hne : o₁.key ≠ o.key) (hdev : o.linkName ≠ some r.dev) : r ∈ s'.routes := by
  cases hstep with
  | refl | rule | queued => exact hr
  | route r' hr' hx =>
    refine (List.mem_erase_of_ne ?_).mpr hr
    rintro rfl
    exact hne (by rw [hk.eq_of_removedBy ho hrk ho₁ hkind hx])
  | link i l routes hx hl hroutes hrest =>
    have hmem : r ∈ routes := by
      by_contra hnot
      exact (ho₁.metric (hk.ownRoutes r hrk) hkind).1 (hrest r hr hnot).1
    refine List.mem_filter.mpr ⟨hmem, decide_eq_true fun heq => hdev ?_⟩
    have hlinked : o.kind = .vrf ∨ o.kind = .xfrm := by
      cases o with
      | vrf | xfrm => simp [Resource.kind]
      | _ => cases hx
    obtain ⟨i₀, l₀, hl₀, ho₀⟩ := ho.of_link hlinked
    have hi : i₀ = i := by exact_mod_cast Option.some.inj (ho₀.linkIndex.symm.trans hx)
    obtain ⟨l', hl', hident⟩ := hlinks i l hl
    rw [hi, hl'] at hl₀
    cases hl₀
    simp only [Link.ident, Prod.mk.injEq] at hident
    rw [ho₀.linkName, ← hident.1, heq]

structure Leaves (desired : ResourceMap) (k s : Kernel) : Prop where
  links : ∀ i l, s.links.lookup i = some l → ∃ l₀, k.links.lookup i = some l₀ ∧ l.ident = l₀.ident
  rules : ∀ r ∈ k.rules, r.protocol = maetoRouteProto → r.object.key ∈ desired → r ∈ s.rules
  routes : ∀ r ∈ (k.without (k.leaving desired)).routes, ∀ o, RouteObject r o → o.kind ≠ .route →
    o.key ∈ desired → r ∈ s.routes

variable {rs : List Resource}

theorem Leaves.removeAll (hk : Made nodeType k) (h : Leaves desired k s)
    (hrs : ∀ x ∈ rs, ∃ o, k.Has o ∧ o.observed = x ∧ o.key ∉ desired) :
    Leaves desired k (removeAll linuxNetlink rs s) := by
  induction rs generalizing s with
  | nil => exact h
  | cons x rs ih =>
    refine ih ?_ fun x' hx' => hrs x' (List.mem_cons_of_mem _ hx')
    obtain ⟨o, ho, rfl, hnot⟩ := hrs x List.mem_cons_self
    have hstep := removeCall_step s o.observed
    refine ⟨?_, ?_, ?_⟩
    · intro i l' hl'
      obtain ⟨l, hl, hident'⟩ := hstep.fewer.links i l' hl'
      obtain ⟨l₀, hl₀, hident⟩ := h.links i l hl
      exact ⟨l₀, hl₀, hident'.trans hident⟩
    · intro r hr hproto hkey
      exact hstep.keeps_rule hk ho hr (h.rules r hr hproto hkey) hproto
        fun heq => hnot (heq ▸ hkey)
    · intro r hr o₁ ho₁ hkind hkey
      obtain ⟨hrk, hstays⟩ := mem_routes_without.mp hr
      exact hstep.keeps_route hk ho h.links hrk (h.routes r hr o₁ ho₁ hkind hkey) ho₁ hkind
        (fun heq => hnot (heq ▸ hkey))
        fun hdev => hstays (mem_leaving.mpr ⟨o, ho, hnot, hdev⟩)

/-- What is left of an object with a key that is asked for is there after the removals, when it is
not a prefix route. -/
theorem Leaves.has (h : Leaves desired k s) (hs : Stripped k (k.leaving desired) s)
    (ho : (k.without (k.leaving desired)).Has o) (hkey : o.key ∈ desired)
    (hkind : o.kind ≠ .route ∧ o.kind ≠ .classification) : s.Has o := by
  cases ho with
  | classification => exact absurd rfl hkind.2
  | link i l _ hl ho => exact .link i l o ((hs.links i).trans hl) ho
  | route r _ hr ho => exact .route r o (h.routes r hr o ho hkind.1 hkey) ho
  | rule r _ hr ho =>
    refine .rule r o ?_ ho
    cases ho with
    | rule hproto => exact h.rules r hr hproto hkey

theorem Made.addAll_has (hs : Made nodeType s) (hfit : ∀ y ∈ rs, Fitting nodeType y)
    (hslots : ∀ y ∈ rs, ∀ slot, y.slot = some slot → o.slot ≠ some slot)
    (hkind : o.kind ≠ .route) (ho : s.Has o) : (addAll linuxNetlink rs s).Has o := by
  induction rs generalizing s with
  | nil => exact ho
  | cons y rs ih =>
    have hstep := addCall_step s y
    refine ih (hs.addStep (hfit y List.mem_cons_self) hstep)
      (fun y' hy' => hfit y' (List.mem_cons_of_mem _ hy'))
      (fun y' hy' => hslots y' (List.mem_cons_of_mem _ hy')) ?_
    refine hstep.keeps.has ho fun r hr hobject htakes => ?_
    have hown := hs.ownRoutes r hr
    obtain ⟨hproto, hmetric⟩ := hobject.metric hown hkind
    rcases htakes with hslot | ⟨v, -, hslot⟩
    · refine hslots y List.mem_cons_self _ hslot (hobject.slot hown fun hcatchAll => ?_)
      exact hproto (by rw [hcatchAll]; rfl)
    · -- The metric of a catch-all is not one that a SID or an SR route is stored with.
      simp only [KernelRoute.slot, Prod.mk.injEq] at hslot
      rw [hmetric, hslot.2.1] at hslot
      have hne : Kernel.userMetric .default6 ≠ vrfUnreachableMetricValue := by decide
      exact hne hslot.2.2

theorem Made.removeAll (hs : Made nodeType s) (rs : List Resource) :
    Made nodeType (removeAll linuxNetlink rs s) := by
  induction rs generalizing s with
  | nil => exact hs
  | cons x rs ih => exact ih (hs.of_fewer (removeCall_step s x).fewer)

theorem Made.addAll (hs : Made nodeType s)
    (hfit : ∀ y ∈ rs, Fitting nodeType y) : Made nodeType (addAll linuxNetlink rs s) := by
  induction rs generalizing s with
  | nil => exact hs
  | cons y rs ih =>
    exact ih (hs.addStep (hfit y List.mem_cons_self) (addCall_step s y))
      fun y' hy' => hfit y' (List.mem_cons_of_mem _ hy')

theorem Made.key_eq_of_slot (h : Made nodeType k) {y' o' : Resource} (hy : Fitting nodeType y)
    (hy' : Fitting nodeType y') (ho : k.Has o) (ho' : k.Has o') (hkey : o.key = y.key)
    (hkey' : o'.key = y'.key) {slot : UInt32 × Network × ℕ} (hslot : y.slot = some slot)
    (hslot' : y'.slot = some slot) : y.key = y'.key := by
  have hplace : ∀ {o y : Resource}, Fitting nodeType y → k.Has o → o.key = y.key →
      y.slot = some slot → ∃ r ∈ k.routes, RouteObject r o ∧ r.slot = slot := by
    intro o y hy ho hkey hslot
    rw [← Resource.slot_congr ho.readable hkey] at hslot
    have hkind : o.kind = .route ∨ o.kind = .sid ∨ o.kind = .srRoute := by
      cases o with
      | route | sid | srRoute => simp [Resource.kind]
      | _ => cases hslot
    obtain ⟨r, hr, hobject⟩ := ho.of_route hkind
    have hplaced := hobject.slot (h.ownRoutes r hr) (hy.ne_catchAll hobject hkey)
    exact ⟨r, hr, hobject, Option.some.inj (hplaced.symm.trans hslot)⟩
  obtain ⟨r, hr, hobject, hr₁⟩ := hplace hy ho hkey hslot
  obtain ⟨r', hr', hobject', hr₁'⟩ := hplace hy' ho' hkey' hslot'
  rw [h.route_eq_of_slot hr hr' (hr₁.trans hr₁'.symm)] at hobject
  rw [← hkey, ← hkey', hobject.eq hobject']

end Kept

end Maeto.Dataplane
