import Maeto.Dataplane.Passes

/-!
# Convergence in three passes

When no call fails, a first pass leaves everything that is asked for, up to routes that went with a
link, and beside it only catch-alls. A second pass has no VRF to add and no link to remove, so the
third finds no difference, unless the first left the default route of a portal beside the catch-all
of its table: the call that is to remove the catch-all gives no metric, and takes the route of the
portal, which has the lower one. This comes about when the pass adds the VRF, except where the
route and the catch-all were there before it, for then the first pass takes the route already.

The other condition is that no two resources that are asked for have one place in a routing table,
since only one of them can be read back (`reconcile_nil_iff`).
-/

namespace Maeto.Dataplane

open Foundation Netip Nodesync GoMap Result AList Resource

section Rounds

variable {ords : ℕ → PassOrders} {r : Reconciler} {ni : NodeIntent} {k : Kernel} {n : ℕ}

theorem plan_tidy (hwf : WellFormed ni.intent) (haccept : admitIntent r ni = .ok ())
    (hk : Tidy ni.intent.nodeType k) (ord : PassOrders) :
    ∃ fib desired, readFIB documented k = .ok fib ∧
      renderIntent ord.render ni.intent = .ok desired ∧
        plan documented ord r ni k = .ok (renderFIB fib, desired) := by
  obtain ⟨fib, hread⟩ := hk.read
  obtain ⟨desired, hrender⟩ := hwf.render ord.render
  refine ⟨fib, desired, hread, hrender, ?_⟩
  refine bind_eq_ok.mpr ⟨(), haccept, bind_eq_ok.mpr ⟨fib, hread, ?_⟩⟩
  exact bind_eq_ok.mpr ⟨desired, mapError_eq_ok.mpr hrender, rfl⟩

theorem reconcilePasses_of_exact (ords : ℕ → PassOrders) (n : ℕ) (hwf : WellFormed ni.intent)
    (haccept : admitIntent r ni = .ok ()) (hk : Tidy ni.intent.nodeType k)
    (hexact : Exact ni.intent k) :
    (reconcilePasses documented ords ni r (n + 1) k).err = none ∧
      (reconcilePasses documented ords ni r (n + 1) k).logged = [] := by
  obtain ⟨fib, desired, hread, hrender, hplan⟩ := plan_tidy hwf haccept hk (ords n)
  have hdiff := (diff_nil_iff hwf hread hrender).mpr hexact
  simp only [reconcilePasses, hplan, if_pos hdiff, and_self]

theorem reconcilePasses_of_not_exact (hwf : WellFormed ni.intent)
    (haccept : admitIntent r ni = .ok ()) (hk : Tidy ni.intent.nodeType k)
    (hexact : ¬ Exact ni.intent k)
    (hlog : (reconcilePasses documented ords ni r (n + 1) k).logged = []) :
    ∃ k', (OnePlaceEach ni.intent → Pass ni.intent k k') ∧
      (reconcilePasses documented ords ni r n k').logged = [] ∧
      (reconcilePasses documented ords ni r (n + 1) k).err =
        (reconcilePasses documented ords ni r n k').err := by
  obtain ⟨fib, desired, hread, hrender, hplan⟩ := plan_tidy hwf haccept hk (ords n)
  have hbase : (apply documented (diff (ords n) (renderFIB fib) desired) k).err = none := by
    simp only [apply, hk.base]
  have hdiff := mt (diff_nil_iff hwf hread hrender).mp hexact
  simp only [reconcilePasses, hplan, if_neg hdiff, hbase, List.append_eq_nil_iff] at hlog ⊢
  exact ⟨_, fun hone => pass_apply hwf hone hk hread hrender hlog.1, hlog.2, rfl⟩

theorem Exact.pass {i : Intent} (hplaced : Placed i.nodeType (Asks i)) (hk : Tidy i.nodeType k)
    (hexact : Exact i k) : Pass i k k where
  tidy := hk
  added := fun y hy _ => (hexact _).mpr ⟨y, hy, rfl⟩
  kept := fun _ _ hkey => Or.inl hkey
  only := fun o ho => Or.inl ((hexact _).mp ⟨o, ho, rfl⟩)
  default := by
    intro t hcatchAll u hu
    obtain ⟨y, hy, hkey⟩ := (hexact _).mp hcatchAll.hasKey
    exact absurd hkey.symm ((hplaced.fitting y hy).key_ne_catchAll _)
  catchAlls := fun v hv hnot => absurd ((hexact _).mpr ⟨_, hv, rfl⟩) hnot

theorem exists_pass (hwf : WellFormed ni.intent) (hone : OnePlaceEach ni.intent)
    (haccept : admitIntent r ni = .ok ()) (hk : Tidy ni.intent.nodeType k)
    (hlog : (reconcilePasses documented ords ni r (n + 2) k).logged = []) :
    ∃ k', Pass ni.intent k k' ∧ (reconcilePasses documented ords ni r (n + 1) k').logged = [] ∧
      (reconcilePasses documented ords ni r (n + 2) k).err =
        (reconcilePasses documented ords ni r (n + 1) k').err := by
  by_cases hexact : Exact ni.intent k
  · obtain ⟨herr, -⟩ := reconcilePasses_of_exact ords (n + 1) hwf haccept hk hexact
    obtain ⟨herr', hlog'⟩ := reconcilePasses_of_exact ords n hwf haccept hk hexact
    exact ⟨k, hexact.pass (hwf.placed hone) hk, hlog', herr.trans herr'.symm⟩
  · obtain ⟨k', hpass, hlog', herr⟩ := reconcilePasses_of_not_exact hwf haccept hk hexact hlog
    exact ⟨k', hpass hone, hlog', herr⟩

theorem reconcile_passes (hwf : WellFormed ni.intent) (hone : OnePlaceEach ni.intent)
    (haccept : admitIntent r ni = .ok ()) (hk : Tidy ni.intent.nodeType k)
    (hlog : (reconcile documented ords r ni k).logged = []) :
    ∃ k₁ k₂, Pass ni.intent k k₁ ∧ Pass ni.intent k₁ k₂ ∧
      ((reconcile documented ords r ni k).err = none ↔ Exact ni.intent k₂) := by
  obtain ⟨k₁, hpass₁, hlog₁, herr₁⟩ := exists_pass (n := 1) hwf hone haccept hk hlog
  obtain ⟨k₂, hpass₂, hlog₂, herr₂⟩ := exists_pass (n := 0) hwf hone haccept hpass₁.tidy hlog₁
  refine ⟨k₁, k₂, hpass₁, hpass₂, ?_⟩
  rw [reconcile, maxPasses, herr₁, herr₂]
  constructor
  · intro hnil
    by_contra hexact
    obtain ⟨k₃, -, -, herr₃⟩ := reconcilePasses_of_not_exact hwf haccept hpass₂.tidy hexact hlog₂
    cases herr₃.symm.trans hnil
  · exact fun hexact => (reconcilePasses_of_exact ords 0 hwf haccept hpass₂.tidy hexact).1

end Rounds

section Defaults

variable {i : Intent} {k : Kernel} {t : UInt32} {u : Route}

structure AsksDefault (i : Intent) (t : UInt32) (u : Route) : Prop where
  asked : Asks i (.route u)
  table : u.table = t.toNat
  dst : u.dst = .default6

/-- Where a VRF and a default route into its table are asked for, the VRF is there already, or the
route and the catch-all both are. -/
def DefaultsReady (k : Kernel) (i : Intent) : Prop :=
  ∀ v u, Asks i (.vrf v) → AsksDefault i v.tableID u →
    k.HasKey (Resource.vrf v).key ∨
      k.HasKey (Resource.route u).key ∧ HasCatchAll k v.tableID.toNat

theorem AsksDefault.slot (h : AsksDefault i t u) :
    (Resource.route u).slot = some (t, .default6, Kernel.userMetric .default6) := by
  have hnet : prefixToIPNet Prefix.default6 = some Network.default6 :=
    Network.prefixToIPNet_net .default6
  rw [Resource.slot, h.table, h.dst, hnet, Option.map_some, uint32OfInt_toNat]

theorem AsksDefault.key_eq {u' : Route} (hone : OnePlaceEach i) (h : AsksDefault i t u)
    (h' : AsksDefault i t u') : (Resource.route u).key = (Resource.route u').key := by
  refine hone _ _ h.asked h'.asked (h.slot.trans h'.slot.symm) ?_
  rw [h.slot]
  exact Option.some_ne_none _

theorem RouteObject.of_key {o : Resource} {s : KernelRoute} (ho : RouteObject s o)
    (hkey : o.key = (Resource.route u).key) :
    o = s.object ∧ s.protocol = maetoRouteProto ∧ u.table = s.table.toNat ∧ u.dst = s.dst.net ∧
      u.dev = s.dev := by
  obtain ⟨hkind, hbody⟩ := key_eq_iff.mp hkey
  cases ho with
  | route hproto =>
    obtain ⟨htable, hdst, hdev⟩ := keyBody_route s.dst.valid hbody
    exact ⟨rfl, hproto, htable.symm, hdst.symm, hdev.symm⟩
  | sid => cases hkind
  | srRoute => cases hkind

theorem AsksDefault.defaultRoute (hwf : WellFormed i) (h : AsksDefault i t u)
    (hkey : k.HasKey (Resource.route u).key) :
    ∃ s, k.DefaultRoute t s ∧ s.object.key = (Resource.route u).key := by
  obtain ⟨o, ho, hkey⟩ := hkey
  obtain ⟨s, hs, hobject⟩ := ho.of_route (Or.inl (key_eq_iff.mp hkey).1)
  obtain ⟨rfl, hproto, htable, hdst, hdev⟩ := RouteObject.of_key hobject hkey
  have hfitting : Fitting i.nodeType (.route u) :=
    h.asked.intentResource.fitting (Or.inl hwf.labels)
  refine ⟨s, ⟨hs, hproto, ?_, ?_, ?_⟩, hkey⟩
  · exact UInt32.toNat_inj.mp (Int.ofNat_inj.mp (htable.symm.trans h.table))
  · exact Network.net_injective (hdst.symm.trans h.dst)
  · rw [← hdev]
    exact hfitting.2

theorem Kernel.DefaultRoute.asked {s : KernelRoute} (h : k.DefaultRoute t s)
    (hasked : AskedKey i s.object.key) :
    ∃ u, AsksDefault i t u ∧ (Resource.route u).key = s.object.key := by
  obtain ⟨y, hy, hkey⟩ := hasked
  cases y with
  | route u =>
    obtain ⟨-, -, htable, hdst, -⟩ := RouteObject.of_key (.route h.protocol) hkey.symm
    refine ⟨u, ⟨hy, ?_, ?_⟩, hkey⟩
    · rw [htable, h.table]
    · rw [hdst, h.dst]
      rfl
  | _ => cases (key_eq_iff.mp hkey).1

end Defaults

section Tunnels

variable {k : Kernel} {pe : PEIntent} {u : Route}

theorem Asks.tunnel (h : Asks (.pe pe) (.route u)) :
    ∃ tenantID ifID, u.dev = xfrmName tenantID ifID ∧
      ∀ x : XFRM, x.name = u.dev → x.ifID = ifID → AskedKey (.pe pe) (Resource.xfrm x).key := by
  obtain ⟨ords, desired, key, hrender, hy⟩ := h
  cases (renderIntent_lookup hrender hy).2 with
  | tenant _ tenantID t ht _ hround =>
    cases hround with
    | portal id p hid _ hp =>
      rw [renderPortal, List.mem_pair] at hp
      rcases hp with hp | hp
      · cases hp
      cases hp
      refine ⟨tenantID, p.tunnelInterfaceID, rfl, ?_⟩
      intro x hname hid'
      obtain ⟨classes, -, rfl⟩ := renderPEIntent_eq_ok hrender
      obtain ⟨collisions, hmem⟩ := mem_renderTenants ords pe
      have hxfrm := (hmem tenantID _).mpr ⟨t, ht, xfrm_mem_tenantResources hid⟩
      have hstored : (Resource.xfrm x).key ∈
          storeAll (classes ++ (renderTenants ords pe).map Prod.snd) := by
        refine (mem_collect _ _ _).mpr ⟨_, List.mem_append_right _
          (List.mem_map.mpr ⟨_, hxfrm, rfl⟩), ?_⟩
        simp [Resource.key, Resource.keyBody, Resource.kind, hname, hid']
      obtain ⟨y, hy⟩ := mem_iff.mp hstored
      exact ⟨y, asks_of_lookup hrender hy⟩

theorem asked_of_linkName (hk : Tidy .pe k) (h : Asks (.pe pe) (.route u)) {o : Resource}
    (ho : k.Has o) (hlink : o.linkName = some u.dev) : AskedKey (.pe pe) o.key := by
  obtain ⟨tenantID, ifID, hdev, hasked⟩ := h.tunnel
  cases ho with
  | classification => cases hlink
  | route r _ hr ho => cases ho <;> cases hlink
  | rule r _ hr ho => cases ho; cases hlink
  | link j l _ hl ho =>
    cases ho with
    | vrf t hgroup hkind =>
      have hown := hk.ownLinks j l hl hgroup
      rw [hkind] at hown
      obtain ⟨tenantID', hname, -⟩ := hown.vrf_name
      have hname' : l.name = u.dev := Option.some.inj hlink
      exact absurd (hname.symm.trans (hname'.trans hdev)) (vrfTableName_ne_xfrmName _ _ _)
    | xfrm ifID' hgroup hkind =>
      have hname : l.name = u.dev := Option.some.inj hlink
      have hown := hk.ownLinks j l hl hgroup
      rw [hkind, hname, hdev] at hown
      generalize hlinkName : xfrmName tenantID ifID = name at hown
      cases hown with
      | tunnel tenantID' _ => exact hasked _ hname (xfrmName_injective hlinkName).2.symm

end Tunnels

section Convergence

variable {i : Intent} {k k₁ k₂ : Kernel}

theorem Pass.linkName {k' : Kernel} (h : Pass i k k') {o : Resource} (ho : k'.Has o)
    (hasked : ¬ AskedKey i o.key) : o.linkName = none := by
  obtain ⟨t, hkey, -⟩ := (h.only o ho).resolve_left hasked
  rw [linkName_eq_of_key_eq hkey]
  rfl

theorem Pass.hasVRF {k' : Kernel} (h : Pass i k k') {v : VRF} (hv : Asks i (.vrf v)) :
    k'.HasKey (Resource.vrf v).key := by
  by_cases hkey : k.HasKey (Resource.vrf v).key
  · refine (h.kept _ hv hkey).resolve_right ?_
    rintro ⟨s, -, o, ho, hokey, -⟩
    have hkind := (key_eq_iff.mp hokey).1
    cases ho <;> cases hkind
  · exact h.added _ hv hkey

theorem Pass.not_both (hwf : WellFormed i) (hone : OnePlaceEach i) (h : Pass i k k₁)
    (hready : DefaultsReady k i) {t : UInt32} {s : KernelRoute} (hcatchAll : HasCatchAll k₁ t.toNat)
    (hs : k₁.DefaultRoute t s) : False := by
  have hplaced := hwf.placed hone
  have hasked : AskedKey i s.object.key := by
    refine (h.only _ (.route s _ hs.mem (.route hs.protocol))).resolve_right ?_
    rintro ⟨t', hkey, -⟩
    have heq := RouteObject.eq_catchAll (h.tidy.ownRoutes s hs.mem) (.route hs.protocol) hkey
    exact hs.dev (congrArg KernelRoute.dev heq)
  obtain ⟨u, hu, hukey⟩ := hs.asked hasked
  rcases h.only _ (.route _ _ hcatchAll (.route rfl)) with ⟨y, hy, hkey⟩ | ⟨t', hkey, hcause⟩
  · exact (hplaced.fitting y hy).key_ne_catchAll _ hkey.symm
  have heq := RouteObject.eq_catchAll (h.tidy.ownRoutes _ hcatchAll) (.route rfl) hkey
  have htable : t = t' := by
    have := congrArg KernelRoute.table heq
    simpa only [Linux.vrfCatchAll, uint32OfInt_toNat] using this
  subst htable
  rcases hcause with ⟨v, hv, rfl, hnot⟩ | ⟨-, w, hw, hwasked, hgone⟩
  · -- The VRF is new, so the first pass took the route that was there beside a catch-all.
    obtain ⟨hkey, hcatchAll⟩ := (hready v u hv hu).resolve_left hnot
    obtain ⟨w, hw, hwkey⟩ := hu.defaultRoute hwf hkey
    refine h.default _ hcatchAll w hw ?_
    rw [hwkey, hukey]
    exact hs.hasKey
  · -- The catch-all stayed in place of a default route, which is the one that is there.
    obtain ⟨u', hu', hukey'⟩ := hw.asked hwasked
    rw [← hukey', hu'.key_eq hone hu, hukey] at hgone
    exact hgone hs.hasKey

theorem exact_iff_defaultsReady (hwf : WellFormed i) (hone : OnePlaceEach i)
    (hk : Tidy i.nodeType k) (h₁ : Pass i k k₁) (h₂ : Pass i k₁ k₂) :
    Exact i k₂ ↔ DefaultsReady k i := by
  constructor
  · intro hexact v u hv hu
    by_contra hnot
    obtain ⟨hvrf, hroute⟩ := not_or.mp hnot
    have hkey : k₁.HasKey (Resource.route u).key := by
      by_cases hkey : k.HasKey (Resource.route u).key
      · refine (h₁.kept _ hu.asked hkey).resolve_right ?_
        rintro ⟨s, hs, o, ho, hokey, ⟨-, hcatchAll⟩ | ⟨o', ho', hasked, hlink⟩⟩
        · obtain ⟨-, -, htable, -, -⟩ := RouteObject.of_key ho hokey
          rw [← htable, hu.table] at hcatchAll
          exact hroute ⟨hkey, hcatchAll⟩
        · obtain ⟨-, -, -, -, hdev⟩ := RouteObject.of_key ho hokey
          rw [← hdev] at hlink
          cases i with
          | cpe cpe => cases hv.intentResource
          | pe pe => exact hasked (asked_of_linkName hk hu.asked ho' hlink)
      · exact h₁.added _ hu.asked hkey
    obtain ⟨s, hs, hskey⟩ := hu.defaultRoute hwf hkey
    refine h₂.default _ (h₁.catchAlls v hv hvrf) s hs ?_
    rw [hskey]
    exact (hexact _).mpr ⟨_, hu.asked, rfl⟩
  · intro hready key
    constructor
    · rintro ⟨o, ho, rfl⟩
      refine (h₂.only o ho).resolve_right ?_
      rintro ⟨t, -, ⟨v, hv, -, hnot⟩ | ⟨hcatchAll, s, hs, -, -⟩⟩
      · exact hnot (h₁.hasVRF hv)
      · exact h₁.not_both hwf hone hready hcatchAll hs
    · rintro ⟨y, hy, rfl⟩
      by_cases hkey : k₁.HasKey y.key
      · refine (h₂.kept y hy hkey).resolve_right ?_
        rintro ⟨s, -, o, -, -, ⟨hs, hcatchAll⟩ | ⟨o', ho', hasked, hlink⟩⟩
        · exact h₁.not_both hwf hone hready hcatchAll hs
        · cases (h₁.linkName ho' hasked).symm.trans hlink
      · exact h₂.added y hy hkey

theorem Exact.onePlaceEach (hwf : WellFormed i) (hk : Tidy i.nodeType k) (hexact : Exact i k) :
    OnePlaceEach i := by
  have hread : ∀ y, Asks i y → y.slot ≠ none →
      ∃ s ∈ k.routes, ∃ o, RouteObject s o ∧ o.key = y.key ∧ y.slot = some s.slot := by
    intro y hy hslot
    obtain ⟨o, ho, hkey⟩ := (hexact _).mpr ⟨y, hy, rfl⟩
    have hoslot := slot_congr ho.readable hkey
    have hkind : o.kind = .route ∨ o.kind = .sid ∨ o.kind = .srRoute := by
      rw [← hoslot] at hslot
      cases o with
      | route => exact Or.inl rfl
      | sid => exact Or.inr (Or.inl rfl)
      | srRoute => exact Or.inr (Or.inr rfl)
      | _ => exact absurd rfl hslot
    obtain ⟨s, hs, hobject⟩ := ho.of_route hkind
    have hfitting : Fitting i.nodeType y := hy.intentResource.fitting (Or.inl hwf.labels)
    refine ⟨s, hs, o, hobject, hkey, ?_⟩
    rw [← hoslot]
    exact hobject.slot (hk.ownRoutes s hs) (hfitting.ne_catchAll hobject hkey)
  intro y y' hy hy' hslot hne
  obtain ⟨s, hs, o, ho, hkey, hplace⟩ := hread y hy hne
  obtain ⟨s', hs', o', ho', hkey', hplace'⟩ := hread y' hy' (hslot ▸ hne)
  rw [hplace, hplace'] at hslot
  cases hk.route_eq_of_slot hs hs' (Option.some.inj hslot)
  cases ho.eq ho'
  exact hkey.symm.trans hkey'

theorem exact_of_nil {ords : ℕ → PassOrders} {r : Reconciler} {ni : NodeIntent}
    (hwf : WellFormed ni.intent) (hnil : (reconcile documented ords r ni k).err = none) :
    Exact ni.intent (reconcile documented ords r ni k).state := by
  obtain ⟨-, ⟨n, -, current, desired, hplan, hdiff⟩, -⟩ := reconcilePasses_converged le_rfl hnil
  obtain ⟨-, hrender, fib, hread, rfl⟩ := plan_eq_ok hplan
  exact (diff_nil_iff hwf hread hrender).mp hdiff

/-- On a kernel that earlier reconciles left, a reconcile of a well-formed intent in which every
call succeeds returns without an error exactly when no two resources that are asked for have one
place in a routing table and the defaults are ready. -/
theorem reconcile_nil_iff (ords : ℕ → PassOrders) (r : Reconciler) (ni : NodeIntent) (k : Kernel)
    (hleft : Left ni.intent.nodeType k) (haccept : admitIntent r ni = .ok ())
    (hwf : WellFormed ni.intent) (hcalls : (reconcile documented ords r ni k).logged = []) :
    (reconcile documented ords r ni k).err = none ↔
      OnePlaceEach ni.intent ∧ DefaultsReady k ni.intent := by
  have hk := hleft.tidy
  constructor
  · intro hnil
    have hone := (exact_of_nil hwf hnil).onePlaceEach hwf
      (hk.reconcilePasses r rfl hwf.labels maxPasses)
    obtain ⟨k₁, k₂, hpass₁, hpass₂, hiff⟩ := reconcile_passes hwf hone haccept hk hcalls
    exact ⟨hone, (exact_iff_defaultsReady hwf hone hk hpass₁ hpass₂).mp (hiff.mp hnil)⟩
  · rintro ⟨hone, hready⟩
    obtain ⟨k₁, k₂, hpass₁, hpass₂, hiff⟩ := reconcile_passes hwf hone haccept hk hcalls
    exact hiff.mpr ((exact_iff_defaultsReady hwf hone hk hpass₁ hpass₂).mpr hready)

theorem untouched_started : Untouched .started where
  classes := rfl
  names := by
    intro i j l l' hl hl' hname
    simp only [Kernel.started, lookup_insert_eq, lookup_empty] at hl hl'
    split_ifs at hl hl' <;> cases hl <;> cases hl' <;>
      first | (subst_vars; rfl) | exact absurd hname (by decide)
  links := by
    intro i l hl
    simp only [Kernel.started, lookup_insert_eq, lookup_empty] at hl
    split_ifs at hl <;> cases hl <;> decide
  vrfs := by
    intro i l t tenantID hl hkind
    simp only [Kernel.started, lookup_insert_eq, lookup_empty] at hl
    split_ifs at hl <;> cases hl <;> cases hkind
  slots := List.Pairwise.nil
  routes := List.forall_mem_nil _
  rules := List.forall_mem_nil _

def defaultPortal : NodeIntent := ⟨"pe1", .pe, .pe (oneTunnel 7), 0, 1, 2⟩

theorem wellFormed_defaultPortal : WellFormed defaultPortal.intent where
  tables := by
    have hone : ∀ t ∈ (oneTunnel 7).tenants, t = "1" := by
      intro t ht
      rcases (mem_insert _).mp ht with rfl | ht
      · rfl
      · exact absurd ht (notMem_empty _)
    intro t ht t' ht' _
    rw [hone t ht, hone t' ht']
  sites := by
    refine forall_lookup_singleton ?_
    refine forall_lookup_singleton ?_
    exact ⟨.default6, rfl⟩
  prefixes := by
    refine forall_lookup_singleton ?_
    exact List.forall_mem_nil _
  labels := by
    refine forall_lookup_singleton ?_
    exact List.forall_mem_nil _
  codepoints := List.forall_mem_nil _

def vrfFirst : Outcome Kernel :=
  reconcile documented (fun _ => .listed) ⟨.pe, none⟩ ⟨"pe1", .pe, .pe oneTenant, 0, 1, 1⟩ .started

theorem left_vrfFirst : Left .pe vrfFirst.state := by
  refine .reconcile (.untouched untouched_started) _ _ _ rfl ?_
  refine forall_lookup_singleton ?_
  exact List.forall_mem_nil _

/-- The portal is then reconciled without an error. -/
theorem reconcile_nil_vrfFirst :
    (reconcile documented (fun _ => .listed) vrfFirst.reconciler defaultPortal
        vrfFirst.state).err = none ∧
      OnePlaceEach defaultPortal.intent ∧ DefaultsReady vrfFirst.state defaultPortal.intent := by
  have hnil : (reconcile documented (fun _ => .listed) vrfFirst.reconciler defaultPortal
      vrfFirst.state).err = none := by decide +kernel
  refine ⟨hnil, (reconcile_nil_iff (fun _ => .listed) vrfFirst.reconciler defaultPortal
    vrfFirst.state left_vrfFirst ?_ wellFormed_defaultPortal ?_).mp hnil⟩
  · decide +kernel
  · decide +kernel

/-- On a kernel without the VRF no call fails, and the third pass still finds a difference. -/
theorem default_route_not_converged :
    Left .pe .started ∧ WellFormed defaultPortal.intent ∧
      admitIntent ⟨.pe, none⟩ defaultPortal = .ok () ∧
      (reconcile documented (fun _ => .listed) ⟨.pe, none⟩ defaultPortal .started).logged = [] ∧
      (reconcile documented (fun _ => .listed) ⟨.pe, none⟩ defaultPortal .started).err =
        some "dataplane could not converged after 3 passes" :=
  ⟨.untouched untouched_started, wellFormed_defaultPortal, by decide +kernel, by decide +kernel,
    by decide +kernel⟩

end Convergence

end Maeto.Dataplane
