import Maeto.Dataplane.Asked

/-!
# One pass in which no call fails

The keys that a pass removes are those that are there and not asked for, and those it adds are the
ones that are asked for and not there. With what the removals and the additions leave, this says
what a pass makes of the kernel (`Pass`). What is there afterwards and not asked for is a
catch-all: that of a VRF the pass added, or one that a default route went for. What is asked for
and missing was there before, and is a route that went with a link or for a catch-all.
-/

namespace Maeto.Dataplane

open Foundation Netip Nodesync GoMap Result Resource

section Reads

variable {nodeType : NodeType} {k : Kernel}

theorem Tidy.read (h : Tidy nodeType k) : ∃ fib, readFIB documented k = .ok fib := by
  obtain ⟨vrfs, hvrfs⟩ : ∃ vrfs, Linux.getLinksByType "vrf" k = .ok vrfs := ⟨_, rfl⟩
  obtain ⟨xfrms, hxfrms⟩ : ∃ xfrms, Linux.getLinksByType "xfrm" k = .ok xfrms := ⟨_, rfl⟩
  obtain ⟨vrfLinks, hvrfLinks⟩ : ∃ vrfLinks, vrfs.mapM asVRF = .ok vrfLinks := by
    refine exists_mapM_eq_ok fun d hd => ?_
    obtain ⟨i, l, -, -, ⟨t, -, -, rfl⟩ | ⟨_, _, hxfrm, _⟩⟩ := (mem_getLinksByType hvrfs d).mp hd
    · exact ⟨_, rfl⟩
    · exact absurd hxfrm (by decide)
  obtain ⟨xfrmLinks, hxfrmLinks⟩ : ∃ xfrmLinks, xfrms.mapM asXFRM = .ok xfrmLinks := by
    refine exists_mapM_eq_ok fun d hd => ?_
    obtain ⟨i, l, -, -, ⟨_, _, hvrf, _⟩ | ⟨ifID, -, -, rfl⟩⟩ := (mem_getLinksByType hxfrms d).mp hd
    · exact absurd hvrf (by decide)
    · exact ⟨_, rfl⟩
  obtain ⟨sids, hsids⟩ : ∃ sids, Linux.getSIDs k = .ok sids := by
    refine exists_mapM_eq_ok fun r hr => ?_
    obtain ⟨hr, hproto⟩ := List.mem_filter.mp hr
    obtain ⟨-, -, -, t, haction⟩ := (h.ownRoutes r hr).sid (of_decide_eq_true hproto)
    exact ⟨_, by rw [Linux.listSID, haction]⟩
  obtain ⟨classifications, hclassifications⟩ :
      ∃ classifications, Linux.getClassifications k = .ok classifications := by
    obtain ⟨classes, hclasses⟩ := Option.isSome_iff_exists.mp h.classes
    exact ⟨_, by rw [Linux.getClassifications, hclasses]⟩
  obtain ⟨routes, hroutes⟩ : ∃ routes, Linux.getPrefixRoutes k = .ok routes := ⟨_, rfl⟩
  obtain ⟨rules, hrules⟩ : ∃ rules, Linux.getRules k = .ok rules := ⟨_, rfl⟩
  obtain ⟨srRoutes, hsrRoutes⟩ : ∃ srRoutes, Linux.getSRRoutes k = .ok srRoutes := ⟨_, rfl⟩
  refine ⟨⟨vrfLinks, xfrmLinks, routes, sids, rules, srRoutes, classifications⟩, ?_⟩
  refine bind_eq_ok.mpr ⟨vrfs, mapError_eq_ok.mpr hvrfs, ?_⟩
  refine bind_eq_ok.mpr ⟨vrfLinks, hvrfLinks, ?_⟩
  refine bind_eq_ok.mpr ⟨xfrms, mapError_eq_ok.mpr hxfrms, ?_⟩
  refine bind_eq_ok.mpr ⟨xfrmLinks, hxfrmLinks, ?_⟩
  refine bind_eq_ok.mpr ⟨routes, mapError_eq_ok.mpr hroutes, ?_⟩
  refine bind_eq_ok.mpr ⟨rules, mapError_eq_ok.mpr hrules, ?_⟩
  refine bind_eq_ok.mpr ⟨sids, mapError_eq_ok.mpr hsids, ?_⟩
  refine bind_eq_ok.mpr ⟨srRoutes, mapError_eq_ok.mpr hsrRoutes, ?_⟩
  exact bind_eq_ok.mpr ⟨classifications, mapError_eq_ok.mpr hclassifications, rfl⟩

end Reads

section Diffs

variable {i : Intent} {k : Kernel} {fib : FIB} {ord : PassOrders} {desired : ResourceMap}

def AskedKey (i : Intent) (key : String) : Prop := ∃ y, Asks i y ∧ y.key = key

/-- The keys of the kernel are those that are asked for. -/
def Exact (i : Intent) (k : Kernel) : Prop := ∀ key, k.HasKey key ↔ AskedKey i key

theorem mem_desired_iff (hwf : WellFormed i) (hrender : renderIntent ord.render i = .ok desired)
    (key : String) : key ∈ desired ↔ AskedKey i key := by
  constructor
  · intro hkey
    obtain ⟨y, hy⟩ := mem_iff.mp hkey
    exact ⟨y, asks_of_lookup hrender hy⟩
  · rintro ⟨y, hy, rfl⟩
    exact hy.mem hwf.tables hrender

theorem removed_key_iff (hwf : WellFormed i) (hread : readFIB documented k = .ok fib)
    (hrender : renderIntent ord.render i = .ok desired) (key : String) :
    (∃ x ∈ byKinds removalOrder (diff ord (renderFIB fib) desired).remove, x.key = key) ↔
      k.HasKey key ∧ ¬ AskedKey i key := by
  simp only [mem_byKinds_removalOrder, mem_diff_remove, mem_desired_iff hwf hrender]
  constructor
  · rintro ⟨x, ⟨key', hx, hnot⟩, rfl⟩
    obtain ⟨o, ho, rfl, rfl⟩ := of_lookup_renderFIB hread hx
    rw [observed_key]
    exact ⟨⟨o, ho, rfl⟩, hnot⟩
  · rintro ⟨hkey, hnot⟩
    obtain ⟨x, hx⟩ := mem_iff.mp ((mem_renderFIB hread key).mpr hkey)
    obtain ⟨o, -, rfl, hokey⟩ := of_lookup_renderFIB hread hx
    exact ⟨_, ⟨key, hx, hnot⟩, o.observed_key.trans hokey⟩

theorem mem_added_iff (hread : readFIB documented k = .ok fib)
    (hrender : renderIntent ord.render i = .ok desired) (y : Resource) :
    y ∈ byKinds additionOrder (diff ord (renderFIB fib) desired).add ↔
      desired.lookup y.key = some y ∧ ¬ k.HasKey y.key := by
  rw [mem_byKinds_additionOrder, mem_diff_add]
  constructor
  · rintro ⟨key, hy, hnot⟩
    rw [(asks_of_lookup hrender hy).2]
    exact ⟨hy, fun hkey => hnot ((mem_renderFIB hread key).mpr hkey)⟩
  · rintro ⟨hy, hnot⟩
    exact ⟨y.key, hy, fun hkey => hnot ((mem_renderFIB hread _).mp hkey)⟩

theorem diff_nil_iff (hwf : WellFormed i) (hread : readFIB documented k = .ok fib)
    (hrender : renderIntent ord.render i = .ok desired) :
    ((diff ord (renderFIB fib) desired).add = [] ∧
      (diff ord (renderFIB fib) desired).remove = []) ↔ Exact i k := by
  constructor
  · rintro ⟨hadd, hremove⟩ key
    rw [← mem_desired_iff hwf hrender, ← keys_eq_of_diff_nil hadd hremove]
    exact (mem_renderFIB hread key).symm
  · intro hexact
    refine ⟨List.eq_nil_iff_forall_not_mem.mpr fun y hy => ?_,
      List.eq_nil_iff_forall_not_mem.mpr fun x hx => ?_⟩
    · obtain ⟨hlookup, hnot⟩ :=
        (mem_added_iff hread hrender y).mp (mem_byKinds_additionOrder.mpr hy)
      exact hnot ((hexact _).mpr ⟨y, (asks_of_lookup hrender hlookup).1, rfl⟩)
    · obtain ⟨hkey, hnot⟩ := (removed_key_iff hwf hread hrender x.key).mp
        ⟨x, mem_byKinds_removalOrder.mpr hx, rfl⟩
      exact hnot ((hexact _).mp hkey)

end Diffs

section Passes

variable {i : Intent} {k k' : Kernel}

structure Pass (i : Intent) (k k' : Kernel) : Prop where
  tidy : Tidy i.nodeType k'
  added : ∀ y, Asks i y → ¬ k.HasKey y.key → k'.HasKey y.key
  kept : ∀ y, Asks i y → k.HasKey y.key → k'.HasKey y.key ∨
    ∃ r ∈ k.routes, ∃ o, RouteObject r o ∧ o.key = y.key ∧
      (k.DefaultRoute r.table r ∧ HasCatchAll k r.table.toNat ∨
        ∃ o', k.Has o' ∧ ¬ AskedKey i o'.key ∧ o'.linkName = some r.dev)
  only : ∀ o, k'.Has o → AskedKey i o.key ∨
    ∃ t : UInt32, o.key = (Linux.vrfCatchAll t.toNat).object.key ∧
      ((∃ v, Asks i (.vrf v) ∧ v.tableID = t ∧ ¬ k.HasKey (Resource.vrf v).key) ∨
        HasCatchAll k t.toNat ∧ ∃ u, k.DefaultRoute t u ∧ AskedKey i u.object.key ∧
          ¬ k'.HasKey u.object.key)
  default : ∀ t : UInt32, HasCatchAll k t.toNat → ∀ u, k.DefaultRoute t u →
    ¬ k'.HasKey u.object.key
  catchAlls : ∀ v, Asks i (.vrf v) → ¬ k.HasKey (Resource.vrf v).key →
    HasCatchAll k' v.tableID.toNat

theorem HasCatchAll.hasKey {t : ℤ} (h : HasCatchAll k t) :
    k.HasKey (Linux.vrfCatchAll t).object.key :=
  ⟨_, .route _ _ h (.route rfl), rfl⟩

theorem Tidy.hasCatchAll {nodeType : NodeType} (h : Tidy nodeType k) {t : ℤ}
    (hkey : k.HasKey (Linux.vrfCatchAll t).object.key) : HasCatchAll k t := by
  obtain ⟨o, ho, hkey⟩ := hkey
  obtain ⟨r, hr, hobject⟩ := ho.of_route (Or.inl (key_eq_iff.mp hkey).1)
  rw [HasCatchAll, ← hobject.eq_catchAll (h.ownRoutes r hr) hkey]
  exact hr

theorem Kernel.DefaultRoute.hasKey {t : UInt32} {u : KernelRoute} (h : k.DefaultRoute t u) :
    k.HasKey u.object.key :=
  ⟨_, .route u _ h.mem (.route h.protocol), rfl⟩

theorem tableID_eq_of_key {nodeType : NodeType} {v v' : VRF} (h : Fitting nodeType (.vrf v))
    (h' : Fitting nodeType (.vrf v')) (hkey : (Resource.vrf v).key = (Resource.vrf v').key) :
    v.tableID = v'.tableID := by
  obtain ⟨tenantID, hname, htable⟩ := OwnLink.vrf_name h
  obtain ⟨tenantID', hname', htable'⟩ := OwnLink.vrf_name h'
  have hsame := keyBody_vrf (key_eq_iff.mp hkey).2
  rw [hname, hname'] at hsame
  have hid : tenantID = tenantID' := String.append_right_inj _ |>.mp hsame
  rw [htable, htable', hid]

/-- The removals and the additions of a pass, by the keys they are made for. -/
structure Phased (i : Intent) (k k₁ k' : Kernel) (gone : String → Prop) (rs : List Resource) :
    Prop where
  gone_iff : ∀ key, gone key ↔ k.HasKey key ∧ ¬ AskedKey i key
  asked : ∀ y ∈ rs, Asks i y ∧ ¬ k.HasKey y.key
  all : ∀ y, Asks i y → ¬ k.HasKey y.key → ∃ y' ∈ rs, y'.key = y.key
  cleared : Cleared k gone k₁
  added : Added i.nodeType (Asks i) k₁ rs k'

variable {k₁ : Kernel} {gone : String → Prop} {rs : List Resource}

/-- A default route that the removals took is not put back. -/
theorem Phased.not_hasKey (h : Phased i k k₁ k' gone rs) (hk : Tidy i.nodeType k) {t : UInt32}
    {u : KernelRoute} (hu : k.DefaultRoute t u) (hmem : u ∉ k₁.routes) :
    ¬ k'.HasKey u.object.key := by
  rintro ⟨o, ho, hkey⟩
  rcases h.added.only o ho with ⟨o₁, ho₁, hkey₁⟩ | ⟨y, hy, hkey₁⟩ | ⟨v, -, hkey₁⟩
  · have hkey := hkey₁.trans hkey
    obtain ⟨r, hr, hobject⟩ := ho₁.of_route (Or.inl (key_eq_iff.mp hkey).1)
    rw [hk.route_eq_of_key (h.cleared.fewer.routes.subset hr) hu.mem hobject (.route hu.protocol)
      hkey] at hr
    exact hmem hr
  · refine (h.asked y hy).2 ?_
    rw [← hkey₁, hkey]
    exact hu.hasKey
  · have heq := RouteObject.eq_catchAll (hk.ownRoutes u hu.mem) (.route hu.protocol)
      (hkey.symm.trans hkey₁)
    exact hu.dev (by rw [heq]; rfl)

theorem Phased.kept (h : Phased i k k₁ k' gone rs) (hk : Tidy i.nodeType k) {y : Resource}
    (hy : Asks i y) (hfit : Fitting i.nodeType y) (hkey : k.HasKey y.key) :
    k'.HasKey y.key ∨ ∃ r ∈ k.routes, ∃ o, RouteObject r o ∧ o.key = y.key ∧
      (k.DefaultRoute r.table r ∧ HasCatchAll k r.table.toNat ∨
        ∃ o', k.Has o' ∧ ¬ AskedKey i o'.key ∧ o'.linkName = some r.dev) := by
  have hstays : ¬ gone y.key := fun hgone => ((h.gone_iff _).mp hgone).2 ⟨y, hy, rfl⟩
  rcases h.cleared.kept y.key hkey hstays with hkept | ⟨r, hr, o, ho, hokey, hcause⟩
  · exact Or.inl (h.added.kept y hy hkept)
  · refine Or.inr ⟨r, hr, o, ho, hokey, ?_⟩
    rcases hcause with hcatchAll | ⟨hdefault, hcatchAll⟩ | ⟨o', ho', hgone, hlink⟩
    · exact absurd hcatchAll (hfit.ne_catchAll ho hokey)
    · exact Or.inl ⟨hdefault, hk.hasCatchAll ((h.gone_iff _).mp hcatchAll).1⟩
    · exact Or.inr ⟨o', ho', ((h.gone_iff _).mp hgone).2, hlink⟩

/-- What the removals left though it is not asked for is a catch-all. -/
theorem Phased.eq_catchAll (h : Phased i k k₁ k' gone rs) (hk : Tidy i.nodeType k) {o : Resource}
    (ho : k₁.Has o) (hnot : ¬ AskedKey i o.key) :
    ∃ t : UInt32, o.key = (Linux.vrfCatchAll t.toNat).object.key ∧ HasCatchAll k t.toNat ∧
      ∃ u, k.DefaultRoute t u ∧ AskedKey i u.object.key ∧ ¬ k'.HasKey u.object.key := by
  have hgone : gone o.key := (h.gone_iff _).mpr ⟨h.cleared.fewer.hasKey ⟨o, ho, rfl⟩, hnot⟩
  have hkind := h.cleared.others o ho hgone
  obtain ⟨r, hr, hobject⟩ := ho.of_route (Or.inl hkind)
  cases hobject with
  | sid => cases hkind
  | srRoute => cases hkind
  | route hproto =>
    obtain ⟨hcatchAll, u, hu, hstays, hmem⟩ := h.cleared.routes r hr hproto hgone
    refine ⟨r.table, congrArg (fun r : KernelRoute => r.object.key) hcatchAll, ?_, u, hu, ?_,
      h.not_hasKey hk hu hmem⟩
    · rw [HasCatchAll, ← hcatchAll]
      exact h.cleared.fewer.routes.subset hr
    · by_contra hnot
      exact hstays ((h.gone_iff _).mpr ⟨hu.hasKey, hnot⟩)

theorem Phased.hasCatchAll (h : Phased i k k₁ k' gone rs) (hplaced : Placed i.nodeType (Asks i))
    {v : VRF} (hv : Asks i (.vrf v)) (hnot : ¬ k.HasKey (Resource.vrf v).key) :
    HasCatchAll k' v.tableID.toNat := by
  obtain ⟨y, hy, hkey⟩ := h.all _ hv hnot
  have hkind := (key_eq_iff.mp hkey).1
  cases y with
  | vrf v' =>
    rw [← tableID_eq_of_key (hplaced.fitting _ (h.asked _ hy).1) (hplaced.fitting _ hv) hkey]
    exact h.added.catchAlls v' hy
  | _ => cases hkind

theorem Phased.pass (h : Phased i k k₁ k' gone rs) (hplaced : Placed i.nodeType (Asks i))
    (hk : Tidy i.nodeType k) : Pass i k k' where
  tidy := h.added.tidy
  added := by
    intro y hy hnot
    obtain ⟨y', hy', hkey⟩ := h.all y hy hnot
    rw [← hkey]
    exact h.added.stored y' hy'
  kept := fun y hy => h.kept hk hy (hplaced.fitting y hy)
  only := by
    intro o ho
    rcases h.added.only o ho with ⟨o₁, ho₁, hkey⟩ | ⟨y, hy, hkey⟩ | ⟨v, hv, hkey⟩
    · rw [← hkey]
      refine or_iff_not_imp_left.mpr fun hnot => ?_
      obtain ⟨t, hkey, hcause⟩ := h.eq_catchAll hk ho₁ hnot
      exact ⟨t, hkey, Or.inr hcause⟩
    · exact Or.inl ⟨y, (h.asked y hy).1, hkey.symm⟩
    · exact Or.inr ⟨v.tableID, hkey, Or.inl ⟨v, (h.asked _ hv).1, rfl, (h.asked _ hv).2⟩⟩
  default := by
    intro t hcatchAll u hu
    refine h.not_hasKey hk hu fun hmem => ?_
    refine h.cleared.default t ((h.gone_iff _).mpr ⟨hcatchAll.hasKey, ?_⟩) u { hu with mem := hmem }
    rintro ⟨y, hy, hkey⟩
    exact (hplaced.fitting y hy).key_ne_catchAll _ hkey.symm
  catchAlls := fun _ => h.hasCatchAll hplaced

theorem pass_apply {fib : FIB} {ord : PassOrders} {desired : ResourceMap} (hwf : WellFormed i)
    (hone : OnePlaceEach i) (hk : Tidy i.nodeType k) (hread : readFIB documented k = .ok fib)
    (hrender : renderIntent ord.render i = .ok desired)
    (hlog : (apply documented (diff ord (renderFIB fib) desired) k).logged = []) :
    Pass i k (apply documented (diff ord (renderFIB fib) desired) k).state := by
  have hplaced := hwf.placed hone
  unfold apply at hlog ⊢
  simp only [hk.base, applyCalls, List.foldl_append] at hlog ⊢
  have hlog₁ := nil_of_foldl_perform hlog
  have hcleared := cleared_removals hk _ (fun x hx => ?_) hlog₁
  · have hrs := mem_added_iff (k := k) hread hrender
    have hadded := added_additions hplaced (hk.of_fewer hcleared.fewer) _ _ (fun y hy => ?_)
      (diff_add_keys_nodup fun key r hr => (asks_of_lookup hrender hr).2) (fun y hy => ?_) hlog
    · refine Phased.pass ⟨removed_key_iff hwf hread hrender, fun y hy => ?_, fun y hy hnot => ?_,
        hcleared, hadded⟩ hplaced hk
      · obtain ⟨hlookup, hnot⟩ := (hrs y).mp hy
        exact ⟨(asks_of_lookup hrender hlookup).1, hnot⟩
      · obtain ⟨y', hy'⟩ := mem_iff.mp (hy.mem hwf.tables hrender)
        have hkey := (asks_of_lookup hrender hy').2
        refine ⟨y', (hrs y').mpr ⟨?_, ?_⟩, hkey⟩
        · rw [hkey]
          exact hy'
        · rw [hkey]
          exact hnot
    · exact (asks_of_lookup hrender ((hrs y).mp hy).1).1
    · exact fun hkey => ((hrs y).mp hy).2 (hcleared.fewer.hasKey hkey)
  · obtain ⟨key, hx, -⟩ := mem_diff_remove.mp (mem_byKinds_removalOrder.mp hx)
    obtain ⟨o, ho, rfl, -⟩ := of_lookup_renderFIB hread hx
    exact ⟨o, ho, rfl⟩

end Passes

end Maeto.Dataplane
