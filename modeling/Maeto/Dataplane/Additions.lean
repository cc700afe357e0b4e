import Maeto.Dataplane.CatchAll
import Maeto.Dataplane.Cleared

/-!
# What the additions of a pass leave

A call that adds a resource leaves an object with its key and disturbs nothing, except that a route
is stored in place of the one that had its place (`AddStep.keeps`). Where no two resources that are
asked for have one place, those that are there stay there and those that are added are there in
the end, and beside them only the catch-alls of the VRFs that are added can be new (`Added`).
-/

namespace Maeto.Dataplane

open Foundation Netip Nodesync AList Resource

section Calls

variable {nodeType : NodeType} {k k' : Kernel} {y o : Resource}

structure Adds (y : Resource) (k k' : Kernel) : Prop where
  stored : k'.HasKey y.key
  keeps : Keeps y.Takes k k'
  only : ∀ o, k'.Has o → k.HasKey o.key ∨ o.key = y.key ∨
    ∃ v, y = .vrf v ∧ o.key = (Linux.vrfCatchAll v.tableID.toNat).object.key
  catchAll : ∀ v, y = .vrf v → HasCatchAll k' v.tableID.toNat

theorem addClass_state {key : UInt8} {mark : UInt32}
    (hok : (changeClass (.add [key] mark) k).1 = none) :
    ((k.classes.getD ∅).lookup key = some mark ∧ (changeClass (.add [key] mark) k).2 = k) ∨
      ∃ classes, k.classes = some classes ∧ classes.lookup key = none ∧
        (changeClass (.add [key] mark) k).2 =
          { k with classes := some (classes.insert key mark) } := by
  unfold changeClass at hok ⊢
  cases hclasses : k.classes with
  | none =>
    rw [hclasses] at hok
    cases hok
  | some classes =>
    simp only [hclasses, Kernel.changeElement] at hok ⊢
    cases hlookup : classes.lookup key with
    | none =>
      exact Or.inr ⟨classes, rfl, hlookup, rfl⟩
    | some mark' =>
      simp only [hlookup] at hok ⊢
      split_ifs at hok ⊢ with hmark
      rw [← hmark, Option.getD_some, hlookup]
      refine Or.inl ⟨rfl, ?_⟩
      change { k with classes := some classes } = k
      rw [← hclasses]

theorem OwnLink.vrf_name {name : String} {t : UInt32} (h : OwnLink nodeType name (.vrf t)) :
    ∃ tenantID, name = vrfTableName tenantID ∧ t = stringToID tenantID := by
  cases h with
  | vrf tenantID => exact ⟨tenantID, rfl, rfl⟩

theorem upsertVRF_stored (hk : Tidy nodeType k) {v : VRF} (hy : Fitting nodeType (.vrf v))
    (hok : ((addCall linuxNetlink (.vrf v)).2 k).1 = none) :
    ((addCall linuxNetlink (.vrf v)).2 k).2.HasKey (Resource.vrf v).key ∧
      HasCatchAll ((addCall linuxNetlink (.vrf v)).2 k).2 v.tableID.toNat := by
  change (Linux.upsertVRF v.name v.tableID.toNat k).2.HasKey _ ∧
    HasCatchAll (Linux.upsertVRF v.name v.tableID.toNat k).2 _
  rcases upsertVRF_state k v.name v.tableID.toNat with
    ⟨herr, -⟩ | ⟨⟨i, l, hl, hname, hkind⟩, hk'⟩ | ⟨-, hk'⟩
  · exact absurd hok herr
  · rw [hk']
    refine ⟨?_, List.mem_append_right _ List.mem_cons_self⟩
    obtain ⟨tenantID, hv, -⟩ := OwnLink.vrf_name hy
    have hgroup := hk.ownVRFs i l _ tenantID hl hkind (hname.trans hv)
    refine ⟨_, .link i l _ hl (.vrf _ hgroup hkind), ?_⟩
    simp [Resource.key, Resource.keyBody, Resource.kind, hname]
  · rw [hk']
    refine ⟨⟨_, .link k.nextIndex _ _ (lookup_insert _) (.vrf _ rfl rfl), rfl⟩, ?_⟩
    exact List.mem_append_right _ List.mem_cons_self

theorem insertXFRM_stored {x : XFRM} (hok : ((addCall linuxNetlink (.xfrm x)).2 k).1 = none) :
    ((addCall linuxNetlink (.xfrm x)).2 k).2.HasKey (Resource.xfrm x).key := by
  change (Linux.insertXFRMInterface _ _ _ _ k).2.HasKey _
  rcases insertXFRMInterface_state k x.name (if x.parent = "" then "lo" else x.parent) x.ifID
    (if x.masterVRF = "" then none else some x.masterVRF) with
    ⟨herr, -⟩ | ⟨-, ⟨-, hk'⟩ | ⟨vrf, -, hset⟩⟩
  · exact absurd hok herr
  · rw [hk']
    exact ⟨_, .link k.nextIndex _ _ (lookup_insert _) (.xfrm x.ifID rfl rfl), rfl⟩
  · have hlink := lookup_linkSetMaster hset k.nextIndex
    rw [lookup_insertLink, if_pos rfl, Option.map_some, if_pos rfl] at hlink
    exact ⟨_, .link k.nextIndex _ _ hlink (.xfrm x.ifID rfl rfl), rfl⟩

theorem Tidy.protocol_of_priority (h : Tidy nodeType k) {r r' : KernelRule} (hr : r ∈ k.rules)
    (hown : OwnRule r' nodeType) (hpriority : r.priority = r'.priority) :
    r.protocol = maetoRouteProto := by
  by_contra hproto
  obtain ⟨hpe, hcpe⟩ := h.otherRules r hr hproto
  cases nodeType with
  | pe => exact hpe (hpriority.trans hown.1)
  | cpe => exact hcpe (hpriority.trans hown.1)

theorem upsertRule_stored {r : Rule} (hk : Tidy nodeType k) (hy : Fitting nodeType (.rule r))
    (hsized : (Resource.rule r).Sized) :
    ((addCall linuxNetlink (.rule r)).2 k).2.HasKey (Resource.rule r).key := by
  obtain ⟨rule, hrule, hobject⟩ := maetoRule_of_sized hsized
  have hproto := kernelRule_protocol hrule
  have hkey : rule.object.key = (Resource.rule r).key := (hobject _ (.rule hproto)).1
  have hrules : ((addCall linuxNetlink (.rule r)).2 k).2.rules = addRule k.rules rule := by
    rw [(addCall_step k _).rules_eq, hrule, Option.elim_some]
  by_cases hany : k.rules.any fun r' => r'.priority = rule.priority ∧ r'.src = rule.src ∧
      r'.table = rule.table ∧ r'.mark = rule.mark ∧ r'.iif = rule.iif
  · -- The rule that is in the way is ours.
    obtain ⟨r', hr', hsame⟩ := List.any_eq_true.mp hany
    obtain ⟨hpriority, hsrc, htable, hmark, -⟩ := of_decide_eq_true hsame
    have hident : r'.ident = rule.ident := by
      rw [KernelRule.ident, KernelRule.ident, hpriority, hsrc, htable, hmark]
    rw [addRule, if_pos hany] at hrules
    refine ⟨r'.object, .rule r' _ (by rw [hrules]; exact hr') (.rule ?_), ?_⟩
    · exact hk.protocol_of_priority hr' (hy.ownRule hrule) hpriority
    · exact (KernelRule.key_object_congr hident).trans hkey
  · rw [addRule, if_neg hany] at hrules
    refine ⟨rule.object, .rule rule _ ?_ (.rule hproto), hkey⟩
    rw [hrules]
    exact List.mem_append_right _ List.mem_cons_self

theorem Resource.StoredAs.exists_object {r : KernelRoute} (h : y.StoredAs r) :
    ∃ o, RouteObject r o := by
  cases h with
  | catchAll | route => exact ⟨_, .route rfl⟩
  | srRoute => exact ⟨_, .srRoute _ rfl rfl⟩
  | sid => exact ⟨_, .sid _ _ rfl rfl⟩

theorem route_stored (hsized : y.Sized) (hplain : y.Plain)
    (hkind : y.kind = .route ∨ y.kind = .sid ∨ y.kind = .srRoute)
    (hok : ((addCall linuxNetlink y).2 k).1 = none) :
    ((addCall linuxNetlink y).2 k).2.HasKey y.key := by
  rcases addCall_stored k hkind with ⟨herr, -⟩ | ⟨r, hr, hk'⟩
  · exact absurd hok herr
  · rw [hk']
    obtain ⟨o, ho⟩ := hr.exists_object
    have hmem : r ∈ (k.routeReplace r).routes := List.mem_append_right _ List.mem_cons_self
    refine ⟨o, .route r o hmem ho, ?_⟩
    rcases hr.carries hsized hplain ho with hcarries | ⟨v, rfl, -⟩
    · exact hcarries.1
    · simp [Resource.kind] at hkind

theorem adds_classification {c : Classification} (hsized : (Resource.classification c).Sized)
    (hok : ((addCall documented (.classification c)).2 k).1 = none) :
    Adds (.classification c) k ((addCall documented (.classification c)).2 k).2 := by
  have hobject : Resource.classification ⟨c.classifier.toUInt8.toUInt32, c.mark⟩ =
      .classification c := by rw [show c.classifier.toUInt8.toUInt32 = c.classifier from hsized]
  change Adds _ k (changeClass (.add [c.classifier.toUInt8] c.mark) k).2
  rcases addClass_state hok with ⟨hmark, hk'⟩ | ⟨classes, hclasses, hfree, hk'⟩
  · rw [hk']
    refine ⟨⟨_, .classification _ _ hmark, by rw [hobject]⟩, .refl _ k, ?_, fun v hv => by cases hv⟩
    exact fun o ho => Or.inl ⟨o, ho, rfl⟩
  · rw [hk']
    refine ⟨⟨_, .classification c.classifier.toUInt8 c.mark (lookup_insert _), by
      rw [hobject]⟩, { Keeps.refl _ k with classes := ?_ }, ?_, fun v hv => by cases hv⟩
    · intro key mark hmark
      rw [hclasses] at hmark
      have hne : key ≠ c.classifier.toUInt8 := by
        rintro rfl
        exact Option.some_ne_none _ (hmark.symm.trans hfree)
      change (classes.insert _ _).lookup key = some mark
      rw [GoMap.lookup_insert_eq, if_neg hne]
      exact hmark
    · intro o ho
      cases ho with
      | link i l _ hl ho => exact Or.inl ⟨o, .link i l o hl ho, rfl⟩
      | route r _ hr ho => exact Or.inl ⟨o, .route r o hr ho, rfl⟩
      | rule r _ hr ho => exact Or.inl ⟨o, .rule r o hr ho, rfl⟩
      | classification key mark hmark =>
        have hmark : (classes.insert c.classifier.toUInt8 c.mark).lookup key = some mark := hmark
        rw [GoMap.lookup_insert_eq] at hmark
        split_ifs at hmark with hkey
        · cases hmark
          rw [hkey, hobject]
          exact Or.inr (Or.inl rfl)
        · exact Or.inl ⟨_, .classification key mark (by rw [hclasses]; exact hmark), rfl⟩

theorem addCall_adds (hk : Tidy nodeType k) (hy : Fitting nodeType y) (hsized : y.Sized)
    (hplain : y.Plain) (hok : ((addCall documented y).2 k).1 = none) :
    Adds y k ((addCall documented y).2 k).2 := by
  by_cases hkind : y.kind = .classification
  · cases y with
    | classification c => exact adds_classification hsized hok
    | _ => cases hkind
  rw [addCall_documented hkind] at hok ⊢
  have hstep := addCall_step k y
  refine ⟨?_, hstep.keeps, fun o ho => ?_, ?_⟩
  · cases y with
    | vrf v => exact (upsertVRF_stored hk hy hok).1
    | xfrm x => exact insertXFRM_stored hok
    | rule r => exact upsertRule_stored hk hy hsized
    | classification c => exact absurd rfl hkind
    | route | srRoute | sid => exact route_stored hsized hplain (by simp [Resource.kind]) hok
  · rcases hstep.gains hsized hplain ho with ho | ⟨hkey, -⟩ | ⟨v, hv, hobject⟩
    · exact Or.inl ⟨o, ho, rfl⟩
    · exact Or.inr (Or.inl hkey)
    · exact Or.inr (Or.inr ⟨v, hv, by rw [hobject.eq (.route rfl)]; rfl⟩)
  · rintro v rfl
    exact (upsertVRF_stored hk hy hok).2

end Calls

section Run

variable {nodeType : NodeType} {asked : Resource → Prop} {k s s' : Kernel} {y : Resource}

/-- The resources that are asked for can be stored on a node of the type, each in a place of its
own. -/
structure Placed (nodeType : NodeType) (asked : Resource → Prop) : Prop where
  fitting : ∀ y, asked y → Fitting nodeType y
  sized : ∀ y, asked y → y.Sized
  plain : ∀ y, asked y → y.Plain
  slots : ∀ y y', asked y → asked y' → y.slot = y'.slot → y.slot ≠ none → y.key = y'.key

theorem Resource.slot_metric {p : UInt32 × Network × ℕ} (h : y.slot = some p) :
    p.2.2 ≠ vrfUnreachableMetricValue := by
  have hmetric : ∀ n, Kernel.userMetric n ≠ vrfUnreachableMetricValue := by
    intro n
    rw [Kernel.userMetric, vrfUnreachableMetricValue]
    split_ifs <;> omega
  cases y with
  | route | srRoute | sid =>
    obtain ⟨n, -, rfl⟩ := Option.map_eq_some_iff.mp h
    exact hmetric n
  | _ => cases h

theorem Adds.kept (h : Adds y s s') (hplaced : Placed nodeType asked) (hs : Tidy nodeType s)
    (hy : asked y) {y' : Resource} (hy' : asked y') (hkey : s.HasKey y'.key) :
    s'.HasKey y'.key := by
  by_cases hsame : y'.key = y.key
  · rw [hsame]
    exact h.stored
  obtain ⟨o, ho, hkey⟩ := hkey
  refine ⟨o, h.keeps.has ho fun r hr hobject htaken => ?_, hkey⟩
  have hslot : y'.slot = some r.slot := by
    rw [← slot_congr ho.readable hkey]
    exact hobject.slot (hs.ownRoutes r hr) ((hplaced.fitting y' hy').ne_catchAll hobject hkey)
  rcases htaken with hy₀ | ⟨v, rfl, hcatchAll⟩
  · refine hsame (hplaced.slots y' y hy' hy (hslot.trans hy₀.symm) ?_)
    rw [hslot]
    exact Option.some_ne_none _
  · exact slot_metric hslot (by rw [hcatchAll]; rfl)

theorem Adds.hasCatchAll (h : Adds y s s') {t : ℤ} (ht : HasCatchAll s t) : HasCatchAll s' t := by
  by_cases htaken : y.Takes (Linux.vrfCatchAll t).slot
  · rcases htaken with hy | ⟨v, rfl, hslot⟩
    · exact absurd rfl (slot_metric hy)
    · have htable : uint32OfInt t = uint32OfInt v.tableID.toNat := congrArg Prod.fst hslot
      have hsame : Linux.vrfCatchAll t = Linux.vrfCatchAll v.tableID.toNat := by
        rw [Linux.vrfCatchAll, Linux.vrfCatchAll, htable]
      rw [HasCatchAll, hsame]
      exact h.catchAll v rfl
  · exact h.keeps.routes _ ht htaken

structure Added (nodeType : NodeType) (asked : Resource → Prop) (k : Kernel) (rs : List Resource)
    (s : Kernel) : Prop where
  tidy : Tidy nodeType s
  stored : ∀ y ∈ rs, s.HasKey y.key
  kept : ∀ y, asked y → k.HasKey y.key → s.HasKey y.key
  only : ∀ o, s.Has o → k.HasKey o.key ∨ (∃ y ∈ rs, o.key = y.key) ∨
    ∃ v, .vrf v ∈ rs ∧ o.key = (Linux.vrfCatchAll v.tableID.toNat).object.key
  catchAlls : ∀ v, .vrf v ∈ rs → HasCatchAll s v.tableID.toNat

theorem Added.step {rs : List Resource} (h : Added nodeType asked k rs s)
    (hplaced : Placed nodeType asked) (hrs : ∀ y ∈ rs, asked y) (hy : asked y)
    (hs' : Tidy nodeType s') (hadds : Adds y s s') : Added nodeType asked k (rs ++ [y]) s' := by
  have hkept := fun y' => @Adds.kept _ _ _ _ _ hadds hplaced h.tidy hy y'
  refine ⟨hs', ?_, fun y' hy' hkey => hkept y' hy' (h.kept y' hy' hkey), ?_, ?_⟩
  · intro y' hy'
    rcases List.mem_append.mp hy' with hy' | hy'
    · exact hkept y' (hrs y' hy') (h.stored y' hy')
    · rw [List.mem_singleton.mp hy']
      exact hadds.stored
  · intro o ho
    rcases hadds.only o ho with ⟨o₁, ho₁, hkey⟩ | hkey | ⟨v, rfl, hkey⟩
    · rw [← hkey]
      refine (h.only o₁ ho₁).imp_right (Or.imp ?_ ?_)
      · exact fun ⟨y', hy', hkey'⟩ => ⟨y', List.mem_append_left _ hy', hkey'⟩
      · exact fun ⟨v, hv, hkey'⟩ => ⟨v, List.mem_append_left _ hv, hkey'⟩
    · exact Or.inr (Or.inl ⟨y, List.mem_append_right _ List.mem_cons_self, hkey⟩)
    · exact Or.inr (Or.inr ⟨v, List.mem_append_right _ List.mem_cons_self, hkey⟩)
  · intro v hv
    rcases List.mem_append.mp hv with hv | hv
    · exact hadds.hasCatchAll (h.catchAlls v hv)
    · exact hadds.catchAll v (List.mem_singleton.mp hv).symm

theorem added_additions (hplaced : Placed nodeType asked) (hk : Tidy nodeType k)
    (log : List Failure) (rs : List Resource) (hrs : ∀ y ∈ rs, asked y)
    (hnodup : (rs.map Resource.key).Nodup) (hfresh : ∀ y ∈ rs, ¬ k.HasKey y.key)
    (hlog : ((rs.map (addCall documented)).foldl perform (k, log)).2 = []) :
    Added nodeType asked k rs ((rs.map (addCall documented)).foldl perform (k, log)).1 := by
  induction rs using List.reverseRecOn with
  | nil =>
    refine ⟨hk, List.forall_mem_nil _, fun _ _ h => h, ?_,
      fun _ h => absurd h List.not_mem_nil⟩
    exact fun o ho => Or.inl ⟨o, ho, rfl⟩
  | append_singleton rs y ih =>
    rw [List.map_append, List.foldl_append] at hlog ⊢
    rw [List.map_append, List.nodup_append] at hnodup
    obtain ⟨hbefore, hok, hstate⟩ := perform_silent hlog
    have hy := hrs y (List.mem_append_right _ List.mem_cons_self)
    have hrs' : ∀ y' ∈ rs, asked y' := fun y' hy' => hrs y' (List.mem_append_left _ hy')
    have hadded := ih hrs' hnodup.1 (fun y' hy' => hfresh y' (List.mem_append_left _ hy')) hbefore
    have htidy := tidy_addCall hadded.tidy (hplaced.fitting y hy) ?_
    · have hadds := addCall_adds hadded.tidy (hplaced.fitting y hy) (hplaced.sized y hy)
        (hplaced.plain y hy) hok
      exact hstate ▸ hadded.step hplaced hrs' hy htidy hadds
    · intro _ r hr hproto hkey
      rcases hadded.only _ (.rule r _ hr (.rule hproto)) with
        hk | ⟨y', hy', hkey'⟩ | ⟨v, -, hkey'⟩
      · rw [show (Resource.rule _).key = y.key from hkey] at hk
        exact hfresh y (List.mem_append_right _ List.mem_cons_self) hk
      · exact hnodup.2.2 y'.key (List.mem_map_of_mem hy') y.key (by simp) (hkey'.symm.trans hkey)
      · cases (key_eq_iff.mp hkey').1

end Run

end Maeto.Dataplane
