import Maeto.Dataplane.Tidy

/-!
# What the removals of a pass leave

The calls that remove are made for the objects that were read, one after the other. The objects of
most kinds are removed by something that tells them apart, and nothing else goes with them except
the routes over a link that is gone (`removeCall_takes`). A prefix route is removed by its table
and destination. Where the default route of a table is beside the catch-all of the VRF, a call for
either takes the default route first, because of its metric (`removeCall_prefixRoute`).
-/

namespace Maeto.Dataplane

open Foundation Netip Nodesync Resource

section Exact

variable {nodeType : NodeType} {k s s' : Kernel} {o : Resource}

/-- The key of `o` is gone, and the other keys are there but for some routes. -/
structure Takes (lost : KernelRoute → Prop) (o : Resource) (s s' : Kernel) : Prop where
  gone : ¬ s'.HasKey o.key
  kept : ∀ key, s.HasKey key → key ≠ o.key → s'.HasKey key ∨
    ∃ r ∈ s.routes, ∃ o', RouteObject r o' ∧ o'.key = key ∧ lost r

theorem deleteClass_state {key : UInt8} (hok : (changeClass (.delete [key]) s).1 = none) :
    ∃ classes, s.classes = some classes ∧
      (changeClass (.delete [key]) s).2 = { s with classes := some (classes.erase key) } := by
  unfold changeClass at hok ⊢
  cases hclasses : s.classes with
  | none =>
    rw [hclasses] at hok
    cases hok
  | some classes =>
    simp only [hclasses, Kernel.changeElement] at hok ⊢
    split_ifs at hok ⊢ with hmem
    exact ⟨classes, rfl, rfl⟩

theorem takes_classification (lost : KernelRoute → Prop) (hf : k.Fewer s) {key : UInt8}
    {mark : UInt32} (hmark : (k.classes.getD ∅).lookup key = some mark)
    (hok : (changeClass (.delete [key]) s).1 = none) :
    Takes lost (.classification { classifier := key.toUInt32, mark }) s
      (changeClass (.delete [key]) s).2 := by
  obtain ⟨classes, hclasses, hs'⟩ := deleteClass_state hok
  rw [hs']
  refine ⟨?_, ?_⟩
  · rintro ⟨o', ho', hkey⟩
    obtain ⟨hkind, hbody⟩ := key_eq_iff.mp hkey
    obtain ⟨key', mark', hmark', rfl⟩ := ho'.of_classification hkind
    have hsame := congrArg Classification.classifier (keyBody_classification hbody)
    have hsame : key' = key := by
      have := congrArg UInt32.toUInt8 hsame
      simpa using this
    have hmark' : (classes.erase key).lookup key' = some mark' := hmark'
    rw [GoMap.lookup_erase_eq, if_pos hsame] at hmark'
    cases hmark'
  · rintro _ ⟨o', ho', rfl⟩ hne
    refine Or.inl ⟨o', ?_, rfl⟩
    cases ho' with
    | link i l _ hl ho => exact .link i l o' hl ho
    | route r _ hr ho => exact .route r o' hr ho
    | rule r _ hr ho => exact .rule r o' hr ho
    | classification key' mark' hmark' =>
      refine .classification key' mark' ?_
      have hother : key' ≠ key := by
        rintro rfl
        cases hmark.symm.trans (hf.classes _ _ hmark')
        exact hne rfl
      rw [hclasses] at hmark'
      change (classes.erase key).lookup key' = some mark'
      rw [GoMap.lookup_erase_eq, if_neg hother]
      exact hmark'

theorem removeRule_state (hk : Tidy nodeType k) (hf : k.Fewer s) {r : KernelRule}
    (hr : r ∈ k.rules) (hproto : r.protocol = maetoRouteProto) :
    ((removeCall documented r.object).2 s).2 = { s with rules := s.rules.erase r } := by
  have hrule : Linux.maetoRule r.priority (r.src.map Network.net) r.table.toNat r.mark.toNat
      r.iif = some r := KernelRule.kernelRule_object hproto
  have hself : Kernel.ruleSelects r r = true := by
    cases hsrc : r.src <;> simp [Kernel.ruleSelects, hsrc]
  change (Linux.removeRule r.priority (r.src.map Network.net) r.table.toNat r.mark.toNat
    r.iif s).2 = _
  unfold Linux.removeRule Kernel.ruleDel
  simp only [hrule]
  cases hfind : s.rules.find? (Kernel.ruleSelects r) with
  | none =>
    have hnot : r ∉ s.rules := fun hmem => List.find?_eq_none.mp hfind r hmem hself
    rw [List.erase_of_not_mem hnot]
  | some r' =>
    have hr' := hf.rules.subset (List.mem_of_find?_eq_some hfind)
    have hsel := List.find?_some hfind
    have hproto' : r'.protocol = maetoRouteProto := by
      simp only [Kernel.ruleSelects, Bool.and_eq_true, decide_eq_true_eq] at hsel
      exact hsel.2.trans hproto
    have hident := (hk.ownRules r hr hproto).ident_eq_of_selects (hk.ownRules r' hr' hproto') hsel
    rw [hk.rule_eq_of_ident hr' hr hproto' hproto hident]

theorem notMem_erase_of_pairwise {α : Type} [DecidableEq α] {R : α → α → Prop} {l : List α}
    (h : l.Pairwise R) {a : α} (ha : ¬ R a a) : a ∉ l.erase a := by
  induction h with
  | nil => exact List.not_mem_nil
  | @cons b l hb _ ih =>
    rw [List.erase_cons]
    split_ifs with hab
    · intro hmem
      rw [beq_iff_eq] at hab
      exact ha (hab ▸ hb a hmem)
    · rw [List.mem_cons, not_or]
      refine ⟨?_, ih⟩
      rintro rfl
      exact hab (beq_self_eq_true _)

theorem takes_rule (lost : KernelRoute → Prop) (hk : Tidy nodeType k) (hf : k.Fewer s)
    {r : KernelRule} (hr : r ∈ k.rules) (hproto : r.protocol = maetoRouteProto) :
    Takes lost r.object s { s with rules := s.rules.erase r } := by
  refine ⟨?_, ?_⟩
  · rintro ⟨o', ho', hkey⟩
    obtain ⟨r', hr', hproto', rfl⟩ := ho'.of_rule (key_eq_iff.mp hkey).1
    have hmem := hf.rules.subset (List.mem_of_mem_erase hr')
    have heq := hk.rule_eq_of_ident hmem hr hproto' hproto (KernelRule.ident_eq_of_key hkey)
    rw [heq] at hr'
    exact notMem_erase_of_pairwise (hk.of_fewer hf).ruleKeys (fun h => h hproto hproto rfl) hr'
  · rintro _ ⟨o', ho', rfl⟩ hne
    refine Or.inl ⟨o', ?_, rfl⟩
    cases ho' with
    | classification key mark hmark => exact .classification key mark hmark
    | link i l _ hl ho => exact .link i l o' hl ho
    | route r _ hr ho => exact .route r o' hr ho
    | rule r' _ hr' ho =>
      refine .rule r' o' ((List.mem_erase_of_ne ?_).mpr hr') ho
      rintro rfl
      cases ho
      exact hne rfl

theorem removeRoute_exact {r : KernelRoute} (missingOk : Bool) (message : String)
    (honly : ∀ r' ∈ s.routes, r'.dst = r.dst → r'.table = r.table → r'.protocol = r.protocol →
      r' = r) :
    (Linux.removeRoute (some r.dst) r.table r.protocol missingOk message s).2 =
      { s with routes := s.routes.erase r } := by
  rcases removeRoute_state s r.dst r.table r.protocol missingOk message with
    ⟨hnone, hs'⟩ | ⟨r', hr', ⟨hdst, htable, hproto⟩, -, hs'⟩
  · rw [hs', List.erase_of_not_mem fun hmem => hnone r hmem ⟨rfl, rfl, rfl⟩]
  · rw [hs', honly r' hr' hdst htable hproto]

theorem removeSegment_state (hk : Tidy nodeType k) (hf : k.Fewer s) {r : KernelRoute}
    (hr : r ∈ k.routes) (ho : RouteObject r o) (hkind : o.kind ≠ .route) :
    ((removeCall documented o.observed).2 s).2 = { s with routes := s.routes.erase r } := by
  have hown := hk.ownRoutes r hr
  have honly : (∀ r' ∈ k.routes, r'.protocol = r.protocol →
      r'.metric = Kernel.userMetric r'.dst) → ∀ r' ∈ s.routes, r'.dst = r.dst →
        r'.table = r.table → r'.protocol = r.protocol → r' = r := by
    intro hmetric r' hr' hdst htable hproto
    have hr' := hf.routes.subset hr'
    refine hk.route_eq_of_slot hr' hr ?_
    rw [KernelRoute.slot, KernelRoute.slot, hmetric r' hr' hproto, hmetric r hr rfl, hdst, htable]
  cases ho with
  | route => exact absurd rfl hkind
  | sid sidType t hproto haction =>
    obtain ⟨htable, -, hbits, -⟩ := hown.sid hproto
    change (Linux.removeSID r.dst.net.ip s).2 = _
    rw [Linux.removeSID, sidNet_of_bits hbits, ← htable, ← hproto]
    refine removeRoute_exact _ _ (honly fun r' hr' hproto' => ?_)
    exact ((hk.ownRoutes r' hr').sid (hproto'.trans hproto)).2.1
  | srRoute segments hproto haction =>
    change (Linux.removeSRRouteForPrefix r.dst.net r.table.toNat s).2 = _
    rw [Linux.removeSRRouteForPrefix, Network.prefixToIPNet_net, uint32OfInt_toNat, ← hproto]
    refine removeRoute_exact _ _ (honly fun r' hr' hproto' => ?_)
    exact ((hk.ownRoutes r' hr').srRoute (hproto'.trans hproto)).1

theorem takes_route (lost : KernelRoute → Prop) (hk : Tidy nodeType k) (hf : k.Fewer s)
    {r : KernelRoute} (hr : r ∈ k.routes) (ho : RouteObject r o) :
    Takes lost o s { s with routes := s.routes.erase r } := by
  have hkinds : o.kind = .route ∨ o.kind = .sid ∨ o.kind = .srRoute := by
    cases ho <;> simp [Resource.kind]
  refine ⟨?_, ?_⟩
  · rintro ⟨o', ho', hkey⟩
    rw [← (key_eq_iff.mp hkey).1] at hkinds
    obtain ⟨r', hr', hobject⟩ := ho'.of_route hkinds
    have hmem := hf.routes.subset (List.mem_of_mem_erase hr')
    rw [hk.route_eq_of_key hmem hr hobject ho hkey] at hr'
    exact notMem_erase_of_pairwise (hk.of_fewer hf).slots (fun h => h rfl) hr'
  · rintro _ ⟨o', ho', rfl⟩ hne
    refine Or.inl ⟨o', ?_, rfl⟩
    cases ho' with
    | classification key mark hmark => exact .classification key mark hmark
    | link i l _ hl ho => exact .link i l o' hl ho
    | rule r _ hr ho => exact .rule r o' hr ho
    | route r' _ hr' ho' =>
      refine .route r' o' ((List.mem_erase_of_ne ?_).mpr hr') ho'
      rintro rfl
      exact hne (by rw [ho'.eq ho])

structure Unlinks (i : ℕ) (name : String) (s s' : Kernel) : Prop where
  gone : s'.links.lookup i = none
  links : ∀ j l, j ≠ i → s.links.lookup j = some l →
    ∃ l', s'.links.lookup j = some l' ∧ l.ident = l'.ident
  routes : ∀ r ∈ s.routes, r.dev ≠ name → r ≠ Linux.vrfCatchAll r.table.toNat → r ∈ s'.routes
  rules : s'.rules = s.rules
  classes : s'.classes = s.classes

theorem unlinks_linkDel (hs : Tidy nodeType s) (i : ℕ) (name : String) {routes : List KernelRoute}
    (hrest : ∀ r ∈ s.routes, r ∉ routes → r.protocol = maetoRouteProto ∧
      r.metric = vrfUnreachableMetricValue) :
    Unlinks i name s (({ s with routes } : Kernel).linkDel i name) where
  gone := (lookup_linkDel _ i name i).trans (if_pos rfl)
  links := by
    intro j l hj hl
    refine ⟨l.detach name, ?_, rfl⟩
    rw [lookup_linkDel, if_neg hj]
    exact congrArg (Option.map _) hl
  routes := by
    intro r hr hdev hne
    refine List.mem_filter.mpr ⟨?_, decide_eq_true hdev⟩
    by_contra hnot
    obtain ⟨hproto, hmetric⟩ := hrest r hr hnot
    obtain ⟨huser, -⟩ := ((hs.ownRoutes r hr).route hproto).resolve_left hne
    rw [hmetric, Kernel.userMetric, vrfUnreachableMetricValue] at huser
    split_ifs at huser
    omega
  rules := rfl
  classes := rfl

theorem removeLink_state (hk : Tidy nodeType k) (hf : k.Fewer s) {i : ℕ} {l : Link}
    (hl : k.links.lookup i = some l) (ho : LinkObject i l o) :
    (s.links.lookup i = none ∧ ((removeCall documented o.observed).2 s).2 = s) ∨
      Unlinks i l.name s ((removeCall documented o.observed).2 s).2 := by
  have hindex := ho.linkIndex
  have hkind : o.observed.kind = o.kind := by cases ho <;> rfl
  have hclass : o.observed.kind ≠ .classification := by cases ho <;> exact Kind.noConfusion
  have hstep := removeCall_step s o.observed
  rw [removeCall_documented hclass]
  generalize ((removeCall linuxNetlink o.observed).2 s).2 = s' at hstep ⊢
  cases hstep with
  | refl hlink =>
    refine Or.inl ⟨?_, rfl⟩
    by_contra hsome
    obtain ⟨l', hl'⟩ := Option.ne_none_iff_exists'.mp hsome
    obtain ⟨l₀, hl₀, hident⟩ := hf.links i l' hl'
    cases hl.symm.trans hl₀
    obtain ⟨o', ho', hkey, -⟩ := ho.of_ident hident.symm
    exact hlink i l' o' hl' ho' ((key_eq_iff.mp hkey).1.trans hkind.symm) hindex
  | route r hr hx => cases ho <;> cases hx
  | rule r r' hx => cases ho <;> cases hx
  | queued queue hx => exact absurd hx hclass
  | link i' l' routes hx hl' hroutes hrest =>
    have hi : i' = i := by exact_mod_cast Option.some.inj (hx.symm.trans hindex)
    rw [hi] at hl' ⊢
    obtain ⟨l₀, hl₀, hident⟩ := hf.links i l' hl'
    cases hl.symm.trans hl₀
    simp only [Link.ident, Prod.mk.injEq] at hident
    rw [← hident.1]
    exact Or.inr (unlinks_linkDel (hk.of_fewer hf) i l'.name hrest)

theorem takes_link (hk : Tidy nodeType k) (hf : k.Fewer s) {i : ℕ} {l : Link}
    (hl : k.links.lookup i = some l) (ho : LinkObject i l o)
    (hs' : (s.links.lookup i = none ∧ s' = s) ∨ Unlinks i l.name s s') (hf' : s.Fewer s') :
    Takes (fun r => r.dev = l.name ∨ r = Linux.vrfCatchAll r.table.toNat) o s s' := by
  have hgone : s'.links.lookup i = none := by
    rcases hs' with ⟨hnone, rfl⟩ | hunlinks
    · exact hnone
    · exact hunlinks.gone
  have hkinds : o.kind = .vrf ∨ o.kind = .xfrm := by
    cases ho <;> simp [Resource.kind]
  refine ⟨?_, ?_⟩
  · rintro ⟨o', ho', hkey⟩
    rw [← (key_eq_iff.mp hkey).1] at hkinds
    obtain ⟨j, l', hl', ho'⟩ := ho'.of_link hkinds
    obtain ⟨l₀, hl₀, hident⟩ := (hf.trans hf').links j l' hl'
    obtain ⟨o₀, ho₀, hkey₀, -⟩ := ho'.of_ident hident
    have hname := ho₀.name_eq_of_key ho (hkey₀.trans hkey)
    rw [hk.names j i l₀ l hl₀ hl hname, hgone] at hl'
    cases hl'
  · rintro _ ⟨o', ho', rfl⟩ hne
    rcases hs' with ⟨-, rfl⟩ | hunlinks
    · exact Or.inl ⟨o', ho', rfl⟩
    cases ho' with
    | classification key mark hmark =>
      exact Or.inl ⟨_, .classification key mark (by rw [hunlinks.classes]; exact hmark), rfl⟩
    | rule r _ hr ho' => exact Or.inl ⟨o', .rule r o' (by rw [hunlinks.rules]; exact hr) ho', rfl⟩
    | route r _ hr ho' =>
      by_cases hdev : r.dev = l.name
      · exact Or.inr ⟨r, hr, o', ho', rfl, Or.inl hdev⟩
      by_cases hcatchAll : r = Linux.vrfCatchAll r.table.toNat
      · exact Or.inr ⟨r, hr, o', ho', rfl, Or.inr hcatchAll⟩
      · exact Or.inl ⟨o', .route r o' (hunlinks.routes r hr hdev hcatchAll) ho', rfl⟩
    | link j l₁ _ hl₁ ho' =>
      have hj : j ≠ i := by
        rintro rfl
        obtain ⟨l₀, hl₀, hident⟩ := hf.links j l₁ hl₁
        cases hl.symm.trans hl₀
        obtain ⟨o₀, ho₀, hkey₀, -⟩ := ho'.of_ident hident
        rw [ho₀.eq ho] at hkey₀
        exact hne hkey₀.symm
      obtain ⟨l₂, hl₂, hident⟩ := hunlinks.links j l₁ hj hl₁
      obtain ⟨o₂, ho₂, hkey₂, -⟩ := ho'.of_ident hident
      exact Or.inl ⟨o₂, .link j l₂ o₂ hl₂ ho₂, hkey₂⟩

theorem removeCall_takes (hk : Tidy nodeType k) (hf : k.Fewer s) (ho : k.Has o)
    (hkind : o.kind ≠ .route) (hok : ((removeCall documented o.observed).2 s).1 = none) :
    Takes (fun r => o.linkName = some r.dev ∨ r = Linux.vrfCatchAll r.table.toNat) o s
      ((removeCall documented o.observed).2 s).2 := by
  cases ho with
  | classification key mark hmark =>
    have hkey : key.toUInt32.toUInt8 = key := by simp
    change (changeClass (.delete [key.toUInt32.toUInt8]) s).1 = none at hok
    change Takes _ _ s (changeClass (.delete [key.toUInt32.toUInt8]) s).2
    rw [hkey] at hok ⊢
    exact takes_classification _ hf hmark hok
  | rule r _ hr ho =>
    cases ho with
    | rule hproto =>
      have hs' := removeRule_state hk hf hr hproto
      change ((removeCall documented r.object).2 s).2 = _ at hs'
      change Takes _ r.object s ((removeCall documented r.object).2 s).2
      rw [hs']
      exact takes_rule _ hk hf hr hproto
  | link i l _ hl ho =>
    have hname : o.linkName = some l.name := by cases ho <;> rfl
    have htakes := takes_link hk hf hl ho (removeLink_state hk hf hl ho) (fewer_removeCall s _)
    refine ⟨htakes.gone, fun key hkey hne => (htakes.kept key hkey hne).imp_right ?_⟩
    rintro ⟨r, hr, o', ho', hkey', hlost⟩
    refine ⟨r, hr, o', ho', hkey', hlost.imp_left fun hdev => ?_⟩
    rw [hname, hdev]
  | route r _ hr ho =>
    rw [removeSegment_state hk hf hr ho hkind]
    exact takes_route _ hk hf hr ho

end Exact

section PrefixRoutes

variable {nodeType : NodeType} {k s : Kernel}

structure Kernel.DefaultRoute (k : Kernel) (t : UInt32) (u : KernelRoute) : Prop where
  mem : u ∈ k.routes
  protocol : u.protocol = maetoRouteProto
  table : u.table = t
  dst : u.dst = .default6
  dev : u.dev ≠ "lo"

variable {r : KernelRoute}

/-- Two prefix routes with one table and destination are one, or a default route and the
catch-all. -/
theorem Tidy.prefixRoutes_cases (h : Tidy nodeType k) {r' : KernelRoute} (hr : r ∈ k.routes)
    (hr' : r' ∈ k.routes) (hproto : r.protocol = maetoRouteProto)
    (hproto' : r'.protocol = maetoRouteProto) (hdst : r'.dst = r.dst)
    (htable : r'.table = r.table) :
    r' = r ∨ (k.DefaultRoute r.table r' ∧ r = Linux.vrfCatchAll r.table.toNat) ∨
      (k.DefaultRoute r.table r ∧ r' = Linux.vrfCatchAll r.table.toNat) := by
  rcases (h.ownRoutes r hr).route hproto with hcatchAll | ⟨hmetric, hdev⟩ <;>
    rcases (h.ownRoutes r' hr').route hproto' with hcatchAll' | ⟨hmetric', hdev'⟩
  · exact Or.inl (by rw [hcatchAll', htable, ← hcatchAll])
  · refine Or.inr (Or.inl ⟨⟨hr', hproto', htable, ?_, hdev'⟩, hcatchAll⟩)
    rw [hdst, hcatchAll]
    rfl
  · refine Or.inr (Or.inr ⟨⟨hr, hproto, rfl, ?_, hdev⟩, htable ▸ hcatchAll'⟩)
    rw [← hdst, hcatchAll']
    rfl
  · refine Or.inl (h.route_eq_of_slot hr' hr ?_)
    rw [KernelRoute.slot, KernelRoute.slot, hmetric, hmetric', hdst, htable]

theorem Tidy.not_catchAll_le (h : Tidy nodeType k) {t t' : UInt32} {u : KernelRoute}
    (hu : k.DefaultRoute t u) : ¬ (Linux.vrfCatchAll t'.toNat).metric ≤ u.metric := by
  rcases (h.ownRoutes u hu.mem).route hu.protocol with hcatchAll | ⟨hmetric, -⟩
  · exact absurd (congrArg KernelRoute.dev hcatchAll) hu.dev
  · change ¬ vrfUnreachableMetricValue ≤ u.metric
    rw [hmetric, Kernel.userMetric, vrfUnreachableMetricValue]
    split_ifs <;> omega

structure RemovesPrefix (r : KernelRoute) (s s' : Kernel) : Prop where
  only : ∀ r' ∈ s.routes, r' ∉ s'.routes → r'.protocol = maetoRouteProto ∧ r'.dst = r.dst ∧
    r'.table = r.table
  rest : s'.links = s.links ∧ s'.rules = s.rules ∧ s'.classes = s.classes
  own : r.dev ≠ "lo" → r ∉ s'.routes
  default : r = Linux.vrfCatchAll r.table.toNat → ∀ u, ¬ s'.DefaultRoute r.table u
  inPlace : r = Linux.vrfCatchAll r.table.toNat → r ∈ s'.routes →
    ∃ u, s.DefaultRoute r.table u ∧ u ∉ s'.routes
  still : r.dst = .default6 → r.dev ≠ "lo" → Linux.vrfCatchAll r.table.toNat ∈ s'.routes →
    r ∈ s.routes

theorem RemovesPrefix.of_none (hproto : r.protocol = maetoRouteProto)
    (h : ∀ r' ∈ s.routes, ¬ (r'.dst = r.dst ∧ r'.table = r.table ∧ r'.protocol = maetoRouteProto)) :
    RemovesPrefix r s s where
  only := fun r' hr' hnot => absurd hr' hnot
  rest := ⟨rfl, rfl, rfl⟩
  own := fun _ hr => h r hr ⟨rfl, rfl, hproto⟩
  default := by
    intro hcatchAll u hu
    refine h u hu.mem ⟨?_, hu.table, hu.protocol⟩
    rw [hu.dst, hcatchAll]
    rfl
  inPlace := fun _ hr => absurd ⟨rfl, rfl, hproto⟩ (h r hr)
  still := by
    intro hdst _ hmem
    exact absurd ⟨hdst.symm, uint32OfInt_toNat _, rfl⟩ (h _ hmem)

theorem RemovesPrefix.of_erase (hk : Tidy nodeType k) (hf : k.Fewer s) {r₁ : KernelRoute}
    (hr : r ∈ k.routes) (hproto : r.protocol = maetoRouteProto) (hr₁ : r₁ ∈ s.routes)
    (hmatch : r₁.dst = r.dst ∧ r₁.table = r.table ∧ r₁.protocol = maetoRouteProto)
    (hmin : ∀ r' ∈ s.routes, r'.dst = r.dst ∧ r'.table = r.table ∧
      r'.protocol = maetoRouteProto → r₁.metric ≤ r'.metric) :
    RemovesPrefix r s { s with routes := s.routes.erase r₁ } := by
  obtain ⟨hdst₁, htable₁, hproto₁⟩ := hmatch
  have hr₁k := hf.routes.subset hr₁
  have hgone : r₁ ∉ s.routes.erase r₁ :=
    notMem_erase_of_pairwise (hk.of_fewer hf).slots (fun h => h rfl)
  have hcases := hk.prefixRoutes_cases hr hr₁k hproto hproto₁ hdst₁ htable₁
  refine ⟨?_, ⟨rfl, rfl, rfl⟩, ?_, ?_, ?_, ?_⟩
  · intro r' hr' hnot
    have heq : r' = r₁ := by
      by_contra hne
      exact hnot ((List.mem_erase_of_ne hne).mpr hr')
    rw [heq]
    exact ⟨hproto₁, hdst₁, htable₁⟩
  · intro hdev hmem
    rcases hcases with rfl | ⟨-, hcatchAll⟩ | ⟨hdefault, rfl⟩
    · exact hgone hmem
    · exact hdev (by rw [hcatchAll]; rfl)
    · exact hk.not_catchAll_le hdefault (hmin r (List.mem_of_mem_erase hmem) ⟨rfl, rfl, hproto⟩)
  · intro hcatchAll u hu
    have hmem := List.mem_of_mem_erase hu.mem
    have hdst : u.dst = r.dst := by
      rw [hu.dst, hcatchAll]
      rfl
    rcases hk.prefixRoutes_cases hr₁k (hf.routes.subset hmem) hproto₁ hu.protocol
      (hdst.trans hdst₁.symm) (hu.table.trans htable₁.symm) with rfl | ⟨hdefault, hr₁'⟩ | ⟨-, hu'⟩
    · exact hgone hu.mem
    · have hle := hmin u hmem ⟨hdst, hu.table, hu.protocol⟩
      rw [hr₁'] at hle
      exact hk.not_catchAll_le hdefault hle
    · exact hu.dev (by rw [hu']; rfl)
  · intro hcatchAll hmem
    rcases hcases with rfl | ⟨hdefault, -⟩ | ⟨hdefault, -⟩
    · exact absurd hmem hgone
    · exact ⟨r₁, { hdefault with mem := hr₁ }, hgone⟩
    · exact absurd (by rw [hcatchAll]; rfl) hdefault.dev
  · intro hdst hdev hmem
    rcases hcases with rfl | ⟨-, hcatchAll⟩ | ⟨-, rfl⟩
    · exact hr₁
    · exact absurd (by rw [hcatchAll]; rfl) hdev
    · exact absurd hmem hgone

theorem removeCall_prefixRoute (hk : Tidy nodeType k) (hf : k.Fewer s)
    (hr : r ∈ k.routes) (hproto : r.protocol = maetoRouteProto) :
    RemovesPrefix r s ((removeCall documented r.object.observed).2 s).2 := by
  change RemovesPrefix r s (Linux.removePrefixRoute r.dst.net r.table.toNat s).2
  rw [Linux.removePrefixRoute, Network.prefixToIPNet_net, uint32OfInt_toNat]
  rcases removeRoute_state s r.dst r.table maetoRouteProto true
    ("delete prefix route " ++ r.dst.net.toString ++ " from table " ++ Linux.num r.table.toNat ++
      ": ") with ⟨hnone, hs'⟩ | ⟨r₁, hr₁, hmatch, hmin, hs'⟩
  · rw [hs']
    exact .of_none hproto hnone
  · rw [hs']
    exact .of_erase hk hf hr hproto hr₁ hmatch hmin

end PrefixRoutes

end Maeto.Dataplane
