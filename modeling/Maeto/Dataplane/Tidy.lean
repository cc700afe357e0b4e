import Maeto.Dataplane.Installed
import Maeto.Dataplane.Steering

/-!
# Kernels that the reconciler leaves

What is always so in a kernel that only reconcilers of one node type have worked on: the links,
routes and rules of ours have the forms that the additions give them, there is one route for each
table, destination and metric, and one rule for each key. Every call keeps this, also one that
fails (`fewer_removeCall`, `tidy_addCall`), so it is so after any number of reconciles, whatever
became of them (`Left.tidy`).

The dataplane is `LinuxNetlink`, with a classification that does what it is meant to: a change
takes effect at once, and an element is removed by the byte that it was stored under.
-/

namespace Maeto.Dataplane

open Foundation Netip Nodesync GoMap

section Documented

def changeClass (change : ElementChange) : Call Kernel := fun k =>
  match k.classes with
  | none => (some Errno.enoent.text, k)
  | some classes =>
    match Kernel.changeElement classes change with
    | .ok classes' => (none, { k with classes := some classes' })
    | .error err => (some err.text, k)

def documented : Dataplane Kernel :=
  { linuxNetlink with
    ensureClassificationBase := fun k => (none, { k with classes := some (k.classes.getD ∅) })
    insertClassification := fun classifier mark => changeClass (.add [classifier.toUInt8] mark)
    removeClassification := fun classifier => changeClass (.delete [classifier.toUInt8]) }

end Documented

section Tidy

structure Tidy (nodeType : NodeType) (k : Kernel) : Prop extends Made nodeType k where
  classes : k.classes.isSome
  ownLinks : ∀ i l, k.links.lookup i = some l → l.group = maetoLinkGroup →
    OwnLink nodeType l.name l.kind
  ownVRFs : ∀ i l t tenantID, k.links.lookup i = some l → l.kind = .vrf t →
    l.name = vrfTableName tenantID → l.group = maetoLinkGroup
  otherRules : ∀ r ∈ k.rules, r.protocol ≠ maetoRouteProto →
    r.priority ≠ 80 ∧ r.priority ≠ cpeRulePriority
  ruleKeys : k.rules.Pairwise fun r r' => r.protocol = maetoRouteProto →
    r'.protocol = maetoRouteProto → r.ident ≠ r'.ident

variable {nodeType : NodeType} {k k' : Kernel} {y : Resource}

theorem Tidy.rule_eq_of_ident (h : Tidy nodeType k) {r r' : KernelRule} (hr : r ∈ k.rules)
    (hr' : r' ∈ k.rules) (hproto : r.protocol = maetoRouteProto)
    (hproto' : r'.protocol = maetoRouteProto) (hident : r.ident = r'.ident) : r = r' := by
  have hown : (k.rules.filter fun r => r.protocol = maetoRouteProto).Pairwise
      fun r r' => r.ident ≠ r'.ident := by
    simpa only [List.pairwise_filter, decide_eq_true_eq] using h.ruleKeys
  refine List.inj_on_of_nodup_map (List.pairwise_map.mpr hown) ?_ ?_ hident
  · exact List.mem_filter.mpr ⟨hr, decide_eq_true hproto⟩
  · exact List.mem_filter.mpr ⟨hr', decide_eq_true hproto'⟩

theorem Tidy.of_fewer (h : Tidy nodeType k) (hfewer : k.Fewer k') : Tidy nodeType k' where
  toMade := h.toMade.of_fewer hfewer
  classes := hfewer.base h.classes
  ownLinks := by
    intro i l₁ hi hgroup
    obtain ⟨l, hl, hident⟩ := hfewer.links i l₁ hi
    simp only [Link.ident, Prod.mk.injEq] at hident
    rw [hident.1, hident.2.2]
    exact h.ownLinks i l hl (hident.2.1.symm.trans hgroup)
  ownVRFs := by
    intro i l₁ t tenantID hi hkind hname
    obtain ⟨l, hl, hident⟩ := hfewer.links i l₁ hi
    simp only [Link.ident, Prod.mk.injEq] at hident
    rw [hident.2.1]
    exact h.ownVRFs i l t tenantID hl (hident.2.2.symm.trans hkind) (hident.1.symm.trans hname)
  otherRules := fun r hr => h.otherRules r (hfewer.rules.subset hr)
  ruleKeys := h.ruleKeys.sublist hfewer.rules

theorem changeClass_state (change : ElementChange) (k : Kernel) :
    (changeClass change k).2 = k ∨ ∃ classes classes', k.classes = some classes ∧
      Kernel.changeElement classes change = .ok classes' ∧
        (changeClass change k).2 = { k with classes := some classes' } := by
  unfold changeClass
  split
  · exact Or.inl rfl
  · rename_i classes hclasses
    split
    · rename_i classes' hchange
      exact Or.inr ⟨classes, classes', hclasses, hchange, rfl⟩
    · exact Or.inl rfl

theorem Tidy.changeClass (h : Tidy nodeType k) (change : ElementChange) :
    Tidy nodeType (changeClass change k).2 := by
  rcases changeClass_state change k with hk | ⟨_, classes, -, -, hk⟩
  · rw [hk]
    exact h
  · rw [hk]
    exact { h with classes := rfl }

theorem fewer_deleteClass (k : Kernel) (key : UInt8) :
    k.Fewer (changeClass (.delete [key]) k).2 := by
  rcases changeClass_state (.delete [key]) k with hk | ⟨classes, classes', hclasses, hchange, hk⟩
  · rw [hk]
    exact .refl k
  · rw [hk]
    refine { Kernel.Fewer.refl k with base := fun _ => rfl, classes := ?_ }
    intro key' mark hmark
    rw [Kernel.changeElement] at hchange
    split_ifs at hchange
    cases hchange
    rw [hclasses]
    exact forall_lookup_erase (P := fun key mark => classes.lookup key = some mark)
      (fun _ _ h => h) _ key' mark hmark

theorem removeCall_documented {x : Resource} (hx : x.kind ≠ .classification) :
    removeCall documented x = removeCall linuxNetlink x := by
  cases x with
  | classification => exact absurd rfl hx
  | _ => rfl

theorem addCall_documented (hy : y.kind ≠ .classification) :
    addCall documented y = addCall linuxNetlink y := by
  cases y with
  | classification => exact absurd rfl hy
  | _ => rfl

theorem fewer_removeCall (k : Kernel) (x : Resource) :
    k.Fewer ((removeCall documented x).2 k).2 := by
  by_cases hx : x.kind = .classification
  · cases x with
    | classification c => exact fewer_deleteClass k _
    | _ => cases hx
  · rw [removeCall_documented hx]
    exact (removeCall_step k x).fewer

theorem mem_of_mem_ruleElim {r : KernelRule}
    (h : r ∈ y.kernelRule.elim k.rules (addRule k.rules)) :
    r ∈ k.rules ∨ y.kernelRule = some r := by
  cases hrule : y.kernelRule with
  | none =>
    rw [hrule] at h
    exact Or.inl h
  | some rule =>
    rw [hrule] at h
    exact (mem_of_mem_addRule h).imp_right fun heq => by rw [heq]

theorem Tidy.pairwise_addRule (h : Tidy nodeType k) (hy : Fitting nodeType y)
    {rule : KernelRule} (hrule : y.kernelRule = some rule)
    (hfresh : nodeType = .pe → ∀ r ∈ k.rules, r.protocol = maetoRouteProto →
      r.object.key ≠ y.key) :
    (addRule k.rules rule).Pairwise fun r r' => r.protocol = maetoRouteProto →
      r'.protocol = maetoRouteProto → r.ident ≠ r'.ident := by
  unfold addRule
  split_ifs with hany
  · exact h.ruleKeys
  refine List.pairwise_append.mpr ⟨h.ruleKeys, List.pairwise_singleton _ _, ?_⟩
  intro r' hr' x hx hproto' _ hident
  rw [List.mem_singleton.mp hx] at hident
  cases nodeType with
  | pe =>
    exact hfresh rfl r' hr' hproto' ((KernelRule.key_object_congr hident).trans (hy.key hrule))
  | cpe =>
    -- Without an interface nothing tells the two rules apart.
    obtain ⟨-, -, -, hiif⟩ := hy.ownRule hrule
    obtain ⟨-, -, -, hiif'⟩ := h.ownRules r' hr' hproto'
    simp only [KernelRule.ident, Prod.mk.injEq] at hident
    refine hany (List.any_eq_true.mpr ⟨r', hr', decide_eq_true ?_⟩)
    exact ⟨hident.1, hident.2.1, hident.2.2.1, hident.2.2.2, hiif'.trans hiif.symm⟩

/-- A call that adds a resource keeps the kernel tidy, whatever it makes of it. On a provider
edge the key of a rule must not be there yet. -/
theorem Tidy.addStep (h : Tidy nodeType k) (hy : Fitting nodeType y) (hstep : AddStep k y k')
    (hfresh : nodeType = .pe → ∀ r ∈ k.rules, r.protocol = maetoRouteProto →
      r.object.key ≠ y.key) : Tidy nodeType k' where
  toMade := h.toMade.addStep hy hstep
  classes := by
    rw [hstep.classes_eq]
    exact h.classes
  ownLinks := by
    intro i l hl hgroup
    rcases hstep.lookup_cases hl with hl | ⟨v, rfl, -, rfl⟩ | ⟨x, rfl, hident⟩
    · exact h.ownLinks i l hl hgroup
    · exact hy
    · simp only [Link.ident, Prod.mk.injEq] at hident
      rw [hident.1, hident.2.2]
      exact hy
  ownVRFs := by
    intro i l t tenantID hl hkind hname
    rcases hstep.lookup_cases hl with hl | ⟨v, rfl, -, rfl⟩ | ⟨x, rfl, hident⟩
    · exact h.ownVRFs i l t tenantID hl hkind hname
    · rfl
    · simp only [Link.ident, Prod.mk.injEq] at hident
      exact hident.2.1
  otherRules := by
    intro r hr hproto
    rw [hstep.rules_eq] at hr
    rcases mem_of_mem_ruleElim hr with hr | hrule
    · exact h.otherRules r hr hproto
    · exact absurd (kernelRule_protocol hrule) hproto
  ruleKeys := by
    rw [hstep.rules_eq]
    cases hrule : y.kernelRule with
    | none => exact h.ruleKeys
    | some rule => exact h.pairwise_addRule hy hrule hfresh

theorem tidy_addCall (h : Tidy nodeType k) (hy : Fitting nodeType y)
    (hfresh : nodeType = .pe → ∀ r ∈ k.rules, r.protocol = maetoRouteProto →
      r.object.key ≠ y.key) : Tidy nodeType ((addCall documented y).2 k).2 := by
  by_cases hkind : y.kind = .classification
  · cases y with
    | classification c => exact h.changeClass _
    | _ => cases hkind
  · rw [addCall_documented hkind]
    exact h.addStep hy (addCall_step k y) hfresh

end Tidy

section Runs

variable {nodeType : NodeType} {k : Kernel}

theorem Tidy.base (h : Tidy nodeType k) : documented.ensureClassificationBase k = (none, k) := by
  obtain ⟨classes, hclasses⟩ := Option.isSome_iff_exists.mp h.classes
  change (none, { k with classes := some (k.classes.getD ∅) }) = (none, k)
  rw [hclasses, Option.getD_some, ← hclasses]

theorem addCall_documented_rules (k : Kernel) (y : Resource) :
    ((addCall documented y).2 k).2.rules = y.kernelRule.elim k.rules (addRule k.rules) := by
  by_cases hkind : y.kind = .classification
  · cases y with
    | classification c =>
      change (changeClass _ k).2.rules = k.rules
      rcases changeClass_state (.add [c.classifier.toUInt8] c.mark) k with
        hk | ⟨_, _, -, -, hk⟩
      · rw [hk]
      · rw [hk]
    | _ => cases hkind
  · rw [addCall_documented hkind, (addCall_step k y).rules_eq]

theorem tidy_removals (rs : List Resource) (h : Tidy nodeType k) :
    Tidy nodeType (removeAll documented rs k) ∧ (removeAll documented rs k).rules ⊆ k.rules := by
  refine List.foldlRecOn (motive := fun s => Tidy nodeType s ∧ s.rules ⊆ k.rules) rs _
    ⟨h, List.Subset.refl _⟩ ?_
  rintro s ⟨hs, hrules⟩ x -
  have hfewer := fewer_removeCall s x
  exact ⟨hs.of_fewer hfewer, List.Subset.trans hfewer.rules.subset hrules⟩

theorem tidy_additions (rs : List Resource) (hrs : ∀ y ∈ rs, Fitting nodeType y)
    (hnodup : (rs.map Resource.key).Nodup) (h : Tidy nodeType k)
    (hfresh : nodeType = .pe → ∀ y ∈ rs, ∀ r ∈ k.rules, r.protocol = maetoRouteProto →
      r.object.key ≠ y.key) : Tidy nodeType (addAll documented rs k) := by
  induction rs generalizing k with
  | nil => exact h
  | cons y rs ih =>
    rw [List.map_cons, List.nodup_cons] at hnodup
    refine ih (fun y' hy' => hrs y' (List.mem_cons_of_mem _ hy')) hnodup.2
      (tidy_addCall h (hrs y List.mem_cons_self) fun hpe => hfresh hpe y List.mem_cons_self) ?_
    rintro rfl y' hy' r hr hproto
    rw [addCall_documented_rules] at hr
    rcases mem_of_mem_ruleElim hr with hr | hrule
    · exact hfresh rfl y' (List.mem_cons_of_mem _ hy') r hr hproto
    · -- The new rule has the key of its resource, and no other resource has it.
      rw [(hrs y List.mem_cons_self).key hrule]
      exact fun heq => hnodup.1 (heq ▸ List.mem_map_of_mem hy')

theorem diff_add_keys_nodup {ord : PassOrders} {curr des : ResourceMap}
    (hkeys : ∀ key r, des.lookup key = some r → r.key = key) :
    ((byKinds additionOrder (diff ord curr des).add).map Resource.key).Nodup := by
  have hadd : ((diff ord curr des).add.map Resource.key).Nodup := by
    have hsame : (diff ord curr des).add.map Resource.key = keyDifference ord.add des curr := by
      change ((keyDifference ord.add des curr).filterMap des.lookup).map Resource.key = _
      rw [List.map_filterMap]
      refine (List.filterMap_congr fun key hkey => ?_).trans (List.filterMap_some)
      obtain ⟨⟨key, r⟩, hr, rfl⟩ := List.mem_map.mp (List.mem_of_mem_filter hkey)
      have hlookup := (mem_range _ _ _ _).mp hr
      rw [hlookup, Option.map_some, hkeys _ r hlookup]
    rw [hsame]
    exact (range_keys_nodup _ _).filter _
  rw [byKinds, List.map_flatMap, List.nodup_flatMap]
  refine ⟨fun kind _ => hadd.sublist (List.filter_sublist.map _), ?_⟩
  have hkinds : additionOrder.Nodup := by decide
  refine hkinds.imp fun {kind kind'} hne => ?_
  intro key hkey hkey'
  obtain ⟨r, hr, rfl⟩ := List.mem_map.mp hkey
  obtain ⟨r', hr', heq⟩ := List.mem_map.mp hkey'
  have hr := of_decide_eq_true (List.mem_filter.mp hr).2
  have hr' := of_decide_eq_true (List.mem_filter.mp hr').2
  exact hne (hr.symm.trans ((Resource.key_eq_iff.mp heq).1.symm.trans hr'))

theorem Tidy.apply (h : Tidy nodeType k) {ord : PassOrders} {fib : FIB} {i : Intent}
    {des : ResourceMap} (hread : readFIB documented k = .ok fib)
    (hrender : renderIntent ord.render i = .ok des) (hkind : i.nodeType = nodeType)
    (hlabels : LabelsBelow256 i) :
    Tidy nodeType (apply documented (diff ord (renderFIB fib) des) k).state := by
  obtain ⟨s, hbase, hstate⟩ := apply_state (d := diff ord (renderFIB fib) des)
    (show (Dataplane.apply documented _ k).err = none by rw [Dataplane.apply, h.base])
  cases h.base.symm.trans hbase
  rw [hstate]
  obtain ⟨hremoved, hrules⟩ :=
    tidy_removals (byKinds removalOrder (diff ord (renderFIB fib) des).remove) h
  have hlookup := fun key r => @renderIntent_lookup _ _ _ hrender key r
  refine tidy_additions _ ?_ (diff_add_keys_nodup fun key r hr => (hlookup key r hr).1) hremoved ?_
  · intro y hy
    obtain ⟨key, hkey, -⟩ := mem_diff_add.mp (mem_of_mem_byKinds hy)
    rw [← hkind]
    exact (hlookup key y hkey).2.fitting (Or.inl hlabels)
  · intro _ y hy r hr hproto heq
    obtain ⟨key, hkey, hnew⟩ := mem_diff_add.mp (mem_of_mem_byKinds hy)
    rw [← (hlookup key y hkey).1, ← heq] at hnew
    exact hnew ((mem_renderFIB hread _).mpr ⟨_, .rule r _ (hrules hr) (.rule hproto), rfl⟩)

theorem Tidy.reconcilePasses (h : Tidy nodeType k) {ords : ℕ → PassOrders} {ni : NodeIntent}
    (r : Reconciler) (hkind : ni.intent.nodeType = nodeType) (hlabels : LabelsBelow256 ni.intent)
    (n : ℕ) : Tidy nodeType (reconcilePasses documented ords ni r n k).state := by
  induction n generalizing k with
  | zero => exact h
  | succ n ih =>
    rw [Dataplane.reconcilePasses]
    cases hplan : plan documented (ords n) r ni k with
    | error err => exact h
    | ok resources =>
      obtain ⟨current, desired⟩ := resources
      obtain ⟨-, hrender, fib, hread, rfl⟩ := plan_eq_ok hplan
      have happlied := h.apply hread hrender hkind hlabels
      dsimp only
      split_ifs
      · exact h
      · split
        · exact happlied
        · exact ih happlied

/-- A kernel that no reconciler has worked on: there is nothing of ours, nobody else uses the
names of the VRFs or the priorities of the rules, and the classification is set up. -/
structure Untouched (k : Kernel) : Prop where
  classes : k.classes.isSome
  names : ∀ i j l l', k.links.lookup i = some l → k.links.lookup j = some l' → l.name = l'.name →
    i = j
  links : ∀ i l, k.links.lookup i = some l → l.group ≠ maetoLinkGroup
  vrfs : ∀ i l t tenantID, k.links.lookup i = some l → l.kind = .vrf t →
    l.name ≠ vrfTableName tenantID
  slots : k.routes.Pairwise fun r r' => r.slot ≠ r'.slot
  routes : ∀ r ∈ k.routes, r.protocol ≠ maetoRouteProto ∧ r.protocol ≠ maetoSIDProto ∧
    r.protocol ≠ maetoSIDSegsProto
  rules : ∀ r ∈ k.rules, r.protocol ≠ maetoRouteProto ∧ r.priority ≠ 80 ∧
    r.priority ≠ cpeRulePriority

/-- The kernels that reconcilers of a node type leave, whatever their reconciles returned. The
labels of the segment lists were below 256. -/
inductive Left (nodeType : NodeType) : Kernel → Prop
  | untouched {k : Kernel} (h : Untouched k) : Left nodeType k
  | reconcile {k : Kernel} (h : Left nodeType k) (r : Reconciler) (ords : ℕ → PassOrders)
      (ni : NodeIntent) (hkind : ni.intent.nodeType = nodeType)
      (hlabels : LabelsBelow256 ni.intent) :
      Left nodeType (reconcile documented ords r ni k).state

theorem Untouched.tidy (h : Untouched k) : Tidy nodeType k where
  classes := h.classes
  names := h.names
  ownLinks := fun i l hl hgroup => absurd hgroup (h.links i l hl)
  ownVRFs := fun i l t tenantID hl hkind hname => absurd hname (h.vrfs i l t tenantID hl hkind)
  slots := h.slots
  ownRoutes := fun r hr => ⟨fun hp => absurd hp (h.routes r hr).1,
    fun hp => absurd hp (h.routes r hr).1, fun hp => absurd hp (h.routes r hr).2.1,
    fun hp => absurd hp (h.routes r hr).2.2⟩
  ownRules := fun r hr hp => absurd hp (h.rules r hr).1
  otherRules := fun r hr _ => (h.rules r hr).2
  ruleKeys := List.Pairwise.imp_of_mem (R := fun _ _ => True)
    (fun hr _ _ hp => absurd hp (h.rules _ hr).1) (List.pairwise_of_forall fun _ _ => trivial)

theorem Left.tidy (h : Left nodeType k) : Tidy nodeType k := by
  induction h with
  | untouched h => exact h.tidy
  | reconcile h r ords ni hkind hlabels ih => exact ih.reconcilePasses r hkind hlabels maxPasses

end Runs

end Maeto.Dataplane
