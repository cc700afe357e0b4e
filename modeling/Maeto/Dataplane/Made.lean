import Maeto.Dataplane.Effects
import Maeto.Dataplane.Tables

/-!
# The forms of what the reconciler makes

The routes and rules of ours in a kernel on which only reconcilers of one node type have worked
have the forms that the additions give them, no two links have one name, and there is one route
for each table, destination and metric (`Made`). Every call keeps this, also one that fails
(`Made.of_fewer`, `Made.addStep`). The rules of such a kernel are told apart by what a removal
goes by (`OwnRule.ident_eq_of_selects`).
-/

namespace Maeto.Dataplane

open Foundation Netip Nodesync

section Forms

inductive OwnLink : NodeType → String → LinkKind → Prop
  | vrf (tenantID : String) :
      OwnLink .pe (vrfTableName tenantID) (.vrf (stringToID tenantID))
  | tunnel (tenantID : String) (ifID : UInt32) :
      OwnLink .pe (xfrmName tenantID ifID) (.xfrm ifID)
  | cpeTunnel (tenantID : String) (ifID : UInt32) :
      OwnLink .cpe (xfrmTunnelName tenantID) (.xfrm ifID)

structure OwnRoute (r : KernelRoute) : Prop where
  route : r.protocol = maetoRouteProto →
    r = Linux.vrfCatchAll r.table.toNat ∨ (r.metric = Kernel.userMetric r.dst ∧ r.dev ≠ "lo")
  gateway : r.protocol = maetoRouteProto → r.action.via = .invalid
  sid : r.protocol = maetoSIDProto → r.table = rtTableMain ∧
    r.metric = Kernel.userMetric r.dst ∧ r.dst.net.bits = some 128 ∧
      ∃ t, r.action = .seg6local .dt46 t
  srRoute : r.protocol = maetoSIDSegsProto → r.metric = Kernel.userMetric r.dst ∧ r.dev = "sr0" ∧
    ∃ segments, r.action = .seg6 segments

def OwnRule (r : KernelRule) : NodeType → Prop
  | .pe => r.priority = 80 ∧ r.src = none ∧ r.table.toNat / 2 ^ vrfTableBits = r.mark.toNat
  | .cpe => r.priority = cpeRulePriority ∧ r.src ≠ none ∧ r.mark = 0 ∧ r.iif = ""

def KernelRoute.slot (r : KernelRoute) : UInt32 × Network × ℕ := (r.table, r.dst, r.metric)

def KernelRule.ident (r : KernelRule) : ℤ × Option Network × UInt32 × UInt32 :=
  (r.priority, r.src, r.table, r.mark)

def KernelRule.object (r : KernelRule) : Resource :=
  .rule
    { priority := r.priority, src := r.src.map Network.net, table := r.table.toNat,
      mark := r.mark.toNat, iif := r.iif }

/-- The links have different names, the routes different places, and the routes and rules of ours
the forms that reconcilers of the node type give them. -/
structure Made (nodeType : NodeType) (k : Kernel) : Prop where
  names : k.NamesApart
  slots : k.routes.Pairwise fun r r' => r.slot ≠ r'.slot
  ownRoutes : ∀ r ∈ k.routes, OwnRoute r
  ownRules : ∀ r ∈ k.rules, r.protocol = maetoRouteProto → OwnRule r nodeType

variable {nodeType : NodeType}

theorem OwnRule.ident_eq_of_selects {r r' : KernelRule} (hown : OwnRule r nodeType)
    (hown' : OwnRule r' nodeType) (hsel : Kernel.ruleSelects r r' = true) : r'.ident = r.ident := by
  simp only [Kernel.ruleSelects, Bool.and_eq_true, decide_eq_true_eq] at hsel
  obtain ⟨⟨⟨⟨⟨hpriority, hsrc⟩, htable⟩, -⟩, -⟩, -⟩ := hsel
  cases nodeType with
  | pe =>
    obtain ⟨-, hnone, hmark⟩ := hown
    obtain ⟨-, hnone', hmark'⟩ := hown'
    have hmark : r'.mark = r.mark := UInt32.toNat_inj.mp (by rw [← hmark, ← hmark', htable])
    rw [KernelRule.ident, KernelRule.ident, hpriority, hnone, hnone', htable, hmark]
  | cpe =>
    obtain ⟨-, hsome, hmark, -⟩ := hown
    obtain ⟨-, -, hmark', -⟩ := hown'
    obtain ⟨src, hsrc'⟩ := Option.ne_none_iff_exists'.mp hsome
    rw [hsrc', Option.all_some, decide_eq_true_eq] at hsrc
    rw [KernelRule.ident, KernelRule.ident, hpriority, hsrc, hsrc', htable, hmark, hmark']

theorem KernelRule.key_object_congr {r r' : KernelRule} (h : r.ident = r'.ident) :
    r.object.key = r'.object.key := by
  simp only [KernelRule.ident, Prod.mk.injEq] at h
  obtain ⟨hpriority, hsrc, htable, hmark⟩ := h
  simp only [Resource.key, Resource.keyBody, Resource.kind, KernelRule.object, hpriority, hsrc,
    htable, hmark]

end Forms

section Kept

variable {nodeType : NodeType} {k k' : Kernel}

theorem Kernel.NamesApart.of_fewer (h : k.NamesApart) (hfewer : k.Fewer k') : k'.NamesApart := by
  intro i j l₁ l₂ hi hj hname
  obtain ⟨l, hl, hident⟩ := hfewer.links i l₁ hi
  obtain ⟨l', hl', hident'⟩ := hfewer.links j l₂ hj
  simp only [Link.ident, Prod.mk.injEq] at hident hident'
  exact h i j l l' hl hl' (by rw [← hident.1, hname, hident'.1])

theorem Kernel.NamesApart.insertLink (h : k.NamesApart) {l : Link}
    (hfree : k.linkAddError l = none) : (k.insertLink l).NamesApart := by
  intro i j l₁ l₂ hi hj hname
  rw [lookup_insertLink] at hi hj
  split_ifs at hi hj with hin hjn hjn
  · rw [hin, hjn]
  · cases hi
    exact absurd hname.symm (name_free_of_linkAddError hfree hj)
  · cases hj
    exact absurd hname (name_free_of_linkAddError hfree hi)
  · exact h i j l₁ l₂ hi hj hname

theorem fewer_linkSetMaster {i : ℕ} {master : Link} (hset : k.linkSetMaster i master = .ok k') :
    k.Fewer k' := by
  have hlookup := lookup_linkSetMaster hset
  unfold Kernel.linkSetMaster at hset
  split at hset
  · cases hset
    refine { Kernel.Fewer.refl k with links := fun j l' hl' => ?_ }
    rw [hlookup] at hl'
    obtain ⟨l, hl, rfl⟩ := Option.map_eq_some_iff.mp hl'
    refine ⟨l, hl, ?_⟩
    split_ifs <;> rfl
  · cases hset

theorem Kernel.NamesApart.addStep (h : k.NamesApart) {y : Resource} (hstep : AddStep k y k') :
    k'.NamesApart := by
  cases hstep with
  | refl | stored | rule | queued => exact h
  | vrf v hfree => exact h.insertLink hfree
  | tunnel x hfree hmaster => exact h.insertLink hfree
  | enslaved x vrf _ hfree hname hset =>
    exact (h.insertLink hfree).of_fewer (fewer_linkSetMaster hset)

theorem Made.of_fewer (h : Made nodeType k) (hfewer : k.Fewer k') : Made nodeType k' where
  names := h.names.of_fewer hfewer
  slots := h.slots.sublist hfewer.routes
  ownRoutes := fun r hr => h.ownRoutes r (hfewer.routes.subset hr)
  ownRules := fun r hr => h.ownRules r (hfewer.rules.subset hr)

theorem Made.routeReplace (h : Made nodeType k) {r : KernelRoute} (hr : OwnRoute r) :
    Made nodeType (k.routeReplace r) where
  names := h.names
  slots := by
    refine List.pairwise_append.mpr ⟨h.slots.sublist List.filter_sublist,
      List.pairwise_singleton _ _, ?_⟩
    intro r' hr' x hx heq
    rw [List.mem_singleton.mp hx] at heq
    simp only [KernelRoute.slot, Prod.mk.injEq] at heq
    exact of_decide_eq_true (List.mem_filter.mp hr').2 heq
  ownRoutes := by
    intro r' hr'
    rcases List.mem_append.mp hr' with hr' | hr'
    · exact h.ownRoutes r' (List.mem_of_mem_filter hr')
    · rw [List.mem_singleton.mp hr']
      exact hr
  ownRules := h.ownRules

theorem Made.insertLink (h : Made nodeType k) {l : Link} (hfree : k.linkAddError l = none) :
    Made nodeType (k.insertLink l) :=
  { h with names := h.names.insertLink hfree }

theorem Made.addRule (h : Made nodeType k) {r : KernelRule} (hr : OwnRule r nodeType) :
    Made nodeType { k with rules := addRule k.rules r } := by
  refine { h with ownRules := fun r' hr' hproto => ?_ }
  rcases mem_of_mem_addRule hr' with hr' | rfl
  · exact h.ownRules r' hr' hproto
  · exact hr

end Kept

section Additions

variable {nodeType : NodeType} {k k' : Kernel}

def Fitting (nodeType : NodeType) : Resource → Prop
  | .vrf v => OwnLink nodeType v.name (.vrf v.tableID)
  | .xfrm x => OwnLink nodeType x.name (.xfrm x.ifID)
  | .route r => r.via = .invalid ∧ r.dev ≠ "lo"
  | .rule r => ∀ rule, (Resource.rule r).kernelRule = some rule →
      OwnRule rule nodeType ∧ (nodeType = .pe → rule.object.key = (Resource.rule r).key)
  | _ => True

theorem OwnRoute.of_route {r : KernelRoute} (hproto : r.protocol = maetoRouteProto)
    (hvia : r.action.via = .invalid)
    (h : r = Linux.vrfCatchAll r.table.toNat ∨
      (r.metric = Kernel.userMetric r.dst ∧ r.dev ≠ "lo")) : OwnRoute r where
  route := fun _ => h
  gateway := fun _ => hvia
  sid := fun hp => absurd (hproto.symm.trans hp) (by decide)
  srRoute := fun hp => absurd (hproto.symm.trans hp) (by decide)

theorem OwnRoute.of_sid {r : KernelRoute} (hproto : r.protocol = maetoSIDProto)
    (h : r.table = rtTableMain ∧ r.metric = Kernel.userMetric r.dst ∧
      r.dst.net.bits = some 128 ∧ ∃ t, r.action = .seg6local .dt46 t) : OwnRoute r where
  route := fun hp => absurd (hproto.symm.trans hp) (by decide)
  gateway := fun hp => absurd (hproto.symm.trans hp) (by decide)
  sid := fun _ => h
  srRoute := fun hp => absurd (hproto.symm.trans hp) (by decide)

theorem OwnRoute.of_srRoute {r : KernelRoute} (hproto : r.protocol = maetoSIDSegsProto)
    (h : r.metric = Kernel.userMetric r.dst ∧ r.dev = "sr0" ∧
      ∃ segments, r.action = .seg6 segments) : OwnRoute r where
  route := fun hp => absurd (hproto.symm.trans hp) (by decide)
  gateway := fun hp => absurd (hproto.symm.trans hp) (by decide)
  sid := fun hp => absurd (hproto.symm.trans hp) (by decide)
  srRoute := fun _ => h

theorem ownRoute_vrfCatchAll (tableID : ℤ) : OwnRoute (Linux.vrfCatchAll tableID) :=
  .of_route rfl rfl (Or.inl (by simp [Linux.vrfCatchAll]))

theorem sidNet_bits {sid : Addr} {n : Network} (h : Linux.sidNet sid = some n) :
    n.net.bits = some 128 := by
  unfold Linux.sidNet prefixToIPNet at h
  split_ifs at h with his6
  cases h
  cases sid with
  | v6 a => simp [Prefix.masked, Prefix.prefixFrom, Addr.isValid, Addr.bitLen]
  | _ => cases his6

variable {y : Resource}

theorem Resource.StoredAs.ownRoute {r : KernelRoute} (h : y.StoredAs r)
    (hy : Fitting nodeType y) : OwnRoute r := by
  cases h with
  | catchAll v => exact ownRoute_vrfCatchAll _
  | route u net dev action hnet hunicast =>
    obtain ⟨rfl, rfl⟩ := hunicast (by rw [hy.1]; rfl)
    exact .of_route rfl rfl (Or.inr ⟨rfl, hy.2⟩)
  | srRoute s net hnet => exact .of_srRoute rfl ⟨rfl, rfl, _, rfl⟩
  | sid s net dev t hnet ht => exact .of_sid rfl ⟨rfl, rfl, sidNet_bits hnet, _, rfl⟩

theorem Fitting.ownRule (hy : Fitting nodeType y) {r : KernelRule}
    (hr : y.kernelRule = some r) : OwnRule r nodeType := by
  cases y with
  | rule rule => exact (hy r hr).1
  | _ => cases hr

theorem Fitting.key (hy : Fitting .pe y) {r : KernelRule}
    (hr : y.kernelRule = some r) : r.object.key = y.key := by
  cases y with
  | rule rule => exact (hy r hr).2 rfl
  | _ => cases hr

theorem Made.addStep (h : Made nodeType k) (hy : Fitting nodeType y)
    (hstep : AddStep k y k') : Made nodeType k' := by
  cases hstep with
  | refl => exact h
  | stored _ r hr => exact h.routeReplace (hr.ownRoute hy)
  | vrf v hfree => exact (h.insertLink hfree).routeReplace (ownRoute_vrfCatchAll _)
  | tunnel x hfree hmaster => exact h.insertLink hfree
  | enslaved x vrf _ hfree hname hset =>
    exact (h.insertLink hfree).of_fewer (fewer_linkSetMaster hset)
  | rule _ r hr => exact h.addRule (hy.ownRule hr)
  | queued c queue => exact { h with }

end Additions

section Intents

def LabelsBelow256 : Intent → Prop
  | .cpe _ => True
  | .pe pe => ∀ tenantID t, pe.tenants.lookup tenantID = some t →
      ∀ path ∈ t.installPaths, path.color.toNat < 256

variable {c : UInt64}

theorem intOfUInt64_of_lt (hc : c.toNat < 256) : intOfUInt64 c = c.toNat := by
  rw [intOfUInt64, BitVec.toInt_eq_toNat_of_lt, UInt64.toNat_toBitVec]
  rw [UInt64.toNat_toBitVec]
  omega

theorem colorTableID_of_lt {vrfTable : ℕ} (h : vrfTable < 2 ^ vrfTableBits) (hc : c.toNat < 256) :
    colorTableID vrfTable c = (uint32OfInt (colorTableID vrfTable c)).toNat := by
  have hbits : (2 : ℕ) ^ vrfTableBits = 16777216 := by decide
  rw [toNat_uint32OfInt_colorTableID h, colorTableID_eq h]
  rw [hbits] at h ⊢
  rw [Nat.mod_eq_of_lt (by omega), Nat.mod_eq_of_lt (by omega), Int.bmod_eq_of_le] <;> omega

theorem lt_of_sized_colorRule {tenantID : String}
    (h : (colorRule tenantID c).Sized) : c.toNat < 256 := by
  obtain ⟨-, t, m, -, htable, hmark⟩ := h
  have hbits : (2 : ℕ) ^ vrfTableBits = 16777216 := by decide
  have hlt := stringToID_lt tenantID
  have ht := t.toNat_lt
  have hm := m.toNat_lt
  have hc : c.toNat = m.toNat := by
    have hint : intOfUInt64 c = m.toNat := hmark
    have hbound := c.toNat_lt
    rw [intOfUInt64, BitVec.toInt_eq_toNat_cond, UInt64.toNat_toBitVec] at hint
    split_ifs at hint <;> omega
  have htable : colorTableID (stringToID tenantID).toNat c = t.toNat := htable
  rw [colorTableID_eq hlt, Int.bmod_eq_of_le] at htable
  · rw [hbits] at htable
    omega
  · omega
  · rw [hbits] at hlt ⊢
    omega

theorem fitting_colorRule (tenantID : String) (hc : c.toNat < 256) :
    Fitting .pe (colorRule tenantID c) := by
  have htable := colorTableID_of_lt (stringToID_lt tenantID) hc
  have hmark : intOfUInt64 c = (uint32OfInt (intOfUInt64 c)).toNat := by
    rw [intOfUInt64_of_lt hc, uint32OfInt, UInt32.toNat_ofNat']
    omega
  intro rule hrule
  cases hrule
  refine ⟨⟨rfl, rfl, ?_⟩, fun _ => ?_⟩
  · have hbits : (2 : ℕ) ^ vrfTableBits = 16777216 := by decide
    have hlt := stringToID_lt tenantID
    have hc' : ((uint32OfInt (intOfUInt64 c)).toNat : ℤ) = c.toNat := by
      rw [← hmark, intOfUInt64_of_lt hc]
    dsimp only
    rw [toNat_uint32OfInt_colorTableID hlt]
    rw [hbits] at hlt ⊢
    omega
  · simp only [Resource.key, Resource.keyBody, Resource.kind, KernelRule.object, ← htable, ← hmark]
    rfl

theorem IntentResource.fitting {i : Intent} {y : Resource} (h : IntentResource i y)
    (hlabels : LabelsBelow256 i ∨ y.Sized) : Fitting i.nodeType y := by
  have hdev : ∀ r : Route, IntentResource i (.route r) → r.dev ≠ "lo" := fun _ h => h.dev_ne_lo
  cases h with
  | classification => trivial
  | tunnel cpe => exact .cpeTunnel cpe.tenantID cpe.tunnelInterfaceID
  | tunnelDefault cpe => exact ⟨rfl, hdev _ (.tunnelDefault cpe)⟩
  | siteRule cpe =>
    intro rule hrule
    obtain ⟨net, -, rfl⟩ := Option.map_eq_some_iff.mp hrule
    have hmark : uint32OfInt 0 = 0 := by decide
    exact ⟨⟨rfl, Option.some_ne_none _, hmark, rfl⟩, fun h => NodeType.noConfusion h⟩
  | tenant pe tenantID t ht y hy =>
    have hdev' : ∀ r : Route, y = .route r → r.dev ≠ "lo" := fun r hr =>
      hdev r (.tenant pe tenantID t ht _ (hr ▸ hy))
    cases hy with
    | vrf => exact .vrf tenantID
    | sid => trivial
    | srRoute => trivial
    | rule path hpath hp =>
      refine fitting_colorRule tenantID ?_
      rcases hlabels with hlabels | hsized
      · exact hlabels tenantID t ht path hpath
      · exact lt_of_sized_colorRule hsized
    | portal id p hid y hy =>
      rw [renderPortal, List.mem_pair] at hy
      rcases hy with rfl | rfl
      · exact .tunnel tenantID p.tunnelInterfaceID
      · exact ⟨rfl, hdev' _ rfl⟩

end Intents

end Maeto.Dataplane
