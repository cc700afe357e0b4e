import Maeto.Dataplane.Objects

/-!
# What the calls change

What a call can make of the kernel is said once, for those that remove a resource in
`RemoveStep` and for those that add it in `AddStep`. A removal takes objects away, and
the links that refer to a link that is gone lose their reference (`RemoveStep.fewer`).
An addition leaves an object that carries the key and the values of the resource, and
with a VRF the unreachable default route of its table (`AddStep.gains`), provided that
the kernel can hold the key of the resource at all. The exception is a tunnel interface
whose VRF is not there: it is created without its master, and the call fails.
-/

namespace Maeto.Dataplane

open Foundation Netip GoMap Resource

section Primitives

variable {k : Kernel}

/-- No two links have the same name. -/
def Kernel.NamesApart (k : Kernel) : Prop :=
  ∀ i j l l', k.links.lookup i = some l → k.links.lookup j = some l' → l.name = l'.name → i = j

def Kernel.HasVRF (k : Kernel) (name : String) : Prop :=
  ∃ i l t, k.links.lookup i = some l ∧ l.name = name ∧ l.kind = .vrf t

variable {i : ℕ} {l : Link}

theorem linkByName_eq_some {name : String}
    (h : k.linkByName name = some (i, l)) : k.links.lookup i = some l ∧ l.name = name := by
  refine ⟨(mem_range _ _ _ _).mp (List.mem_of_find?_eq_some h), ?_⟩
  simpa using List.find?_some h

theorem linkByName_eq_none {name : String} (h : k.linkByName name = none)
    (hl : k.links.lookup i = some l) : l.name ≠ name := by
  intro hname
  have hall := List.find?_eq_none.mp h (i, l) ((mem_range _ _ _ _).mpr hl)
  exact hall (decide_eq_true hname)

theorem linkByIndex_eq_some {index : ℤ}
    (h : k.linkByIndex index = some (i, l)) : index = i ∧ k.links.lookup i = some l := by
  unfold Kernel.linkByIndex at h
  split_ifs at h with hpos
  obtain ⟨l', hl', heq⟩ := Option.map_eq_some_iff.mp h
  cases heq
  exact ⟨by omega, hl'⟩

theorem linkAdd_eq_ok {k' : Kernel} (h : k.linkAdd l = .ok k') :
    k.linkAddError l = none ∧ k' = k.insertLink l := by
  unfold Kernel.linkAdd at h
  split at h
  · cases h
  · rename_i hfree
    cases h
    exact ⟨hfree, rfl⟩

theorem name_free_of_linkAddError (h : k.linkAddError l = none) {l' : Link}
    (hl' : k.links.lookup i = some l') : l'.name ≠ l.name := by
  unfold Kernel.linkAddError at h
  split_ifs at h with _ _ hname
  exact linkByName_eq_none (Option.not_isSome_iff_eq_none.mp hname) hl'

theorem lookup_insertLink (k : Kernel) (l : Link) (i : ℕ) :
    (k.insertLink l).links.lookup i = if i = k.nextIndex then some l else k.links.lookup i :=
  lookup_insert_eq _ _ _ _

theorem lookup_insertLink_of_some {l' : Link} (h : k.links.lookup i = some l') :
    (k.insertLink l).links.lookup i = some l' := by
  rw [lookup_insertLink, if_neg (k.index_lt i (mem_iff.mpr ⟨_, h⟩)).2.ne, h]

theorem has_routeReplace {r : KernelRoute} {o : Resource} (h : (k.routeReplace r).Has o) :
    k.Has o ∨ RouteObject r o := by
  cases h with
  | classification key mark h => exact Or.inl (.classification key mark h)
  | link i l o h ho => exact Or.inl (.link i l o h ho)
  | rule r' o h ho => exact Or.inl (.rule r' o h ho)
  | route r' o h ho =>
    rcases List.mem_append.mp h with h | h
    · exact Or.inl (.route r' o (List.mem_of_mem_filter h) ho)
    · rw [List.mem_singleton.mp h] at ho
      exact Or.inr ho

theorem has_insertLink {o : Resource} (h : (k.insertLink l).Has o) :
    k.Has o ∨ LinkObject k.nextIndex l o := by
  cases h with
  | classification key mark h => exact Or.inl (.classification key mark h)
  | route r o h ho => exact Or.inl (.route r o h ho)
  | rule r o h ho => exact Or.inl (.rule r o h ho)
  | link i l' o h ho =>
    rw [lookup_insertLink] at h
    split_ifs at h with hi
    · cases h
      rw [hi] at ho
      exact Or.inr ho
    · exact Or.inl (.link i l' o h ho)

theorem routeDel_eq_ok {dst : Network} {table : UInt32} {protocol : ℕ} {metric : Option ℕ}
    {k' : Kernel} (h : k.routeDel dst table protocol metric = .ok k') :
    ∃ r ∈ k.routes, r.protocol = protocol ∧ (∀ n ∈ metric, r.metric = n) ∧
      k' = { k with routes := k.routes.erase r } := by
  unfold Kernel.routeDel at h
  split at h
  · cases h
  · rename_i r hmin
    cases h
    obtain ⟨hr, hmatch⟩ := List.mem_filter.mp (List.argmin_mem hmin)
    obtain ⟨-, -, hproto, hmetric⟩ := of_decide_eq_true hmatch
    refine ⟨r, hr, hproto, ?_, rfl⟩
    rintro n rfl
    exact of_decide_eq_true hmetric

end Primitives

section Removal

def Link.ident (l : Link) : String × ℕ × LinkKind := (l.name, l.group, l.kind)

/-- `k'` has no link, route, rule or class that `k` does not have, up to the references of the
links. -/
structure Kernel.Fewer (k k' : Kernel) : Prop where
  links : ∀ i l', k'.links.lookup i = some l' → ∃ l, k.links.lookup i = some l ∧ l'.ident = l.ident
  routes : k'.routes.Sublist k.routes
  rules : k'.rules.Sublist k.rules
  base : k.classes.isSome → k'.classes.isSome
  classes : ∀ key mark, (k'.classes.getD ∅).lookup key = some mark →
    (k.classes.getD ∅).lookup key = some mark

theorem Kernel.Fewer.refl (k : Kernel) : k.Fewer k where
  links := fun _ l' hl' => ⟨l', hl', rfl⟩
  routes := List.Sublist.refl _
  rules := List.Sublist.refl _
  base := id
  classes := fun _ _ h => h

variable {k : Kernel} {x : Resource}

theorem Kernel.Fewer.trans {k' k'' : Kernel} (h : k.Fewer k') (h' : k'.Fewer k'') :
    k.Fewer k'' where
  links := by
    intro i l'' hl''
    obtain ⟨l', hl', hident'⟩ := h'.links i l'' hl''
    obtain ⟨l, hl, hident⟩ := h.links i l' hl'
    exact ⟨l, hl, hident'.trans hident⟩
  routes := h'.routes.trans h.routes
  rules := h'.rules.trans h.rules
  base := fun hbase => h'.base (h.base hbase)
  classes := fun key mark hmark => h.classes key mark (h'.classes key mark hmark)

theorem lookup_linkDel (k : Kernel) (i : ℕ) (name : String) (j : ℕ) :
    (k.linkDel i name).links.lookup j =
      if j = i then none else (k.links.lookup j).map (Link.detach name) := by
  change (k.links.copyInto .listed
    (fun j l => if j = i then none else some (l.detach name)) ∅).lookup j = _
  rw [lookup_copyInto, AList.lookup_empty, Option.or_none]
  cases k.links.lookup j <;> split_ifs <;> rfl

theorem fewer_linkDel (k : Kernel) (i : ℕ) (name : String) : k.Fewer (k.linkDel i name) := by
  refine { Kernel.Fewer.refl k with links := fun j l' hl' => ?_, routes := List.filter_sublist }
  rw [lookup_linkDel] at hl'
  split_ifs at hl'
  obtain ⟨l, hl, rfl⟩ := Option.map_eq_some_iff.mp hl'
  exact ⟨l, hl, rfl⟩

def Resource.linkIndex : Resource → Option ℤ
  | .vrf v => some v.index
  | .xfrm x => some x.index
  | _ => none

theorem LinkObject.linkIndex {i : ℕ} {l : Link} {o : Resource} (h : LinkObject i l o) :
    o.observed.linkIndex = some (i : ℤ) := by
  cases h <;> rfl

def Resource.removedBy : Resource → Option (Network × UInt32 × ℕ)
  | .route r => (prefixToIPNet r.dst).map fun net => (net, uint32OfInt r.table, maetoRouteProto)
  | .srRoute s =>
    (prefixToIPNet s.routePrefix).map fun net => (net, uint32OfInt s.table, maetoSIDSegsProto)
  | .sid s => (Linux.sidNet s.sid).map fun net => (net, rtTableMain, maetoSIDProto)
  | _ => none

def Resource.kernelRule : Resource → Option KernelRule
  | .rule r => Linux.maetoRule r.priority r.src r.table r.mark r.iif
  | _ => none

inductive RemoveStep (k : Kernel) (x : Resource) : Kernel → Prop
  | refl (hlink : ∀ i l o, k.links.lookup i = some l → LinkObject i l o → o.kind = x.kind →
      x.linkIndex ≠ some (i : ℤ)) : RemoveStep k x k
  | route (r : KernelRoute) (hr : r ∈ k.routes)
      (hx : x.removedBy = some (r.dst, r.table, r.protocol)) :
      RemoveStep k x { k with routes := k.routes.erase r }
  | rule (r r' : KernelRule) (hx : x.kernelRule = some r) (hr' : r' ∈ k.rules)
      (hsel : Kernel.ruleSelects r r' = true) :
      RemoveStep k x { k with rules := k.rules.erase r' }
  | link (i : ℕ) (l : Link) (routes : List KernelRoute) (hx : x.linkIndex = some (i : ℤ))
      (hl : k.links.lookup i = some l) (hroutes : routes.Sublist k.routes)
      (hrest : ∀ r ∈ k.routes, r ∉ routes → r.protocol = maetoRouteProto ∧
        r.metric = vrfUnreachableMetricValue) :
      RemoveStep k x (({ k with routes } : Kernel).linkDel i l.name)
  | queued (queue : List ElementChange) (hx : x.kind = .classification) :
      RemoveStep k x { k with queue }

theorem removeRoute_state (s : Kernel) (net : Network) (table : UInt32) (protocol : ℕ)
    (missingOk : Bool) (message : String) :
    let s' := (Linux.removeRoute (some net) table protocol missingOk message s).2
    let Matches := fun r : KernelRoute => r.dst = net ∧ r.table = table ∧ r.protocol = protocol
    (∀ r ∈ s.routes, ¬ Matches r) ∧ s' = s ∨
      ∃ r ∈ s.routes, Matches r ∧ (∀ r' ∈ s.routes, Matches r' → r.metric ≤ r'.metric) ∧
        s' = { s with routes := s.routes.erase r } := by
  intro s' Matches
  have hs' : s' = (Linux.removeRoute (some net) table protocol missingOk message s).2 := rfl
  unfold Linux.removeRoute Kernel.routeDel at hs'
  dsimp only at hs'
  split at hs'
  · rename_i hdel
    split at hdel
    · cases hdel
    · rename_i r hmin
      cases hdel
      have hmem := List.mem_filter.mp (List.argmin_mem hmin)
      simp only [Option.all_none, and_true, decide_eq_true_eq] at hmem
      refine Or.inr ⟨r, hmem.1, hmem.2, ?_, hs'⟩
      intro r' hr' hmatch
      refine List.le_of_mem_argmin (List.mem_filter.mpr ⟨hr', ?_⟩) hmin
      simpa using hmatch
  · rename_i hdel
    split at hdel
    · rename_i hmin
      refine Or.inl ⟨?_, ?_⟩
      · intro r hr hmatch
        rw [List.argmin_eq_none, List.filter_eq_nil_iff] at hmin
        exact hmin r hr (by simpa using hmatch)
      · split_ifs at hs' <;> exact hs'
    · cases hdel

theorem routeDel_eq_error {dst : Network} {table : UInt32} {protocol : ℕ}
    {metric : Option ℕ} {err : Errno} (h : k.routeDel dst table protocol metric = .error err) :
    err = .esrch := by
  unfold Kernel.routeDel at h
  split at h
  · cases h
    rfl
  · cases h

theorem RemoveStep.of_linkIndex (hx : x.linkIndex = none) :
    RemoveStep k x k :=
  .refl fun _ _ _ _ _ _ h => Option.some_ne_none _ (h.symm.trans hx)

theorem removeStep_route (k : Kernel) (dst : Option Network) (table : UInt32)
    (protocol : ℕ) (missingOk : Bool) (message : String)
    (hx : x.removedBy = dst.map fun net => (net, table, protocol)) (hlink : x.linkIndex = none) :
    RemoveStep k x (Linux.removeRoute dst table protocol missingOk message k).2 := by
  cases dst with
  | none => exact .of_linkIndex hlink
  | some net =>
    rcases removeRoute_state k net table protocol missingOk message with
      ⟨-, hk⟩ | ⟨r, hr, ⟨rfl, rfl, rfl⟩, -, hk⟩
    · rw [hk]
      exact .of_linkIndex hlink
    · rw [hk]
      exact .route r hr hx

theorem linkByIndex_of_lookup {i : ℕ} {l : Link} (h : k.links.lookup i = some l) :
    k.linkByIndex i = some (i, l) := by
  have hpos : (0 : ℤ) < i := Int.natCast_pos.mpr (k.index_lt i (mem_iff.mpr ⟨_, h⟩)).1
  rw [Kernel.linkByIndex, if_pos hpos, Int.toNat_natCast, h, Option.map_some]

theorem RemoveStep.of_no_link {index : ℤ} (hx : x.linkIndex = some index)
    (h : ∀ i l, k.linkByIndex index = some (i, l) → ∀ o, LinkObject i l o → o.kind ≠ x.kind) :
    RemoveStep k x k := by
  refine .refl fun i l o hl ho hkind hi => ?_
  cases Option.some.inj (hx.symm.trans hi)
  exact h i l (linkByIndex_of_lookup hl) o ho hkind

theorem removeStep_vrf (k : Kernel) (v : VRF) :
    RemoveStep k (.vrf v) (Linux.removeVRF v.index k).2 := by
  unfold Linux.removeVRF
  cases hlink : k.linkByIndex v.index with
  | none =>
    exact .of_no_link rfl fun i l h => absurd (hlink.symm.trans h) (Option.some_ne_none _).symm
  | some il =>
    obtain ⟨i, l⟩ := il
    obtain ⟨hi, hl⟩ := linkByIndex_eq_some hlink
    dsimp only
    cases hkind : l.kind with
    | vrf table =>
      dsimp only
      split_ifs with hgroup
      · refine .of_no_link rfl fun i' l' h o ho => ?_
        cases hlink.symm.trans h
        cases ho <;> exact absurd (by assumption) hgroup
      · cases hdel : k.routeDel .default6 table maetoRouteProto
            (some vrfUnreachableMetricValue) with
        | ok k' =>
          obtain ⟨r, -, hproto, hmetric, rfl⟩ := routeDel_eq_ok hdel
          refine .link i l _ (congrArg some hi) hl List.erase_sublist fun r' hr' hnot => ?_
          have heq : r' = r := by
            by_contra hne
            exact hnot ((List.mem_erase_of_ne hne).mpr hr')
          rw [heq]
          exact ⟨hproto, hmetric _ rfl⟩
        | error err =>
          cases routeDel_eq_error hdel
          exact .link i l k.routes (congrArg some hi) hl (List.Sublist.refl _)
            fun r hr hnot => absurd hr hnot
    | _ =>
      refine .of_no_link rfl fun i' l' h o ho => ?_
      cases hlink.symm.trans h
      cases ho with
      | vrf t _ hvrf => cases hkind.symm.trans hvrf
      | xfrm => exact Kind.noConfusion

theorem removeStep_xfrm (k : Kernel) (x : XFRM) :
    RemoveStep k (.xfrm x) (Linux.removeXFRMInterface x.index k).2 := by
  unfold Linux.removeXFRMInterface
  cases hlink : k.linkByIndex x.index with
  | none =>
    exact .of_no_link rfl fun i l h => absurd (hlink.symm.trans h) (Option.some_ne_none _).symm
  | some il =>
    obtain ⟨i, l⟩ := il
    obtain ⟨hi, hl⟩ := linkByIndex_eq_some hlink
    dsimp only
    cases hkind : l.kind with
    | xfrm ifID =>
      dsimp only
      split_ifs with hgroup
      · refine .of_no_link rfl fun i' l' h o ho => ?_
        cases hlink.symm.trans h
        cases ho <;> exact absurd (by assumption) hgroup
      · exact .link i l k.routes (congrArg some hi) hl (List.Sublist.refl _)
          fun r hr hnot => absurd hr hnot
    | _ =>
      refine .of_no_link rfl fun i' l' h o ho => ?_
      cases hlink.symm.trans h
      cases ho with
      | vrf => exact Kind.noConfusion
      | xfrm t _ hxfrm => cases hkind.symm.trans hxfrm

theorem removeStep_rule (k : Kernel) (r : Rule) :
    RemoveStep k (.rule r) (Linux.removeRule r.priority r.src r.table r.mark r.iif k).2 := by
  unfold Linux.removeRule
  cases hrule : Linux.maetoRule r.priority r.src r.table r.mark r.iif with
  | none => exact .of_linkIndex rfl
  | some rule =>
    dsimp only
    unfold Kernel.ruleDel
    cases hfind : k.rules.find? (Kernel.ruleSelects rule) with
    | none => exact .of_linkIndex rfl
    | some r' =>
      exact .rule rule r' hrule (List.mem_of_find?_eq_some hfind) (List.find?_some hfind)

theorem removeCall_step (k : Kernel) (x : Resource) :
    RemoveStep k x ((removeCall linuxNetlink x).2 k).2 := by
  cases x with
  | vrf v => exact removeStep_vrf k v
  | xfrm x => exact removeStep_xfrm k x
  | route r => exact removeStep_route k _ _ _ _ _ rfl rfl
  | srRoute s => exact removeStep_route k _ _ _ _ _ rfl rfl
  | sid s => exact removeStep_route k _ _ _ _ _ rfl rfl
  | rule r => exact removeStep_rule k r
  | classification c =>
    change RemoveStep k _ (Linux.queueChange _ k).2
    unfold Linux.queueChange
    split
    · exact .of_linkIndex rfl
    · exact .queued _ rfl

theorem RemoveStep.fewer {k' : Kernel} (h : RemoveStep k x k') : k.Fewer k' := by
  cases h with
  | refl => exact .refl k
  | route r hr hx => exact { Kernel.Fewer.refl k with routes := List.erase_sublist }
  | rule r r' hx hr' hsel => exact { Kernel.Fewer.refl k with rules := List.erase_sublist }
  | link i l routes hx hl hroutes hrest =>
    have hfewer : k.Fewer { k with routes } := { Kernel.Fewer.refl k with routes := hroutes }
    exact hfewer.trans (fewer_linkDel _ i l.name)
  | queued queue hx => exact { Kernel.Fewer.refl k with }

theorem RemoveStep.links_eq {k' : Kernel} (h : RemoveStep k x k')
    (hx : x.linkName = none) : k'.links = k.links := by
  cases h with
  | refl | route | rule | queued => rfl
  | link i l routes hi =>
    cases x with
    | vrf | xfrm => cases hx
    | _ => cases hi

theorem kernelRule_protocol {r : Resource} {rule : KernelRule} (h : r.kernelRule = some rule) :
    rule.protocol = maetoRouteProto := by
  cases r with
  | rule r =>
    change Linux.maetoRule r.priority r.src r.table r.mark r.iif = some rule at h
    unfold Linux.maetoRule at h
    dsimp only at h
    split at h
    · cases h
      rfl
    · obtain ⟨net, -, rfl⟩ := Option.map_eq_some_iff.mp h
      rfl
  | _ => cases h

end Removal

section Outcomes

variable (k : Kernel)

@[simp] theorem uint32OfInt_toNat (n : UInt32) : uint32OfInt (n.toNat : ℤ) = n := by
  apply UInt32.toNat_inj.mp
  have := n.toNat_lt
  simp only [uint32OfInt, UInt32.toNat_ofNat']
  omega

/-- What `UpsertVRF` makes of the kernel: nothing when it fails, and the catch-all route
with the VRF that is there or a new one. -/
theorem upsertVRF_state (name : String) (tableID : ℤ) :
    let o := Linux.upsertVRF name tableID k
    o.1 ≠ none ∧ o.2 = k ∨
      (∃ i l, k.links.lookup i = some l ∧ l.name = name ∧ l.kind = .vrf (uint32OfInt tableID)) ∧
        o.2 = k.routeReplace (Linux.vrfCatchAll tableID) ∨
      k.linkAddError ⟨name, maetoLinkGroup, "", "", .vrf (uint32OfInt tableID)⟩ = none ∧
        o.2 = (k.insertLink
          ⟨name, maetoLinkGroup, "", "", .vrf (uint32OfInt tableID)⟩).routeReplace
            (Linux.vrfCatchAll tableID) := by
  unfold Linux.upsertVRF
  dsimp only
  split
  · rename_i k' hadd
    obtain ⟨hfree, rfl⟩ := linkAdd_eq_ok hadd
    exact Or.inr (Or.inr ⟨hfree, rfl⟩)
  · split
    · exact Or.inl ⟨Option.some_ne_none _, rfl⟩
    · rename_i i existing hexisting
      obtain ⟨hlookup, hname⟩ := linkByName_eq_some hexisting
      split
      · rename_i table hkind
        split_ifs with htable
        · exact Or.inl ⟨Option.some_ne_none _, rfl⟩
        · rw [not_not] at htable
          exact Or.inr (Or.inl ⟨⟨i, existing, hlookup, hname, by rw [hkind, htable]⟩, rfl⟩)
      · exact Or.inl ⟨Option.some_ne_none _, rfl⟩
  · exact Or.inl ⟨Option.some_ne_none _, rfl⟩

/-- The VRF that a new link is to be enslaved to is found and can be its master. -/
theorem linkSetMaster_of_hasVRF {k : Kernel} {l : Link} {name : String}
    (hfree : k.linkAddError l = none) (hnames : k.NamesApart) (hvrf : k.HasVRF name) :
    ∃ j vrf k', (k.insertLink l).linkByName name = some (j, vrf) ∧
      (k.insertLink l).linkSetMaster k.nextIndex vrf = .ok k' := by
  obtain ⟨i, v, t, hv, rfl, hkind⟩ := hvrf
  cases hfind : (k.insertLink l).linkByName v.name with
  | none => exact absurd rfl (linkByName_eq_none hfind (lookup_insertLink_of_some hv))
  | some jl =>
    obtain ⟨j, l'⟩ := jl
    obtain ⟨hl', hname⟩ := linkByName_eq_some hfind
    rw [lookup_insertLink] at hl'
    split_ifs at hl' with hj
    · cases hl'
      exact absurd hname.symm (name_free_of_linkAddError hfree hv)
    · cases hnames j i l' v hl' hv hname
      cases hl'.symm.trans hv
      have hset : ∃ k', (k.insertLink l).linkSetMaster k.nextIndex v = .ok k' := by
        unfold Kernel.linkSetMaster
        rw [hkind]
        exact ⟨_, rfl⟩
      obtain ⟨k', hset⟩ := hset
      exact ⟨i, v, k', rfl, hset⟩

/-- What `InsertXFRMInterface` makes of the kernel. The link is there without its master
when the call fails after it was created, for want of the VRF. -/
theorem insertXFRMInterface_state (name underlay : String) (ifID : UInt32)
    (master : Option String) :
    let link : Link := ⟨name, maetoLinkGroup, underlay, "", .xfrm ifID⟩
    let o := Linux.insertXFRMInterface name underlay ifID master k
    o.1 ≠ none ∧ o.2 = k ∨ k.linkAddError link = none ∧
      (((o.1 = none → master = none) ∧ ∀ n ∈ master, k.NamesApart → ¬ k.HasVRF n) ∧
          o.2 = k.insertLink link ∨
        ∃ vrf, master = some vrf.name ∧
          (k.insertLink link).linkSetMaster k.nextIndex vrf = .ok o.2) := by
  intro link o
  have ho : o = Linux.insertXFRMInterface name underlay ifID master k := rfl
  unfold Linux.insertXFRMInterface at ho
  split at ho
  · exact Or.inl ⟨by simp [ho], by rw [ho]⟩
  · rename_i i parent hparent
    obtain ⟨-, rfl⟩ := linkByName_eq_some hparent
    split at ho
    · exact Or.inl ⟨by simp [ho], by rw [ho]⟩
    · exact Or.inl ⟨by simp [ho], by rw [ho]⟩
    · rename_i k' hadd
      obtain ⟨hfree, rfl⟩ := linkAdd_eq_ok hadd
      refine Or.inr ⟨hfree, ?_⟩
      split at ho
      · exact Or.inl ⟨⟨fun _ => rfl, by simp⟩, by rw [ho]⟩
      · split at ho
        · rename_i n hnone
          refine Or.inl ⟨⟨by simp [ho], ?_⟩, by rw [ho]⟩
          rintro _ ⟨⟩ hnames hvrf
          obtain ⟨j, vrf, _, hsome, -⟩ := linkSetMaster_of_hasVRF hfree hnames hvrf
          cases hnone.symm.trans hsome
        · rename_i n j vrf hvrf
          obtain ⟨-, rfl⟩ := linkByName_eq_some hvrf
          split at ho
          · rename_i err hset
            refine Or.inl ⟨⟨by simp [ho], ?_⟩, by rw [ho]⟩
            rintro _ ⟨⟩ hnames hready
            obtain ⟨j', vrf', _, hsome, hok⟩ := linkSetMaster_of_hasVRF hfree hnames hready
            cases hvrf.symm.trans hsome
            cases hset.symm.trans hok
          · rename_i k'' hset
            exact Or.inr ⟨vrf, rfl, by rw [ho]; exact hset⟩

theorem insertPrefixRoute_state (dev : String) (tableID : ℤ) (dst : Prefix) (via : Addr) :
    (Linux.insertPrefixRoute dev tableID dst via k).1 ≠ none ∧
        (Linux.insertPrefixRoute dev tableID dst via k).2 = k ∨
      ∃ (net : Network) (outDev : String) (action : RouteAction), prefixToIPNet dst = some net ∧
        (via.isValid = false → outDev = dev ∧ action = .unicast) ∧
        (Linux.insertPrefixRoute dev tableID dst via k).2 = k.routeReplace
          { table := uint32OfInt tableID, dst := net, metric := Kernel.userMetric net,
            protocol := maetoRouteProto, dev := outDev, action } := by
  unfold Linux.insertPrefixRoute
  split
  · exact Or.inl ⟨Option.some_ne_none _, rfl⟩
  · rename_i net hnet
    dsimp only
    split_ifs with hvia
    · split
      · exact Or.inl ⟨Option.some_ne_none _, rfl⟩
      · exact Or.inr ⟨net, _, _, hnet, fun h => absurd (h.symm.trans hvia) (by decide), rfl⟩
    · split
      · exact Or.inl ⟨Option.some_ne_none _, rfl⟩
      · rename_i i iface hlink
        have hname := (linkByName_eq_some hlink).2
        split
        · exact Or.inr ⟨net, _, _, hnet, fun _ => ⟨hname, rfl⟩, rfl⟩
        · split_ifs
          · exact Or.inl ⟨Option.some_ne_none _, rfl⟩
          · exact Or.inr ⟨net, _, _, hnet, fun _ => ⟨hname, rfl⟩, rfl⟩

theorem insertSRRouteForPrefix_state (dst : Prefix) (tableID : ℤ) (segments : List Addr) :
    (Linux.insertSRRouteForPrefix dst tableID segments k).1 ≠ none ∧
        (Linux.insertSRRouteForPrefix dst tableID segments k).2 = k ∨
      ∃ net : Network, prefixToIPNet dst = some net ∧
        (Linux.insertSRRouteForPrefix dst tableID segments k).2 = k.routeReplace
          { table := uint32OfInt tableID, dst := net, metric := Kernel.userMetric net,
            protocol := maetoSIDSegsProto, dev := "sr0", action := .seg6 segments } := by
  unfold Linux.insertSRRouteForPrefix
  split_ifs
  · exact Or.inl ⟨Option.some_ne_none _, rfl⟩
  · split
    · exact Or.inl ⟨Option.some_ne_none _, rfl⟩
    · split
      · exact Or.inl ⟨Option.some_ne_none _, rfl⟩
      · rename_i i iface hlink
        split
        · exact Or.inl ⟨Option.some_ne_none _, rfl⟩
        · rename_i net hnet
          rw [(linkByName_eq_some hlink).2]
          exact Or.inr ⟨net, hnet, rfl⟩

theorem vrfByTable_eq_some {k : Kernel} {tableID : ℤ} {i : ℕ} {l : Link}
    (h : k.vrfByTable tableID = some (i, l)) : ∃ t : UInt32, tableID = t.toNat := by
  have hkind := List.find?_some h
  dsimp only at hkind
  split at hkind
  · exact ⟨_, (of_decide_eq_true hkind).symm⟩
  · cases hkind

theorem upsertDT46SID_state (sid : Addr) (tableID : ℤ) :
    (Linux.upsertDT46SID sid tableID k).1 ≠ none ∧ (Linux.upsertDT46SID sid tableID k).2 = k ∨
      ∃ (net : Network) (dev : String) (t : UInt32), Linux.sidNet sid = some net ∧
        tableID = t.toNat ∧
        (Linux.upsertDT46SID sid tableID k).2 = k.routeReplace
          { table := rtTableMain, dst := net, metric := Kernel.userMetric net,
            protocol := maetoSIDProto, dev, action := .seg6local .dt46 t } := by
  unfold Linux.upsertDT46SID
  split
  · exact Or.inl ⟨Option.some_ne_none _, rfl⟩
  · rename_i i vrf hvrf
    obtain ⟨t, rfl⟩ := vrfByTable_eq_some hvrf
    split
    · exact Or.inl ⟨Option.some_ne_none _, rfl⟩
    · rename_i net hnet
      rw [uint32OfInt_toNat]
      exact Or.inr ⟨net, vrf.name, t, hnet, rfl, rfl⟩

end Outcomes

section Steps

def VRF.link (v : VRF) : Link := ⟨v.name, maetoLinkGroup, "", "", .vrf v.tableID⟩

def XFRM.link (x : XFRM) : Link :=
  ⟨x.name, maetoLinkGroup, if x.parent = "" then "lo" else x.parent, "", .xfrm x.ifID⟩

inductive Resource.StoredAs : Resource → KernelRoute → Prop where
  | catchAll (v : VRF) : StoredAs (.vrf v) (Linux.vrfCatchAll v.tableID.toNat)
  | route (u : Route) (net : Network) (dev : String) (action : RouteAction)
      (hnet : prefixToIPNet u.dst = some net)
      (hunicast : u.via.isValid = false → dev = u.dev ∧ action = .unicast) :
      StoredAs (.route u)
        { table := uint32OfInt u.table, dst := net, metric := Kernel.userMetric net,
          protocol := maetoRouteProto, dev, action }
  | srRoute (s : SRRoute) (net : Network) (hnet : prefixToIPNet s.routePrefix = some net) :
      StoredAs (.srRoute s)
        { table := uint32OfInt s.table, dst := net, metric := Kernel.userMetric net,
          protocol := maetoSIDSegsProto, dev := "sr0", action := .seg6 s.segments }
  | sid (s : SID) (net : Network) (dev : String) (t : UInt32)
      (hnet : Linux.sidNet s.sid = some net) (ht : s.tableID = t.toNat) :
      StoredAs (.sid s)
        { table := rtTableMain, dst := net, metric := Kernel.userMetric net,
          protocol := maetoSIDProto, dev, action := .seg6local .dt46 t }

def addRule (rules : List KernelRule) (r : KernelRule) : List KernelRule :=
  if rules.any fun r' =>
      r'.priority = r.priority ∧ r'.src = r.src ∧ r'.table = r.table ∧ r'.mark = r.mark ∧
        r'.iif = r.iif then rules
  else rules ++ [r]

theorem mem_of_mem_addRule {rules : List KernelRule} {r r' : KernelRule}
    (h : r' ∈ addRule rules r) : r' ∈ rules ∨ r' = r := by
  unfold addRule at h
  split_ifs at h
  · exact Or.inl h
  · exact (List.mem_append.mp h).imp_right List.mem_singleton.mp

theorem has_addRule {k : Kernel} {rule : KernelRule} {o : Resource}
    (h : Kernel.Has { k with rules := addRule k.rules rule } o) :
    k.Has o ∨ RuleObject rule o := by
  cases h with
  | classification key mark h => exact Or.inl (.classification key mark h)
  | link i l o h ho => exact Or.inl (.link i l o h ho)
  | route r o h ho => exact Or.inl (.route r o h ho)
  | rule r o h ho =>
    rcases mem_of_mem_addRule h with h | rfl
    · exact Or.inl (.rule r o h ho)
    · exact Or.inr ho

theorem has_queue {k : Kernel} {queue : List ElementChange} {o : Resource}
    (h : Kernel.Has { k with queue } o) : k.Has o := by
  cases h with
  | classification key mark h => exact .classification key mark h
  | link i l o h ho => exact .link i l o h ho
  | route r o h ho => exact .route r o h ho
  | rule r o h ho => exact .rule r o h ho

/-- What the call that adds a resource can make of the kernel. -/
inductive AddStep (k : Kernel) : Resource → Kernel → Prop
  | refl (y : Resource) (hrule : y.kernelRule = none) : AddStep k y k
  | stored (y : Resource) (r : KernelRoute) (h : y.StoredAs r) : AddStep k y (k.routeReplace r)
  | vrf (v : VRF) (hfree : k.linkAddError v.link = none) :
      AddStep k (.vrf v)
        ((k.insertLink v.link).routeReplace (Linux.vrfCatchAll v.tableID.toNat))
  | tunnel (x : XFRM) (hfree : k.linkAddError x.link = none)
      (hmaster : x.masterVRF ≠ "" → k.NamesApart → ¬ k.HasVRF x.masterVRF) :
      AddStep k (.xfrm x) (k.insertLink x.link)
  | enslaved (x : XFRM) (vrf : Link) (k' : Kernel) (hfree : k.linkAddError x.link = none)
      (hname : vrf.name = x.masterVRF)
      (hset : (k.insertLink x.link).linkSetMaster k.nextIndex vrf = .ok k') :
      AddStep k (.xfrm x) k'
  | rule (y : Resource) (r : KernelRule) (hrule : y.kernelRule = some r) :
      AddStep k y { k with rules := addRule k.rules r }
  | queued (c : Classification) (queue : List ElementChange) :
      AddStep k (.classification c) { k with queue }

theorem addStep_vrf (k : Kernel) (v : VRF) :
    AddStep k (.vrf v) (Linux.upsertVRF v.name v.tableID.toNat k).2 := by
  rcases upsertVRF_state k v.name v.tableID.toNat with ⟨-, hk⟩ | ⟨-, hk⟩ | ⟨hfree, hk⟩
  · rw [hk]
    exact .refl _ rfl
  · rw [hk]
    exact .stored _ _ (.catchAll v)
  · rw [hk]
    rw [uint32OfInt_toNat] at hfree ⊢
    exact .vrf v hfree

theorem addStep_xfrm (k : Kernel) (x : XFRM) :
    AddStep k (.xfrm x) ((addCall linuxNetlink (.xfrm x)).2 k).2 := by
  change AddStep k (.xfrm x) (Linux.insertXFRMInterface _ _ _ _ k).2
  rcases insertXFRMInterface_state k x.name (if x.parent = "" then "lo" else x.parent) x.ifID
    (if x.masterVRF = "" then none else some x.masterVRF) with
    ⟨-, hk⟩ | ⟨hfree, ⟨⟨-, hvrf⟩, hk⟩ | ⟨vrf, hmaster, hset⟩⟩
  · rw [hk]
    exact .refl _ rfl
  · rw [hk]
    refine .tunnel x hfree fun hne => hvrf _ ?_
    rw [if_neg hne]
    rfl
  · refine .enslaved x vrf _ hfree ?_ hset
    split_ifs at hmaster
    exact (Option.some.inj hmaster).symm

theorem addStep_rule (k : Kernel) (r : Rule) :
    AddStep k (.rule r) (Linux.upsertRule r.priority r.src r.table r.mark r.iif k).2 := by
  unfold Linux.upsertRule
  cases hrule : Linux.maetoRule r.priority r.src r.table r.mark r.iif with
  | none => exact .refl _ hrule
  | some rule =>
    have hstep : AddStep k (.rule r) { k with rules := addRule k.rules rule } :=
      .rule _ rule hrule
    unfold addRule at hstep
    unfold Kernel.ruleAdd
    dsimp only
    split_ifs at hstep ⊢ <;> exact hstep

/-- A call that stores a route fails and changes nothing, or stores it. -/
theorem addCall_stored (k : Kernel) {y : Resource}
    (hkind : y.kind = .route ∨ y.kind = .sid ∨ y.kind = .srRoute) :
    ((addCall linuxNetlink y).2 k).1 ≠ none ∧ ((addCall linuxNetlink y).2 k).2 = k ∨
      ∃ r, y.StoredAs r ∧ ((addCall linuxNetlink y).2 k).2 = k.routeReplace r := by
  cases y with
  | route r =>
    refine (insertPrefixRoute_state k r.dev r.table r.dst r.via).imp_right ?_
    rintro ⟨net, dev, action, hnet, hunicast, hk⟩
    exact ⟨_, .route r net dev action hnet hunicast, hk⟩
  | srRoute s =>
    refine (insertSRRouteForPrefix_state k s.routePrefix s.table s.segments).imp_right ?_
    rintro ⟨net, hnet, hk⟩
    exact ⟨_, .srRoute s net hnet, hk⟩
  | sid s =>
    refine (upsertDT46SID_state k s.sid s.tableID).imp_right ?_
    rintro ⟨net, dev, t, hnet, ht, hk⟩
    exact ⟨_, .sid s net dev t hnet ht, hk⟩
  | _ => simp [Resource.kind] at hkind

theorem addStep_stored (k : Kernel) {y : Resource}
    (hkind : y.kind = .route ∨ y.kind = .sid ∨ y.kind = .srRoute) :
    AddStep k y ((addCall linuxNetlink y).2 k).2 := by
  rcases addCall_stored k hkind with ⟨-, hk⟩ | ⟨r, hr, hk⟩
  · rw [hk]
    refine .refl _ ?_
    cases y with
    | rule => simp [Resource.kind] at hkind
    | _ => rfl
  · rw [hk]
    exact .stored _ r hr

theorem addCall_step (k : Kernel) (y : Resource) :
    AddStep k y ((addCall linuxNetlink y).2 k).2 := by
  cases y with
  | vrf v => exact addStep_vrf k v
  | xfrm x => exact addStep_xfrm k x
  | rule r => exact addStep_rule k r
  | route | srRoute | sid => exact addStep_stored k (by simp [Resource.kind])
  | classification c =>
    change AddStep k _ (Linux.queueChange _ k).2
    unfold Linux.queueChange
    split
    · exact .refl _ rfl
    · exact .queued c _

theorem lookup_linkSetMaster {k k' : Kernel} {i : ℕ} {master : Link}
    (h : k.linkSetMaster i master = .ok k') (j : ℕ) :
    k'.links.lookup j =
      (k.links.lookup j).map fun l => if j = i then { l with master := master.name } else l := by
  unfold Kernel.linkSetMaster at h
  split at h
  · cases h
    dsimp only
    rw [lookup_copyInto, AList.lookup_empty, Option.or_none]
    cases k.links.lookup j <;> rfl
  · cases h

theorem linkSetMaster_eq {k k' : Kernel} {i : ℕ} {master : Link}
    (h : k.linkSetMaster i master = .ok k') :
    k'.routes = k.routes ∧ k'.rules = k.rules ∧ k'.classes = k.classes := by
  unfold Kernel.linkSetMaster at h
  split at h
  · cases h
    exact ⟨rfl, rfl, rfl⟩
  · cases h

variable {k k' : Kernel} {y : Resource} {i : ℕ} {l : Link}

theorem AddStep.rules_eq (h : AddStep k y k') :
    k'.rules = y.kernelRule.elim k.rules (addRule k.rules) := by
  cases h with
  | refl _ hrule =>
    rw [hrule]
    rfl
  | stored _ route hstored => cases hstored <;> rfl
  | vrf | tunnel | queued => rfl
  | enslaved x vrf _ hfree hname hset => exact (linkSetMaster_eq hset).2.1
  | rule _ rule hrule =>
    rw [hrule]
    rfl

theorem AddStep.classes_eq (h : AddStep k y k') : k'.classes = k.classes := by
  cases h with
  | refl | stored | vrf | tunnel | queued | rule => rfl
  | enslaved x vrf _ hfree hname hset => exact (linkSetMaster_eq hset).2.2

/-- A route that is new after an addition is stored for the resource. -/
theorem AddStep.routes_cases (h : AddStep k y k') {r : KernelRoute} (hr : r ∈ k'.routes) :
    r ∈ k.routes ∨ y.StoredAs r := by
  have hreplace : ∀ {k₁ : Kernel} {r₁ : KernelRoute}, r ∈ (k₁.routeReplace r₁).routes →
      r ∈ k₁.routes ∨ r = r₁ := fun hmem =>
    (List.mem_append.mp hmem).imp List.mem_of_mem_filter List.mem_singleton.mp
  cases h with
  | refl | tunnel | queued | rule => exact Or.inl hr
  | stored _ r₁ hstored =>
    rcases hreplace hr with hr | rfl
    · exact Or.inl hr
    · exact Or.inr hstored
  | vrf v hfree =>
    rcases hreplace hr with hr | rfl
    · exact Or.inl hr
    · exact Or.inr (.catchAll v)
  | enslaved x vrf _ hfree hname hset =>
    rw [(linkSetMaster_eq hset).1] at hr
    exact Or.inl hr

/-- An addition leaves every link as it is. -/
theorem AddStep.lookup_of_some (h : AddStep k y k') (hl : k.links.lookup i = some l) :
    k'.links.lookup i = some l := by
  cases h with
  | refl | stored | rule | queued => exact hl
  | vrf v hfree => exact lookup_insertLink_of_some hl
  | tunnel x hfree hmaster => exact lookup_insertLink_of_some hl
  | enslaved x vrf _ hfree hname hset =>
    have hne := (k.index_lt i (mem_iff.mpr ⟨_, hl⟩)).2.ne
    rw [lookup_linkSetMaster hset, lookup_insertLink_of_some hl, Option.map_some, if_neg hne]

/-- A link that is new after an addition is that of the resource. -/
theorem AddStep.lookup_cases (h : AddStep k y k') (hl : k'.links.lookup i = some l) :
    k.links.lookup i = some l ∨ (∃ v, y = .vrf v ∧ k.linkAddError v.link = none ∧ l = v.link) ∨
      ∃ x, y = .xfrm x ∧ l.ident = x.link.ident := by
  cases h with
  | refl | stored | rule | queued => exact Or.inl hl
  | vrf v hfree =>
    have hl : (k.insertLink v.link).links.lookup i = some l := hl
    rw [lookup_insertLink] at hl
    split_ifs at hl
    · exact Or.inr (Or.inl ⟨v, rfl, hfree, (Option.some.inj hl).symm⟩)
    · exact Or.inl hl
  | tunnel x hfree hmaster =>
    rw [lookup_insertLink] at hl
    split_ifs at hl
    · exact Or.inr (Or.inr ⟨x, rfl, by rw [Option.some.inj hl]⟩)
    · exact Or.inl hl
  | enslaved x vrf _ hfree hname hset =>
    rw [lookup_linkSetMaster hset, lookup_insertLink] at hl
    split_ifs at hl
    · exact Or.inr (Or.inr ⟨x, rfl, by rw [← Option.some.inj hl]; rfl⟩)
    · obtain ⟨l', hl', rfl⟩ := Option.map_eq_some_iff.mp hl
      exact Or.inl hl'

end Steps

section Addition

@[simp] theorem Network.prefixToIPNet_net (n : Network) : prefixToIPNet n.net = some n := by
  unfold prefixToIPNet
  rw [dif_pos ⟨by rw [n.masked]; exact n.valid, by rw [n.masked, n.masked]⟩]
  obtain ⟨net, valid, masked⟩ := n
  simp [masked]

/-- The object that adding a resource is meant to leave. -/
def Carries (o r : Resource) : Prop := o.key = r.key ∧ o.unkeyed = r.unkeyed

def Holdable (r : Resource) : Prop := ∃ (k : Kernel) (o : Resource), k.Has o ∧ o.key = r.key

theorem has_linkSetMaster {k k' : Kernel} {l master : Link} {o : Resource}
    (hset : (k.insertLink l).linkSetMaster k.nextIndex master = .ok k') (h : k'.Has o) :
    k.Has o ∨ LinkObject k.nextIndex { l with master := master.name } o := by
  obtain ⟨hroutes, hrules, hclasses⟩ := linkSetMaster_eq hset
  cases h with
  | classification key mark h => exact Or.inl (.classification key mark (hclasses ▸ h))
  | route r o h ho => exact Or.inl (.route r o (hroutes ▸ h) ho)
  | rule r o h ho => exact Or.inl (.rule r o (hrules ▸ h) ho)
  | link i l' o h ho =>
    rw [lookup_linkSetMaster hset, lookup_insertLink] at h
    split_ifs at h with hi
    · cases h
      rw [hi] at ho
      exact Or.inr ho
    · obtain ⟨l₀, hl₀, rfl⟩ := Option.map_eq_some_iff.mp h
      exact Or.inl (.link i l₀ o hl₀ ho)

def Resource.Sized : Resource → Prop
  | .route r => ∃ (t : UInt32) (n : Network), r.table = t.toNat ∧ r.dst = n.net
  | .srRoute s => ∃ (t : UInt32) (n : Network), s.table = t.toNat ∧ s.routePrefix = n.net
  | .rule r => ∃ (src : Option Network) (t m : UInt32),
      r.src = src.map Network.net ∧ r.table = t.toNat ∧ r.mark = m.toNat
  | .sid s => s.vrfTableID = 0
  | .classification c => c.classifier.toUInt8.toUInt32 = c.classifier
  | .vrf _ | .xfrm _ => True

theorem Kernel.Has.sized {k : Kernel} {o : Resource} (h : k.Has o) : o.Sized := by
  cases h with
  | classification key mark hmark => simp [Resource.Sized]
  | link i l _ hl ho => cases ho <;> trivial
  | rule r _ hr ho =>
    cases ho
    exact ⟨r.src, r.table, r.mark, rfl, rfl, rfl⟩
  | route r _ hr ho =>
    cases ho with
    | route => exact ⟨r.table, r.dst, rfl, rfl⟩
    | sid => rfl
    | srRoute => exact ⟨r.table, r.dst, rfl, rfl⟩

theorem Holdable.sized {r : Resource} (h : Holdable r) : r.Sized := by
  obtain ⟨k, o, ho, hkey⟩ := h
  obtain ⟨hkind, hbody⟩ := key_eq_iff.mp hkey
  have hreadable := ho.readable
  have hsized := ho.sized
  cases o with
  | vrf | xfrm =>
    cases r with
    | vrf | xfrm => trivial
    | _ => cases hkind
  | route r₀ =>
    cases r with
    | route r =>
      obtain ⟨htable, hdst, -⟩ := keyBody_route hreadable hbody
      rwa [Resource.Sized, htable, hdst] at hsized
    | _ => cases hkind
  | srRoute s₀ =>
    cases r with
    | srRoute s =>
      obtain ⟨htable, hdst, -⟩ := keyBody_srRoute hreadable hbody
      rwa [Resource.Sized, htable, hdst] at hsized
    | _ => cases hkind
  | rule r₀ =>
    cases r with
    | rule r =>
      obtain ⟨-, hsrc, htable, hmark⟩ := keyBody_rule hreadable hbody
      rwa [Resource.Sized, hsrc, htable, hmark] at hsized
    | _ => cases hkind
  | sid s₀ =>
    cases r with
    | sid s =>
      obtain ⟨-, -, htable⟩ := keyBody_sid hbody
      exact htable.symm.trans hsized
    | _ => cases hkind
  | classification c₀ =>
    cases r with
    | classification c =>
      rw [← keyBody_classification hbody]
      exact hsized
    | _ => cases hkind

theorem sidNet_eq_some {sid : Addr} {n : Network} (h : Linux.sidNet sid = some n) :
    n.net.ip = sid := by
  unfold Linux.sidNet prefixToIPNet at h
  split_ifs at h with his6
  cases h
  cases sid with
  | v6 a => simp [Prefix.masked, Prefix.prefixFrom, Addr.isValid, Addr.bitLen]
  | _ => cases his6

/-- What the additions rely on: routes without a gateway, and SIDs of the one kind
that can be stored. -/
def Resource.Plain : Resource → Prop
  | .route r => r.via = .invalid
  | .sid s => s.sidType = .dt46
  | _ => True

/-- A route that is stored for a resource carries it, or is the catch-all of a VRF. -/
theorem Resource.StoredAs.carries {y o : Resource} {r : KernelRoute} (h : y.StoredAs r)
    (hsized : y.Sized) (hplain : y.Plain) (ho : RouteObject r o) :
    Carries o y ∨ ∃ v, y = .vrf v ∧ r = Linux.vrfCatchAll v.tableID.toNat := by
  cases h with
  | catchAll v => exact Or.inr ⟨v, rfl, rfl⟩
  | route u net dev action hnet hunicast =>
    obtain ⟨t, n, htable, hdst⟩ := hsized
    have hvia : u.via = .invalid := hplain
    obtain ⟨rfl, rfl⟩ := hunicast (by rw [hvia]; rfl)
    rw [hdst, Network.prefixToIPNet_net] at hnet
    cases hnet
    rw [ho.eq (.route rfl)]
    refine Or.inl ⟨?_, by simp [Resource.unkeyed, RouteAction.via, hvia]⟩
    simp [Resource.key, Resource.keyBody, Resource.kind, htable, hdst]
  | srRoute s net hnet =>
    obtain ⟨t, n, htable, hdst⟩ := hsized
    rw [hdst, Network.prefixToIPNet_net] at hnet
    cases hnet
    rw [ho.eq (.srRoute _ rfl rfl)]
    refine Or.inl ⟨?_, rfl⟩
    simp [Resource.key, Resource.keyBody, Resource.kind, htable, hdst]
  | sid s net dev t hnet ht =>
    have htype : s.sidType = .dt46 := hplain
    have hvrf : s.vrfTableID = 0 := hsized
    rw [ho.eq (.sid .dt46 t rfl rfl)]
    refine Or.inl ⟨?_, by simp [Resource.unkeyed, ht]⟩
    simp [Resource.key, Resource.keyBody, Resource.kind, htype, hvrf, sidNet_eq_some hnet]

theorem maetoRule_of_sized {r : Rule} (h : (Resource.rule r).Sized) :
    ∃ rule, (Resource.rule r).kernelRule = some rule ∧ ∀ o, RuleObject rule o →
      Carries o (.rule r) := by
  obtain ⟨src, t, m, hsrc, htable, hmark⟩ := h
  refine ⟨⟨r.priority, src, t, m, r.iif, maetoRouteProto⟩, ?_, fun o ho => ?_⟩
  · change Linux.maetoRule r.priority r.src r.table r.mark r.iif = _
    unfold Linux.maetoRule
    cases src <;> simp [hsrc, htable, hmark]
  · cases ho
    refine ⟨?_, rfl⟩
    simp [Resource.key, Resource.keyBody, Resource.kind, hsrc, htable, hmark]

theorem LinkObject.eq {i : ℕ} {l : Link} {o o' : Resource} (h : LinkObject i l o)
    (h' : LinkObject i l o') : o = o' := by
  cases h with
  | vrf t hgroup hkind =>
    cases h' with
    | vrf t' _ hkind' =>
      cases hkind.symm.trans hkind'
      rfl
    | xfrm _ _ hkind' => cases hkind.symm.trans hkind'
  | xfrm ifID hgroup hkind =>
    cases h' with
    | vrf _ _ hkind' => cases hkind.symm.trans hkind'
    | xfrm ifID' _ hkind' =>
      cases hkind.symm.trans hkind'
      rfl

theorem XFRM.link_object {x : XFRM} {i : ℕ} {master : String} {o : Resource}
    (h : LinkObject i { x.link with master } o) :
    o.key = (Resource.xfrm x).key ∧
      (master = x.masterVRF → o.unkeyed = (Resource.xfrm x).unkeyed) := by
  cases h with
  | vrf _ _ hkind => cases hkind
  | xfrm ifID _ hkind =>
    cases hkind
    refine ⟨rfl, ?_⟩
    rintro rfl
    by_cases hparent : x.parent = "" <;> simp [Resource.unkeyed, XFRM.link, hparent]

variable {k k' : Kernel} {y o : Resource}

/-- What is new after an addition has the key of the resource or is the catch-all of a VRF. It
also has the values of the resource, unless it is a tunnel interface whose VRF is not there. -/
theorem AddStep.gains (h : AddStep k y k') (hsized : y.Sized) (hplain : y.Plain) (ho : k'.Has o) :
    k.Has o ∨ (o.key = y.key ∧ ((∀ x, y = .xfrm x → x.masterVRF ≠ "" →
      k.NamesApart ∧ k.HasVRF x.masterVRF) → o.unkeyed = y.unkeyed)) ∨
      ∃ v, y = .vrf v ∧ RouteObject (Linux.vrfCatchAll v.tableID.toNat) o := by
  cases h with
  | refl => exact Or.inl ho
  | stored _ r hr =>
    refine (has_routeReplace ho).imp_right fun hobject => ?_
    rcases hr.carries hsized hplain hobject with ⟨hkey, hvalues⟩ | ⟨v, rfl, rfl⟩
    · exact Or.inl ⟨hkey, fun _ => hvalues⟩
    · exact Or.inr ⟨v, rfl, hobject⟩
  | vrf v hfree =>
    rcases has_routeReplace ho with ho | hobject
    · refine (has_insertLink ho).imp_right fun hlink => Or.inl ?_
      rw [hlink.eq (.vrf v.tableID rfl rfl)]
      exact ⟨rfl, fun _ => rfl⟩
    · exact Or.inr (Or.inr ⟨v, rfl, hobject⟩)
  | tunnel x hfree hvrf =>
    refine (has_insertLink ho).imp_right fun hlink => Or.inl ?_
    obtain ⟨hkey, hvalues⟩ := XFRM.link_object hlink
    refine ⟨hkey, fun hmaster => hvalues ?_⟩
    by_contra hne
    exact hvrf (Ne.symm hne) (hmaster x rfl (Ne.symm hne)).1 (hmaster x rfl (Ne.symm hne)).2
  | enslaved x vrf _ hfree hname hset =>
    refine (has_linkSetMaster hset ho).imp_right fun hlink => Or.inl ?_
    obtain ⟨hkey, hvalues⟩ := XFRM.link_object hlink
    exact ⟨hkey, fun _ => hvalues hname⟩
  | rule _ rule hrule =>
    cases y with
    | rule r =>
      obtain ⟨rule', hrule', hobject⟩ := maetoRule_of_sized hsized
      cases hrule'.symm.trans hrule
      exact (has_addRule ho).imp_right fun ho =>
        Or.inl ⟨(hobject o ho).1, fun _ => (hobject o ho).2⟩
    | _ => cases hrule
  | queued c queue => exact Or.inl (has_queue ho)

end Addition

end Maeto.Dataplane
