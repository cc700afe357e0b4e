import Maeto.Dataplane.Leaving

/-!
# What a converged reconcile has installed

`Reconcile` returns without an error when the keys of the objects in the kernel are
the keys that the intent asks for. Every resource then has an object with its key,
and it is installed in full when such objects also agree with it in the values that
keys leave out.

Nothing in `Reconcile` looks at these values, so an object that was there before with
a key that is asked for keeps the values it had, unless it goes with a link. What is left
once the links that are not asked for are gone stays, and what is added has the right
values. So everything is installed when what is left has the values asked for, and in a
kernel of the forms that the reconciler makes only then (`reconcile_installed`).
-/

namespace Maeto.Dataplane

open Foundation Netip Nodesync GoMap AList Resource

/-- The objects of the kernel with the key of the resource are there and agree with
it in everything that `Apply` writes. -/
def Installed (k : Kernel) (r : Resource) : Prop :=
  (∃ o, k.Has o ∧ o.key = r.key) ∧ ∀ o, k.Has o → o.key = r.key → o.written = r.written

/-- The objects that have a key asked for also have the values asked for. -/
def KeysTell (desired : ResourceMap) (k : Kernel) : Prop :=
  ∀ key r o, desired.lookup key = some r → k.Has o → o.key = r.key → o.unkeyed = r.unkeyed

section Keys

variable {k : Kernel} {fib : FIB}

theorem mem_renderFIB (h : readFIB linuxNetlink k = .ok fib) (key : String) :
    key ∈ renderFIB fib ↔ ∃ o, k.Has o ∧ o.key = key := by
  rw [renderFIB, storeAll, mem_collect]
  constructor
  · rintro ⟨x, hx, rfl⟩
    obtain ⟨o, ho, rfl⟩ := (mem_resources_of_readFIB h x).mp hx
    exact ⟨o, ho, o.observed_key.symm⟩
  · rintro ⟨o, ho, rfl⟩
    exact ⟨_, (mem_resources_of_readFIB h _).mpr ⟨o, ho, rfl⟩, o.observed_key⟩

theorem of_lookup_renderFIB (h : readFIB linuxNetlink k = .ok fib) {key : String} {x : Resource}
    (hx : (renderFIB fib).lookup key = some x) : ∃ o, k.Has o ∧ o.observed = x ∧ o.key = key := by
  obtain ⟨hmem, hkey⟩ := of_lookup_collect hx
  obtain ⟨o, ho, rfl⟩ := (mem_resources_of_readFIB h x).mp hmem
  exact ⟨o, ho, rfl, o.observed_key.symm.trans hkey⟩

theorem Converged.keys {ords : ℕ → PassOrders} {ni : NodeIntent} {r : Reconciler}
    (h : Converged linuxNetlink ords ni r k) :
    ∃ n < maxPasses, ∃ desired, renderIntent (ords n).render ni.intent = .ok desired ∧
      ∀ key, key ∈ desired ↔ ∃ o, k.Has o ∧ o.key = key := by
  obtain ⟨n, hn, current, desired, hplan, hadd, hremove⟩ := h
  obtain ⟨-, hrender, fib, hread, rfl⟩ := plan_eq_ok hplan
  refine ⟨n, hn, desired, hrender, ?_⟩
  intro key
  rw [← keys_eq_of_diff_nil hadd hremove, mem_renderFIB hread]

/-- When the objects have exactly the keys asked for, everything is installed if and
only if the values beside the keys are right. -/
theorem installed_iff_keysTell {desired : ResourceMap}
    (hkey : ∀ key r, desired.lookup key = some r → r.key = key)
    (hkeys : ∀ key, key ∈ desired ↔ ∃ o, k.Has o ∧ o.key = key) :
    (∀ key r, desired.lookup key = some r → Installed k r) ↔ KeysTell desired k := by
  constructor
  · intro h key r o hr ho hokey
    exact (written_eq_iff ho.readable hokey).mp ((h key r hr).2 o ho hokey)
  · intro h key r hr
    refine ⟨?_, ?_⟩
    · have hmem : key ∈ desired := mem_iff.mpr ⟨_, hr⟩
      obtain ⟨o, ho, hokey⟩ := (hkeys key).mp hmem
      exact ⟨o, ho, hokey.trans (hkey key r hr).symm⟩
    · intro o ho hokey
      exact (written_eq_iff ho.readable hokey).mpr (h key r o hr ho hokey)

end Keys

section Values

/-- The links of ours are asked for, and no two links have one name. -/
structure Settled (desired : ResourceMap) (k : Kernel) : Prop where
  names : k.NamesApart
  asked : ∀ o name, k.Has o → o.linkName = some name → o.key ∈ desired

/-- The VRF is not there and cannot be created. -/
def Blocked (v : VRF) (k : Kernel) : Prop :=
  ¬ k.HasVRF v.name ∧ k.linkAddError v.link ≠ none

variable {desired : ResourceMap} {k k' s : Kernel} {v : VRF} {y o : Resource}

theorem Settled.leaving (h : Settled desired k) (name : String) :
    name ∉ k.leaving desired := by
  intro hname
  obtain ⟨o, ho, hkey, hlink⟩ := mem_leaving.mp hname
  exact hkey (h.asked o name ho hlink)

theorem Settled.lookup_without (h : Settled desired k) (i : ℕ) :
    (k.without (k.leaving desired)).links.lookup i = k.links.lookup i := by
  rw [Dataplane.lookup_without]
  cases k.links.lookup i <;> simp [Link.detachAll, h.leaving]

theorem Settled.has_without (h : Settled desired k) :
    (k.without (k.leaving desired)).Has o ↔ k.Has o := by
  constructor <;> intro ho
  · cases ho with
    | classification key mark hmark => exact .classification key mark hmark
    | link i l _ hl ho => exact .link i l o ((h.lookup_without i).symm.trans hl) ho
    | rule r _ hr ho => exact .rule r o hr ho
    | route r _ hr ho => exact .route r o (mem_routes_without.mp hr).1 ho
  · cases ho with
    | classification key mark hmark => exact .classification key mark hmark
    | link i l _ hl ho => exact .link i l o ((h.lookup_without i).trans hl) ho
    | rule r _ hr ho => exact .rule r o hr ho
    | route r _ hr ho => exact .route r o (mem_routes_without.mpr ⟨hr, h.leaving _⟩) ho

theorem Stripped.settled (h : Stripped k (k.leaving desired) s) (hnames : k.NamesApart) :
    Settled desired s where
  names := by
    intro i j l₁ l₂ hi hj hname
    obtain ⟨l, hl, -, rfl⟩ := h.lookup_cases hi
    obtain ⟨l', hl', -, rfl⟩ := h.lookup_cases hj
    exact hnames i j l l' hl hl' hname
  asked := by
    intro o name ho hlink
    obtain ⟨i, l', hl', ho, -⟩ := ho.of_linkName hlink
    obtain ⟨l, hl, hname, rfl⟩ := h.lookup_cases hl'
    obtain ⟨o₀, ho₀, hkey⟩ := ho.of_detachAll
    by_contra hnot
    rw [← hkey] at hnot
    exact hname (mem_leaving.mpr ⟨o₀, .link i l o₀ hl ho₀, hnot, ho₀.linkName⟩)

theorem LinkObject.key_of_ident {i : ℕ} {l l' : Link} (h : LinkObject i l o)
    (hident : l.ident = l'.ident) {o' : Resource} (h' : LinkObject i l' o') : o.key = o'.key := by
  obtain ⟨o₁, ho₁, hkey, -⟩ := h.of_ident hident
  rw [← hkey, ho₁.eq h']

theorem Settled.addStep (h : Settled desired k) (hy : desired.lookup y.key = some y)
    (hstep : AddStep k y k') : Settled desired k' where
  names := h.names.addStep hstep
  asked := by
    have hmem : y.key ∈ desired := mem_iff.mpr ⟨_, hy⟩
    intro o name ho hlink
    obtain ⟨i, l, hl, ho, -⟩ := ho.of_linkName hlink
    rcases hstep.lookup_cases hl with hl | ⟨v, rfl, -, rfl⟩ | ⟨x, rfl, hident⟩
    · exact h.asked o name (.link i l o hl ho) hlink
    · rw [ho.eq (.vrf v.tableID rfl rfl)]
      exact hmem
    · rw [ho.key_of_ident hident (.xfrm x.ifID rfl rfl)]
      exact hmem

variable {rs : List Resource}

theorem Settled.addAll (h : Settled desired k) (hrs : ∀ y ∈ rs, desired.lookup y.key = some y) :
    Settled desired (addAll linuxNetlink rs k) := by
  induction rs generalizing k with
  | nil => exact h
  | cons y rs ih =>
    exact ih (h.addStep (hrs y List.mem_cons_self) (addCall_step k y))
      fun y' hy' => hrs y' (List.mem_cons_of_mem _ hy')

theorem Kernel.HasVRF.addStep {name : String} (h : k.HasVRF name) (hstep : AddStep k y k') :
    k'.HasVRF name := by
  obtain ⟨i, l, t, hl, hname, hkind⟩ := h
  exact ⟨i, l, t, hstep.lookup_of_some hl, hname, hkind⟩

/-- A VRF that can be created beside more links can be created beside fewer. -/
theorem linkAddError_of_links
    (hlinks : ∀ i l, k.links.lookup i = some l → k'.links.lookup i = some l)
    (h : k'.linkAddError v.link = none) : k.linkAddError v.link = none := by
  unfold Kernel.linkAddError at h ⊢
  split_ifs at h with hlength hvalid hname
  rw [if_neg hlength, if_neg hvalid, if_neg]
  · exact h
  · intro hsome
    obtain ⟨⟨i, l⟩, hl⟩ := Option.isSome_iff_exists.mp hsome
    obtain ⟨hl, hlname⟩ := linkByName_eq_some hl
    rw [Option.not_isSome_iff_eq_none] at hname
    exact linkByName_eq_none hname (hlinks i l hl) hlname

theorem Blocked.addStep (h : Blocked v k) (hv : desired.lookup (Resource.vrf v).key = some (.vrf v))
    (hy : desired.lookup y.key = some y) (hstep : AddStep k y k') : Blocked v k' := by
  refine ⟨?_, fun hfree => h.2 (linkAddError_of_links hstep.keeps.links hfree)⟩
  rintro ⟨i, l, t, hl, hname, hkind⟩
  rcases hstep.lookup_cases hl with hl | ⟨v', rfl, hfree, rfl⟩ | ⟨x, rfl, hident⟩
  · exact h.1 ⟨i, l, t, hl, hname, hkind⟩
  · have hkey : (Resource.vrf v').key = (Resource.vrf v).key := by
      have hname : v'.name = v.name := hname
      simp [Resource.key, Resource.keyBody, Resource.kind, hname]
    rw [hkey, hv] at hy
    cases hy
    exact h.2 hfree
  · simp only [Link.ident, Prod.mk.injEq] at hident
    cases hkind.symm.trans hident.2.2

/-- After the call for a VRF it is there, or there is no way to create it. -/
theorem hasVRF_or_blocked (k : Kernel) (v : VRF) :
    ((addCall linuxNetlink (.vrf v)).2 k).2.HasVRF v.name ∨
      Blocked v ((addCall linuxNetlink (.vrf v)).2 k).2 := by
  by_cases hvrf : ((addCall linuxNetlink (.vrf v)).2 k).2.HasVRF v.name
  · exact Or.inl hvrf
  refine Or.inr ⟨hvrf, fun hfree => hvrf ?_⟩
  have hfree := linkAddError_of_links (addCall_step k (.vrf v)).keeps.links hfree
  have hlink : k.linkAdd v.link = .ok (k.insertLink v.link) := by rw [Kernel.linkAdd, hfree]
  have hadd : k.linkAdd ⟨v.name, maetoLinkGroup, "", "", .vrf (uint32OfInt v.tableID.toNat)⟩ =
      .ok (k.insertLink v.link) := by
    rw [uint32OfInt_toNat]
    exact hlink
  change (Linux.upsertVRF v.name v.tableID.toNat k).2.HasVRF v.name
  unfold Linux.upsertVRF
  simp only [hadd]
  exact ⟨k.nextIndex, v.link, v.tableID, (lookup_insertLink k v.link _).trans (if_pos rfl), rfl,
    rfl⟩

def Ready (v : VRF) (k : Kernel) : Prop := k.HasVRF v.name ∨ Blocked v k

theorem ready_addAll (hv : desired.lookup (Resource.vrf v).key = some (.vrf v))
    (hrs : ∀ y ∈ rs, desired.lookup y.key = some y)
    (h : .vrf v ∈ rs ∨ Ready v k) : Ready v (addAll linuxNetlink rs k) := by
  induction rs generalizing k with
  | nil => exact h.resolve_left List.not_mem_nil
  | cons y rs ih =>
    refine ih (fun y' hy' => hrs y' (List.mem_cons_of_mem _ hy')) ?_
    have hstep := addCall_step k y
    have hy := hrs y List.mem_cons_self
    rcases h with hmem | hvrf | hblocked
    · rcases List.mem_cons.mp hmem with rfl | hmem
      · exact Or.inr (hasVRF_or_blocked k v)
      · exact Or.inl hmem
    · exact Or.inr (Or.inl (hvrf.addStep hstep))
    · exact Or.inr (Or.inr (hblocked.addStep hv hy hstep))

structure Attainable (i : Intent) (desired : ResourceMap) : Prop where
  key : ∀ key r, desired.lookup key = some r → r.key = key
  intent : ∀ key r, desired.lookup key = some r → IntentResource i r
  sized : ∀ key r, desired.lookup key = some r → r.Sized
  master : ∀ key x, desired.lookup key = some (.xfrm x) → x.masterVRF ≠ "" →
    ∃ v : VRF, v.name = x.masterVRF ∧ desired.lookup (Resource.vrf v).key = some (.vrf v)

theorem IntentResource.plain {i : Intent} {r : Resource} (h : IntentResource i r) : r.Plain := by
  cases h with
  | tenant pe tenantID t ht r h =>
    cases h with
    | sid => rfl
    | portal id p hid r hr =>
      rw [renderPortal, List.mem_pair] at hr
      rcases hr with rfl | rfl
      · trivial
      · rfl
    | _ => trivial
  | tunnelDefault => rfl
  | _ => trivial

variable {i : Intent}

theorem KeysTell.addStep (h : KeysTell desired k) (ha : Attainable i desired)
    (hy : desired.lookup y.key = some y)
    (hstep : AddStep k y k')
    (hmaster : ∀ x, y = .xfrm x → x.masterVRF ≠ "" → k.NamesApart ∧ k.HasVRF x.masterVRF) :
    KeysTell desired k' := by
  intro key r o hr ho hkey
  rcases hstep.gains (ha.sized _ y hy) (ha.intent _ y hy).plain ho with
    ho | ⟨hokey, hvalues⟩ | ⟨v, -, hobject⟩
  · exact h key r o hr ho hkey
  · have hsame : r = y := by
      rw [← ha.key key r hr, ← hkey, hokey, hy] at hr
      exact (Option.some.inj hr).symm
    rw [hsame, hvalues hmaster]
  · rw [hobject.eq (.route rfl)] at ho hkey
    obtain ⟨hkind, hbody⟩ := key_eq_iff.mp hkey
    cases r with
    | route r =>
      obtain ⟨-, -, hdev⟩ := keyBody_route ho.readable hbody
      exact absurd hdev.symm (ha.intent key _ hr).dev_ne_lo
    | _ => cases hkind

/-- The values beside the keys are right so far, or the run cannot end with all there. -/
structure OnCourse (desired : ResourceMap) (k : Kernel) : Prop extends Settled desired k where
  tells : KeysTell desired k ∨
    ∃ v, desired.lookup (Resource.vrf v).key = some (.vrf v) ∧ Blocked v k

theorem OnCourse.addCall (h : OnCourse desired k) (ha : Attainable i desired)
    (hy : desired.lookup y.key = some y)
    (hready : y.kind = .xfrm → ∀ v, desired.lookup (Resource.vrf v).key = some (.vrf v) →
      Ready v k) : OnCourse desired ((addCall linuxNetlink y).2 k).2 := by
  have hstep := addCall_step k y
  refine ⟨h.toSettled.addStep hy hstep, ?_⟩
  have hblock : ∀ v, desired.lookup (Resource.vrf v).key = some (.vrf v) → Blocked v k →
      ∃ v, desired.lookup (Resource.vrf v).key = some (.vrf v) ∧
        Blocked v ((Dataplane.addCall linuxNetlink y).2 k).2 := fun v hv hblocked =>
    ⟨v, hv, hblocked.addStep hv hy hstep⟩
  rcases h.tells with htells | ⟨v, hv, hblocked⟩
  · by_cases hmaster : ∀ x, y = .xfrm x → x.masterVRF ≠ "" → k.HasVRF x.masterVRF
    · exact Or.inl (htells.addStep ha hy hstep fun x hx hne => ⟨h.names, hmaster x hx hne⟩)
    · -- The tunnel interface is left without its master, for a VRF that stays away.
      push Not at hmaster
      obtain ⟨x, rfl, hne, hvrf⟩ := hmaster
      obtain ⟨v, hname, hv⟩ := ha.master _ x hy hne
      rw [← hname] at hvrf
      exact Or.inr (hblock v hv ((hready rfl v hv).resolve_left hvrf))
  · exact Or.inr (hblock v hv hblocked)

theorem OnCourse.addAll (h : OnCourse desired k) (ha : Attainable i desired)
    (hrs : ∀ y ∈ rs, desired.lookup y.key = some y)
    (hready : (∀ y ∈ rs, y.kind ≠ .xfrm) ∨
      ∀ v, desired.lookup (Resource.vrf v).key = some (.vrf v) → Ready v k) :
    OnCourse desired (addAll linuxNetlink rs k) := by
  induction rs generalizing k with
  | nil => exact h
  | cons y rs ih =>
    have hy := hrs y List.mem_cons_self
    have hrs' := fun y' hy' => hrs y' (List.mem_cons_of_mem _ hy')
    refine ih (h.addCall ha hy ?_) hrs' ?_
    · intro hkind
      exact hready.resolve_left fun hnone => hnone y List.mem_cons_self hkind
    · refine hready.imp (fun hnone y' hy' => hnone y' (List.mem_cons_of_mem _ hy')) ?_
      intro hready v hv
      have hone : ∀ y' ∈ [y], desired.lookup y'.key = some y' := by simpa using hy
      exact ready_addAll hv hone (Or.inr (hready v hv))

/-- The VRFs are added before the tunnel interfaces. -/
theorem OnCourse.additions (h : OnCourse desired k) (ha : Attainable i desired)
    (hrs : ∀ y ∈ rs, desired.lookup y.key = some y)
    (hvrfs : ∀ v, desired.lookup (Resource.vrf v).key = some (.vrf v) →
      .vrf v ∈ rs ∨ k.HasVRF v.name) :
    OnCourse desired (Dataplane.addAll linuxNetlink (byKinds additionOrder rs) k) := by
  have hsplit : byKinds additionOrder rs =
      byKinds [.vrf] rs ++ byKinds additionOrder.tail rs := by simp [byKinds, additionOrder]
  have hkinds : ∀ kinds, ∀ y ∈ byKinds kinds rs, desired.lookup y.key = some y :=
    fun kinds y hy => hrs y (mem_of_mem_byKinds hy)
  rw [hsplit, Dataplane.addAll, List.foldl_append]
  refine (h.addAll ha (hkinds [.vrf]) (Or.inl ?_)).addAll ha (hkinds _) (Or.inr ?_)
  · intro y hy hkind
    simp [byKinds, hkind] at hy
  · intro v hv
    refine ready_addAll hv (hkinds [.vrf]) ((hvrfs v hv).imp (fun hmem => ?_) Or.inl)
    simpa [byKinds, Resource.kind] using hmem

theorem Stripped.onCourse (h : Stripped k (k.leaving desired) s) (hnames : k.NamesApart)
    (htells : KeysTell desired (k.without (k.leaving desired))) : OnCourse desired s := by
  refine ⟨h.settled hnames, Or.inl ?_⟩
  intro key r o hr ho hkey
  rcases h.has ho with ho | hkind
  · exact htells key r o hr ho hkey
  · have hkind' := (key_eq_iff.mp hkey).1
    cases o with
    | classification =>
      cases r with
      | classification => rfl
      | _ => cases hkind'
    | _ => cases hkind

theorem OnCourse.stripped (h : OnCourse desired k) (hs : Stripped k (k.leaving desired) s) :
    OnCourse desired s := by
  rcases h.tells with htells | ⟨v, hv, hblocked⟩
  · refine hs.onCourse h.names fun key r o hr ho => ?_
    exact htells key r o hr (h.toSettled.has_without.mp ho)
  · have hlinks : ∀ i, s.links.lookup i = k.links.lookup i := fun i =>
      (hs.links i).trans (h.toSettled.lookup_without i)
    refine ⟨hs.settled h.names, Or.inr ⟨v, hv, ?_, fun hfree => hblocked.2 ?_⟩⟩
    · rintro ⟨i, l, t, hl, hname⟩
      exact hblocked.1 ⟨i, l, t, (hlinks i).symm.trans hl, hname⟩
    · exact linkAddError_of_links (fun i l hl => (hlinks i).trans hl) hfree

theorem Stripped.hasVRF (h : Stripped k (k.leaving desired) s) (hnames : k.NamesApart)
    (hv : (Resource.vrf v).key ∈ desired) (hkey : k.HasKey (Resource.vrf v).key) :
    s.HasVRF v.name := by
  obtain ⟨o, ho, hokey⟩ := hkey
  obtain ⟨i, l, hl, ho, hname⟩ := ho.of_linkName (linkName_eq_of_key_eq hokey)
  have hstays : l.name ∉ k.leaving desired := by
    intro hleaves
    obtain ⟨o', ho', hnot, hlink⟩ := mem_leaving.mp hleaves
    obtain ⟨i', l', hl', ho', hname'⟩ := ho'.of_linkName hlink
    cases hnames i' i l' l hl' hl hname'
    cases hl'.symm.trans hl
    rw [ho'.eq ho, hokey] at hnot
    exact hnot hv
  cases ho with
  | vrf t hgroup hkind =>
    refine ⟨i, l.detachAll (k.leaving desired), t, ?_, hname, hkind⟩
    rw [h.links, lookup_without, hl, Option.bind_some, if_neg hstays]
  | xfrm => cases (key_eq_iff.mp hokey).1

end Values

section Passes

variable {desired : ResourceMap} {ords : ℕ → PassOrders} {ni : NodeIntent} {r : Reconciler}
  {k k' : Kernel}

/-- The intent is rendered to the same resources in the orders of all passes. -/
def OrderFree (ords : ℕ → PassOrders) (i : Intent) (desired : ResourceMap) : Prop :=
  ∀ n < maxPasses, ∀ m, renderIntent (ords n).render i = .ok m →
    ∀ key, m.lookup key = desired.lookup key

structure Phases (desired : ResourceMap) (k s : Kernel) (removed added : List Resource) :
    Prop where
  links : s.links = k.links
  routes : s.routes = k.routes
  rules : s.rules = k.rules
  removes : ∀ x ∈ removed, ∃ o, k.Has o ∧ o.observed = x ∧ o.key ∉ desired
  clears : ∀ o, k.Has o → o.key ∉ desired → ∃ x ∈ removed, x.key = o.key
  adds : ∀ y ∈ added, desired.lookup y.key = some y ∧ ¬ k.HasKey y.key
  fills : ∀ y, desired.lookup y.key = some y → ¬ k.HasKey y.key → y ∈ added

theorem ensureClassificationBase_state {s : Kernel}
    (h : Linux.ensureClassificationBase k = (none, s)) :
    s.links = k.links ∧ s.routes = k.routes ∧ s.rules = k.rules := by
  unfold Linux.ensureClassificationBase Kernel.flush at h
  split at h
  · rename_i k'' hflush
    cases h
    split at hflush
    · cases hflush
    · cases hflush
      exact ⟨rfl, rfl, rfl⟩
  · cases h

theorem exists_phases (hstep : PassStep linuxNetlink ords ni r k k')
    (horder : OrderFree ords ni.intent desired) :
    ∃ s removed added, Phases desired k s removed added ∧
      k' = addAll linuxNetlink (byKinds additionOrder added)
        (removeAll linuxNetlink removed s) := by
  obtain ⟨n, hn, current, des, hplan, herr, rfl⟩ := hstep
  obtain ⟨-, hrender, fib, hread, rfl⟩ := plan_eq_ok hplan
  have hdes := horder n hn des hrender
  have hmem : ∀ key, key ∈ des ↔ key ∈ desired := fun key => by
    rw [← lookup_isSome, hdes, lookup_isSome]
  obtain ⟨s, hbase, hstate⟩ := apply_state herr
  obtain ⟨hlinks, hroutes, hrules⟩ := ensureClassificationBase_state hbase
  refine ⟨s, _, _, ⟨hlinks, hroutes, hrules, ?_, ?_, ?_, ?_⟩, hstate⟩
  · intro x hx
    obtain ⟨key, hkey, hnot⟩ := mem_diff_remove.mp (mem_byKinds_removalOrder.mp hx)
    obtain ⟨o, ho, rfl, rfl⟩ := of_lookup_renderFIB hread hkey
    exact ⟨o, ho, rfl, fun h => hnot ((hmem _).mpr h)⟩
  · intro o ho hnot
    obtain ⟨x, hx⟩ := mem_iff.mp ((mem_renderFIB hread o.key).mpr ⟨o, ho, rfl⟩)
    obtain ⟨o', -, rfl, hkey⟩ := of_lookup_renderFIB hread hx
    refine ⟨_, mem_byKinds_removalOrder.mpr (mem_diff_remove.mpr ⟨o.key, hx, ?_⟩), ?_⟩
    · exact fun h => hnot ((hmem _).mp h)
    · rw [observed_key, hkey]
  · intro y hy
    obtain ⟨key, hkey, hnot⟩ := mem_diff_add.mp hy
    obtain ⟨rfl, -⟩ := renderIntent_lookup hrender hkey
    exact ⟨(hdes _).symm.trans hkey, fun h => hnot ((mem_renderFIB hread _).mpr h)⟩
  · intro y hy hnot
    exact mem_diff_add.mpr ⟨y.key, (hdes _).trans hy, fun h => hnot ((mem_renderFIB hread _).mp h)⟩

variable {s : Kernel} {removed added : List Resource} {i : Intent}

theorem Phases.stripped (h : Phases desired k s removed added) (hnames : k.NamesApart) :
    Stripped k (k.leaving desired) (removeAll linuxNetlink removed s) := by
  have hbase : Stripped k [] s := .of_eq h.links h.routes h.rules
  have hremoved := hbase.removeAll hnames removed fun x hx => by
    obtain ⟨o, ho, hobserved, -⟩ := h.removes x hx
    exact ⟨o, ho, hobserved⟩
  refine hremoved.congr fun name => ?_
  rw [List.nil_append, List.mem_filterMap, mem_leaving]
  constructor
  · rintro ⟨x, hx, hname⟩
    obtain ⟨o, ho, rfl, hnot⟩ := h.removes x hx
    exact ⟨o, ho, hnot, (linkName_eq_of_key_eq o.observed_key).symm.trans hname⟩
  · rintro ⟨o, ho, hnot, hname⟩
    obtain ⟨x, hx, hkey⟩ := h.clears o ho hnot
    exact ⟨x, hx, (linkName_eq_of_key_eq hkey).trans hname⟩

theorem Phases.onCourse (h : Phases desired k s removed added) (ha : Attainable i desired)
    (hnames : k.NamesApart)
    (hremoved : OnCourse desired (removeAll linuxNetlink removed s)) :
    OnCourse desired
      (addAll linuxNetlink (byKinds additionOrder added) (removeAll linuxNetlink removed s)) := by
  refine hremoved.additions ha (fun y hy => (h.adds y hy).1) fun v hv => ?_
  by_cases hkey : k.HasKey (Resource.vrf v).key
  · exact Or.inr ((h.stripped hnames).hasVRF hnames (mem_iff.mpr ⟨_, hv⟩) hkey)
  · exact Or.inl (h.fills _ hv hkey)

/-- A pass over a kernel whose values are right once the links that are not asked for are gone. -/
theorem onCourse_of_passStep (hstep : PassStep linuxNetlink ords ni r k k')
    (horder : OrderFree ords ni.intent desired) (ha : Attainable ni.intent desired)
    (h : OnCourse desired k ∨
      k.NamesApart ∧ KeysTell desired (k.without (k.leaving desired))) : OnCourse desired k' := by
  obtain ⟨s, removed, added, hphases, rfl⟩ := exists_phases hstep horder
  rcases h with h | ⟨hnames, htells⟩
  · exact hphases.onCourse ha h.names (h.stripped (hphases.stripped h.names))
  · exact hphases.onCourse ha hnames ((hphases.stripped hnames).onCourse hnames htells)

theorem exists_vrf_of_master {ords : RenderOrders} {m : ResourceMap}
    (hrender : renderIntent ords i = .ok m) {x : XFRM} (h : IntentResource i (.xfrm x))
    (hne : x.masterVRF ≠ "") : ∃ v : VRF, v.name = x.masterVRF ∧ (Resource.vrf v).key ∈ m := by
  generalize hx : Resource.xfrm x = y at h
  cases h with
  | tenant pe tenantID t ht _ h =>
    cases h with
    | portal id p hid _ hy =>
      rw [renderPortal, List.mem_pair, ← hx] at hy
      rcases hy with hy | hy <;> cases hy
      obtain ⟨classes, -, rfl⟩ := renderPEIntent_eq_ok hrender
      obtain ⟨collisions, hmem⟩ := mem_renderTenants ords pe
      have hvrf := (hmem tenantID _).mpr ⟨t, ht, vrf_mem_tenantResources⟩
      refine ⟨⟨vrfTableName tenantID, stringToID tenantID, 0⟩, rfl, ?_⟩
      refine (mem_collect Resource.key _ _).mpr ⟨_, ?_, rfl⟩
      exact List.mem_append_right _ (List.mem_map.mpr ⟨_, hvrf, rfl⟩)
    | _ => cases hx
  | tunnel cpe =>
    cases hx
    exact absurd rfl hne
  | _ => cases hx

theorem Attainable.of_keys {ord : PassOrders} {m : ResourceMap}
    (hrender : renderIntent ord.render i = .ok m)
    (hlookup : ∀ key, m.lookup key = desired.lookup key)
    (hkeys : ∀ key, key ∈ desired ↔ ∃ o, k.Has o ∧ o.key = key) : Attainable i desired := by
  have hdesired : ∀ key y, desired.lookup key = some y → y.key = key ∧ IntentResource i y :=
    fun key y hy => renderIntent_lookup hrender ((hlookup key).trans hy)
  refine ⟨fun key y hy => (hdesired key y hy).1, fun key y hy => (hdesired key y hy).2, ?_, ?_⟩
  · intro key y hy
    obtain ⟨o, ho, hokey⟩ := (hkeys key).mp (mem_iff.mpr ⟨_, hy⟩)
    have hhold : Holdable y := ⟨k, o, ho, hokey.trans (hdesired key y hy).1.symm⟩
    exact hhold.sized
  · intro key x hx hne
    obtain ⟨v, hname, hmem⟩ := exists_vrf_of_master hrender (hdesired key _ hx).2 hne
    obtain ⟨y, hy⟩ := mem_iff.mp hmem
    rw [hlookup] at hy
    obtain ⟨hykey, -⟩ := hdesired _ y hy
    cases y with
    | vrf v' =>
      have hsame := keyBody_vrf (key_eq_iff.mp hykey).2
      refine ⟨v', hsame.trans hname, ?_⟩
      rw [hykey]
      exact hy
    | _ => cases (key_eq_iff.mp hykey).1

theorem Attainable.fitting (ha : Attainable i desired) {key : String} {y : Resource}
    (hy : desired.lookup key = some y) : Fitting i.nodeType y :=
  (ha.intent key y hy).fitting (Or.inr (ha.sized key y hy))

theorem Phases.made (h : Phases desired k s removed added) (ha : Attainable i desired)
    (hk : Made i.nodeType k) :
    Made i.nodeType (removeAll linuxNetlink removed s) ∧
      Made i.nodeType
        (addAll linuxNetlink (byKinds additionOrder added) (removeAll linuxNetlink removed s)) := by
  have hs : Made i.nodeType s :=
    { names := fun j j' l l' hl hl' =>
        hk.names j j' l l' (by rw [← h.links, hl]) (by rw [← h.links, hl'])
      slots := by rw [h.routes]; exact hk.slots
      ownRoutes := by rw [h.routes]; exact hk.ownRoutes
      ownRules := by rw [h.rules]; exact hk.ownRules }
  refine ⟨hs.removeAll removed, (hs.removeAll removed).addAll fun y hy => ?_⟩
  exact ha.fitting (h.adds y (mem_of_mem_byKinds hy)).1

theorem Phases.leaves (h : Phases desired k s removed added) {nodeType : NodeType}
    (hk : Made nodeType k) : Leaves desired k (removeAll linuxNetlink removed s) := by
  have hs : Leaves desired k s :=
    { links := fun j l hl => ⟨l, by rw [← h.links, hl], rfl⟩
      rules := fun r hr _ _ => by rw [h.rules]; exact hr
      routes := fun r hr _ _ _ _ => by rw [h.routes]; exact (mem_routes_without.mp hr).1 }
  exact hs.removeAll hk h.removes

theorem hasKey_of_has_without {gone : List String} {o : Resource} (ho : (k.without gone).Has o) :
    k.HasKey o.key := by
  cases ho with
  | classification key mark hmark => exact ⟨_, .classification key mark hmark, rfl⟩
  | rule r _ hr ho => exact ⟨o, .rule r o hr ho, rfl⟩
  | route r _ hr ho => exact ⟨o, .route r o (mem_routes_without.mp hr).1 ho, rfl⟩
  | link i l _ hl ho =>
    rw [lookup_without] at hl
    obtain ⟨l₀, hl₀, hif⟩ := Option.bind_eq_some_iff.mp hl
    split_ifs at hif
    cases hif
    obtain ⟨o₀, ho₀, hkey⟩ := ho.of_detachAll
    exact ⟨o₀, .link i l₀ o₀ hl₀ ho₀, hkey⟩

/-- What is left of an object with a key that is asked for is there after the pass as well. -/
theorem has_of_passStep (hstep : PassStep linuxNetlink ords ni r k k')
    (horder : OrderFree ords ni.intent desired) (ha : Attainable ni.intent desired)
    (hk : Made ni.intent.nodeType k) {key : String} {y o : Resource}
    (hy : desired.lookup key = some y)
    (hslots : ∀ key y', desired.lookup key = some y' → ∀ slot, y.slot = some slot →
      y'.slot = some slot → y.key = y'.key)
    (hkey : o.key = y.key) (hkind : o.kind ≠ .route ∧ o.kind ≠ .classification)
    (ho : (k.without (k.leaving desired)).Has o) : k'.Has o := by
  obtain ⟨s, removed, added, hphases, rfl⟩ := exists_phases hstep horder
  have hmem : o.key ∈ desired := by
    rw [hkey, ha.key key y hy]
    exact mem_iff.mpr ⟨_, hy⟩
  have hremoved := (hphases.leaves hk).has (hphases.stripped hk.names) ho hmem hkind
  refine (hphases.made ha hk).1.addAll_has (fun y' hy' => ?_) (fun y' hy' slot hslot' hslot => ?_)
    hkind.1 hremoved
  · exact ha.fitting (hphases.adds y' (mem_of_mem_byKinds hy')).1
  · obtain ⟨hy', hnot⟩ := hphases.adds y' (mem_of_mem_byKinds hy')
    rw [slot_congr ho.readable hkey] at hslot
    refine hnot ?_
    rw [← hslots _ y' hy' slot hslot hslot', ← hkey]
    exact hasKey_of_has_without ho

theorem settled_of_passStep (hstep : PassStep linuxNetlink ords ni r k k')
    (horder : OrderFree ords ni.intent desired) (hnames : k.NamesApart) : Settled desired k' := by
  obtain ⟨s, removed, added, hphases, rfl⟩ := exists_phases hstep horder
  have hadds : ∀ y ∈ byKinds additionOrder added, desired.lookup y.key = some y :=
    fun y hy => (hphases.adds y (mem_of_mem_byKinds hy)).1
  exact ((hphases.stripped hnames).settled hnames).addAll hadds

end Passes

section Run

variable {desired : ResourceMap} {ords : ℕ → PassOrders} {ni : NodeIntent} {r : Reconciler}
  {k k' : Kernel}

theorem onCourse_of_passes (hsteps : Relation.ReflTransGen (PassStep linuxNetlink ords ni r) k k')
    (horder : OrderFree ords ni.intent desired) (ha : Attainable ni.intent desired)
    (hnames : k.NamesApart) (htells : KeysTell desired (k.without (k.leaving desired))) :
    OnCourse desired k' ∨
      k'.NamesApart ∧ KeysTell desired (k'.without (k'.leaving desired)) := by
  induction hsteps with
  | refl => exact Or.inr ⟨hnames, htells⟩
  | tail _ hstep ih => exact Or.inl (onCourse_of_passStep hstep horder ha ih)

theorem settled_of_keys (hnames : k.NamesApart)
    (hkeys : ∀ key, key ∈ desired ↔ ∃ o, k.Has o ∧ o.key = key) : Settled desired k where
  names := hnames
  asked := fun o _ ho _ => (hkeys o.key).mpr ⟨o, ho, rfl⟩

theorem OnCourse.keysTell (h : OnCourse desired k)
    (hkeys : ∀ key, key ∈ desired ↔ ∃ o, k.Has o ∧ o.key = key) : KeysTell desired k := by
  rcases h.tells with htells | ⟨v, hv, hblocked⟩
  · exact htells
  · obtain ⟨o, ho, hkey⟩ := (hkeys _).mp (mem_iff.mpr ⟨_, hv⟩)
    obtain ⟨i, l, hl, ho, hname⟩ := ho.of_linkName (linkName_eq_of_key_eq hkey)
    cases ho with
    | vrf t hgroup hkind => exact absurd ⟨i, l, t, hl, hname, hkind⟩ hblocked.1
    | xfrm => cases (key_eq_iff.mp hkey).1

theorem made_of_passes (hsteps : Relation.ReflTransGen (PassStep linuxNetlink ords ni r) k k')
    (horder : OrderFree ords ni.intent desired) (ha : Attainable ni.intent desired)
    (hk : Made ni.intent.nodeType k) : Made ni.intent.nodeType k' := by
  induction hsteps with
  | refl => exact hk
  | tail _ hstep ih =>
    obtain ⟨s, removed, added, hphases, rfl⟩ := exists_phases hstep horder
    exact (hphases.made ha ih).2

theorem has_of_passes (hsteps : Relation.ReflTransGen (PassStep linuxNetlink ords ni r) k k')
    (horder : OrderFree ords ni.intent desired) (ha : Attainable ni.intent desired)
    (hk : Made ni.intent.nodeType k) {key : String} {y o : Resource}
    (hy : desired.lookup key = some y)
    (hslots : ∀ key y', desired.lookup key = some y' → ∀ slot, y.slot = some slot →
      y'.slot = some slot → y.key = y'.key)
    (hkey : o.key = y.key) (hkind : o.kind ≠ .route ∧ o.kind ≠ .classification)
    (ho : (k.without (k.leaving desired)).Has o) : (k'.without (k'.leaving desired)).Has o := by
  induction hsteps with
  | refl => exact ho
  | tail hsteps hstep ih =>
    have hmade := made_of_passes hsteps horder ha hk
    have hsettled := settled_of_passStep hstep horder hmade.names
    exact hsettled.has_without.mpr
      (has_of_passStep hstep horder ha hmade hy hslots hkey hkind ih)

/-- The objects of a run that returned no error have the keys asked for, and the resources are as
`Attainable` says. -/
theorem of_reconcile (horder : OrderFree ords ni.intent desired)
    (hnil : (reconcile linuxNetlink ords r ni k).err = none) :
    Relation.ReflTransGen (PassStep linuxNetlink ords ni r) k
        (reconcile linuxNetlink ords r ni k).state ∧
      (∀ key, key ∈ desired ↔
        ∃ o, (reconcile linuxNetlink ords r ni k).state.Has o ∧ o.key = key) ∧
      Attainable ni.intent desired := by
  obtain ⟨hsteps, hconverged, -⟩ := reconcilePasses_converged le_rfl hnil
  obtain ⟨n, hn, m, hrender, hkeys⟩ := hconverged.keys
  have hlookup := horder n hn m hrender
  have hkeys : ∀ key, key ∈ desired ↔
      ∃ o, (reconcile linuxNetlink ords r ni k).state.Has o ∧ o.key = key := fun key => by
    rw [← lookup_isSome, ← hlookup, lookup_isSome]
    exact hkeys key
  exact ⟨hsteps, hkeys, .of_keys hrender hlookup hkeys⟩

/-- A kernel has the forms that the reconciler makes after a call if it has them before. -/
theorem made_reconcile (horder : OrderFree ords ni.intent desired)
    (hnil : (reconcile linuxNetlink ords r ni k).err = none) (hk : Made ni.intent.nodeType k) :
    Made ni.intent.nodeType (reconcile linuxNetlink ords r ni k).state := by
  obtain ⟨hsteps, -, ha⟩ := of_reconcile horder hnil
  exact made_of_passes hsteps horder ha hk

/-- Prefix routes and classes have no values beside the key that could differ. -/
theorem Made.unkeyed_eq {nodeType : NodeType} (hk : Made nodeType k) {gone : List String}
    {res o : Resource} (hplain : res.Plain) (ho : (k.without gone).Has o) (hkey : o.key = res.key)
    (hkind : o.kind = .route ∨ o.kind = .classification) : o.unkeyed = res.unkeyed := by
  have hkind' := (key_eq_iff.mp hkey).1
  rcases hkind with hkind | hkind
  · obtain ⟨r, hr, ho⟩ := ho.of_route (Or.inl hkind)
    cases ho with
    | route hproto =>
      have hvia := (hk.ownRoutes r (mem_routes_without.mp hr).1).gateway hproto
      cases res with
      | route u =>
        have hplain : u.via = .invalid := hplain
        rw [Resource.unkeyed, Resource.unkeyed, hvia, hplain]
      | _ => cases hkind'
    | _ => cases hkind
  · obtain ⟨key, mark, -, rfl⟩ := ho.of_classification hkind
    cases res with
    | classification => rfl
    | _ => cases hkind'

/-- What is installed when `Reconcile` returns without an error. The rendering does not depend on
the orders of the passes, and the links have different names. Everything the intent is rendered to
is installed in full if no object differs in a value beside its key from what is asked for under
this key, once the links of ours that are not asked for are gone. In a kernel of the forms that
the reconciler makes this is also necessary. -/
theorem reconcile_installed (horder : OrderFree ords ni.intent desired) (hnames : k.NamesApart)
    (hnil : (reconcile linuxNetlink ords r ni k).err = none) :
    (KeysTell desired (k.without (k.leaving desired)) →
      ∀ key res, desired.lookup key = some res →
        Installed (reconcile linuxNetlink ords r ni k).state res) ∧
    (Made ni.intent.nodeType k →
      (∀ key res, desired.lookup key = some res →
        Installed (reconcile linuxNetlink ords r ni k).state res) →
      KeysTell desired (k.without (k.leaving desired))) := by
  obtain ⟨hsteps, hkeys, ha⟩ := of_reconcile horder hnil
  rw [installed_iff_keysTell ha.key hkeys]
  constructor
  · intro htells
    rcases onCourse_of_passes hsteps horder ha hnames htells with hcourse | ⟨hnames', htells'⟩
    · exact hcourse.keysTell hkeys
    · have hsettled := settled_of_keys hnames' hkeys
      exact fun key res o hres ho => htells' key res o hres (hsettled.has_without.mpr ho)
  · intro hk htells key res o hres ho hkey
    have hmade := made_of_passes hsteps horder ha hk
    have hsettled := settled_of_keys hmade.names hkeys
    by_cases hkind : o.kind ≠ .route ∧ o.kind ≠ .classification
    · have hhas := has_of_passes hsteps horder ha hk hres ?_ hkey hkind ho
      · exact htells key res o hres (hsettled.has_without.mp hhas) hkey
      · intro key' y' hy' slot hslot hslot'
        obtain ⟨o₁, ho₁, hkey₁⟩ := (hkeys key).mp (mem_iff.mpr ⟨_, hres⟩)
        obtain ⟨o₂, ho₂, hkey₂⟩ := (hkeys key').mp (mem_iff.mpr ⟨_, hy'⟩)
        exact hmade.key_eq_of_slot (ha.fitting hres) (ha.fitting hy') ho₁ ho₂
          (hkey₁.trans (ha.key key res hres).symm) (hkey₂.trans (ha.key key' y' hy').symm)
          hslot hslot'
    · exact hk.unkeyed_eq (ha.intent key res hres).plain ho hkey
        ((not_and_or.mp hkind).imp not_not.mp not_not.mp)

end Run

section Examples

def nodeSID : Addr := .v6 0xfc000000000100000000000000000001

def sidIntent (generation : UInt32) (owner : String) : NodeIntent where
  id := "pe1"
  nodeType := .pe
  intent := .pe
    { nodeID := "pe1"
      tenants := (((∅ : GoMap String TenantIntent).insert "1" .empty).insert "2" .empty).insert
        owner { TenantIntent.empty with dt46SID := nodeSID }
      trafficClassIntent := [] }
  timestamp := 0
  generation
  version := 1

def sidGiven : Outcome Kernel :=
  reconcile linuxNetlink (fun _ => .listed) ⟨.pe, none⟩ (sidIntent 1 "1") .started

def sidMoved : Outcome Kernel :=
  reconcile linuxNetlink (fun _ => .listed) sidGiven.reconciler (sidIntent 2 "2") sidGiven.state

def sidLeft : NodeIntent :=
  { sidIntent 2 "2" with
    intent := .pe
      { nodeID := "pe1"
        tenants := (∅ : GoMap String TenantIntent).insert "2"
          { TenantIntent.empty with dt46SID := nodeSID }
        trafficClassIntent := [] } }

/-- The values beside the keys are those that the reads show, but for gateways. -/
theorem keysTell_of_readFIB {desired : ResourceMap} {k : Kernel} {fib : FIB}
    (hread : readFIB linuxNetlink k = .ok fib)
    (hkey : ∀ key r, desired.lookup key = some r → r.key = key)
    (hroutes : ∀ x ∈ fib.resources, x.key ∈ desired → x.kind ≠ .route)
    (hvalues : ∀ x ∈ fib.resources, ∀ r ∈ desired.lookup x.key, x.unkeyed = r.unkeyed) :
    KeysTell desired k := by
  intro key r o hr ho hokey
  have hmem := (mem_resources_of_readFIB hread _).mpr ⟨o, ho, rfl⟩
  have hlookup : desired.lookup o.observed.key = some r := by
    rw [o.observed_key, hokey, hkey key r hr, hr]
  have hvalue := hvalues _ hmem r hlookup
  have hkind := hroutes _ hmem (mem_iff.mpr ⟨_, hlookup⟩)
  cases o with
  | route => exact absurd rfl hkind
  | _ => exact hvalue

theorem made_started (nodeType : NodeType) : Made nodeType .started where
  names := by
    intro i j l l' hl hl' hname
    simp only [Kernel.started, lookup_insert_eq, lookup_empty] at hl hl'
    split_ifs at hl hl' <;> cases hl <;> cases hl' <;> first | omega | simp at hname
  slots := .nil
  ownRoutes := fun _ h => by cases h
  ownRules := fun _ h => by cases h

def secondSID : SID where
  sidType := .dt46
  sid := nodeSID
  tableID := (stringToID "2").toNat
  metric := 0
  vrfTableID := 0

theorem sidGiven_has : ∃ r ∈ sidGiven.state.routes, r.protocol = maetoSIDProto ∧
    r.dst.net.ip = nodeSID ∧ r.action = .seg6local .dt46 (stringToID "1") := by decide +kernel

/-- What is asked for, and that the reads of what is left of the kernel do not differ from it. -/
theorem sidLeft_reads : ∃ desired fib, renderIntent .listed sidLeft.intent = .ok desired ∧
    desired.lookup (Resource.sid secondSID).key = some (.sid secondSID) ∧
    readFIB linuxNetlink (sidGiven.state.without (sidGiven.state.leaving desired)) = .ok fib ∧
    (∀ x ∈ fib.resources, x.key ∈ desired → x.kind ≠ .route) ∧
    ∀ x ∈ fib.resources, ∀ r ∈ desired.lookup x.key, x.unkeyed = r.unkeyed :=
  ⟨_, _, rfl, by decide +kernel, rfl, by decide +kernel, by decide +kernel⟩

theorem sidGiven_made : Made .pe sidGiven.state := by
  obtain ⟨desired, hdesired⟩ : ∃ m, renderIntent .listed (sidIntent 1 "1").intent = .ok m :=
    ⟨_, rfl⟩
  have horder : OrderFree (fun _ => .listed) (sidIntent 1 "1").intent desired :=
    fun _ _ m hm key => by rw [Except.ok.inj (hdesired.symm.trans hm)]
  have hnil : (reconcile linuxNetlink (fun _ => .listed) ⟨.pe, none⟩ (sidIntent 1 "1")
      .started).err = none := by decide +kernel
  exact made_reconcile horder hnil (made_started .pe)

/-- The SID of tenant 1 has the key of the SID asked for and another table, and it goes with the
VRF of tenant 1. -/
theorem sid_left_installed :
    ∃ desired, renderIntent .listed sidLeft.intent = .ok desired ∧
      ¬ KeysTell desired sidGiven.state ∧ Made .pe sidGiven.state ∧
      (reconcile linuxNetlink (fun _ => .listed) sidGiven.reconciler sidLeft sidGiven.state).err =
        none ∧
      ∀ key res, desired.lookup key = some res → Installed
        (reconcile linuxNetlink (fun _ => .listed) sidGiven.reconciler sidLeft
          sidGiven.state).state res := by
  obtain ⟨desired, fib, hdesired, hsid, hread, hroutes, hvalues⟩ := sidLeft_reads
  have hnil : (reconcile linuxNetlink (fun _ => .listed) sidGiven.reconciler sidLeft
      sidGiven.state).err = none := by decide +kernel
  refine ⟨desired, hdesired, fun htells => ?_, sidGiven_made, hnil, ?_⟩
  · obtain ⟨r, hr, hproto, hip, haction⟩ := sidGiven_has
    have hvalue := htells _ _ _ hsid (.route r _ hr (.sid _ _ hproto haction)) (by rw [hip]; rfl)
    have htable : ((stringToID "1").toNat : ℤ) = (stringToID "2").toNat := Unkeyed.table.inj hvalue
    exact absurd htable (by decide +kernel)
  · refine (reconcile_installed (fun _ _ m hm key => ?_) sidGiven_made.names hnil).1 ?_
    · rw [Except.ok.inj (hdesired.symm.trans hm)]
    · exact keysTell_of_readFIB hread (fun key res hres => (renderIntent_lookup hdesired hres).1)
        hroutes hvalues

/-- The SID keeps decapsulating into the table of tenant 1. -/
theorem sid_moved_not_installed :
    sidMoved.err = none ∧
      ∃ desired, renderIntent .listed (sidIntent 2 "2").intent = .ok desired ∧
        ∃ key res, desired.lookup key = some res ∧ ¬ Installed sidMoved.state res := by
  refine ⟨by decide +kernel, _, rfl, "sid:dt46.fc00:0:1::1.0",
    .sid
      { sidType := .dt46, sid := nodeSID, tableID := (stringToID "2").toNat, metric := 0,
        vrfTableID := 0 }, by decide +kernel, ?_⟩
  rintro ⟨-, hvalues⟩
  have hroute : ∃ r ∈ sidMoved.state.routes, r.protocol = maetoSIDProto ∧
      r.dst.net.ip = nodeSID ∧ r.action = .seg6local .dt46 (stringToID "1") := by decide +kernel
  obtain ⟨r, hr, hproto, hip, haction⟩ := hroute
  have hobject := hvalues _ (.route r _ hr (.sid _ _ hproto haction))
    (by rw [hip]; rfl)
  have htable : ((stringToID "1").toNat : ℤ) = (stringToID "2").toNat :=
    congrArg SID.tableID (Resource.sid.inj hobject)
  exact absurd htable (by decide +kernel)

end Examples

end Maeto.Dataplane
