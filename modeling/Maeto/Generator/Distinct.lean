import Maeto.Generator.Plain

/-!
# No address is assigned twice

PoPs have different indexes, and at most 255 sites hang off one, so locators and edge
subnets never meet. The index of an explicit PoP is capped at 255, the one that is
counted is not: from the 256th PoP on, the indexes of two links can run together, and
then they get one subnet.
-/

namespace Maeto.Generator

open Foundation Result

/-! ### Subnets and their indexes -/

theorem nthSubnet_inj {net : Network} {newPrefix n m : ℕ} {sub sub' : Network}
    (h : nthSubnet net newPrefix n = .ok sub) (h' : nthSubnet net newPrefix m = .ok sub') :
    sub = sub' ↔ n = m := by
  obtain ⟨-, haddr, -⟩ := nthSubnet_eq_ok h
  obtain ⟨-, haddr', -⟩ := nthSubnet_eq_ok h'
  constructor
  · rintro rfl
    exact nthAddr_injective net newPrefix (haddr.symm.trans haddr')
  · rintro rfl
    exact Except.ok.inj (h.symm.trans h')

theorem nodup_subnets_iff {α β : Type} {net : Network} {newPrefix : ℕ} {l : List α} {l' : List β}
    {f : α → Except TopologyError β} {subnet : β → Network} {index : α → ℕ}
    (hl : l.mapM f = .ok l')
    (hf : ∀ a b, f a = .ok b → nthSubnet net newPrefix (index a) = .ok (subnet b)) :
    (l'.map subnet).Nodup ↔ (l.map index).Nodup := by
  have haddr : l'.map (Network.addr ∘ subnet) = l.map (nthAddr net newPrefix ∘ index) :=
    map_eq_of_mapM_eq_ok hl fun a _ b hb => (nthSubnet_eq_ok (hf a b hb)).2.1
  have hinj := nthAddr_injective net newPrefix
  rw [← List.nodup_map_iff hinj, List.map_map, ← haddr, ← List.map_map]
  constructor
  · intro hnodup
    refine hnodup.map_on ?_
    intro sub hsub sub' hsub' heq
    obtain ⟨b, hb, rfl⟩ := List.mem_map.mp hsub
    obtain ⟨b', hb', rfl⟩ := List.mem_map.mp hsub'
    obtain ⟨a, -, ha⟩ := (mem_of_mapM_eq_ok hl b).mp hb
    obtain ⟨a', -, ha'⟩ := (mem_of_mapM_eq_ok hl b').mp hb'
    refine (nthSubnet_inj (hf a b ha) (hf a' b' ha')).mpr (hinj ?_)
    rw [← (nthSubnet_eq_ok (hf a b ha)).2.1, ← (nthSubnet_eq_ok (hf a' b' ha')).2.1, heq]
  · exact List.Nodup.of_map _

/-! ### Core links -/

namespace Topology

def indexOf (topo : Topology) (id : String) : ℕ := ((topo.popById id).map Pop.index).getD 0

/-- The indexes of no two pairs of linked PoPs run together. -/
def Packed (topo : Topology) : Prop :=
  ∀ l ∈ topo.links, ∀ l' ∈ topo.links, (l.a, l.b) ≠ (l'.a, l'.b) →
    ¬ Overlap (topo.indexOf l.a) (topo.indexOf l.b) (topo.indexOf l'.a) (topo.indexOf l'.b)

theorem indexOf_of_mem {topo : Topology} (hids : (topo.pops.map Pop.id).Nodup) {pop : Pop}
    (h : pop ∈ topo.pops) : topo.indexOf pop.id = pop.index := by
  unfold indexOf popById
  rw [find?_id hids h]
  rfl

theorem indexOf_lt {topo : Topology} (h : ∀ pop ∈ topo.pops, pop.index < 256) (id : String) :
    topo.indexOf id < 256 := by
  unfold indexOf
  cases hfind : topo.popById id with
  | none => exact Nat.zero_lt_succ 255
  | some pop => exact h pop (List.mem_of_find?_eq_some hfind)

end Topology

theorem LinkGroup.mem_links {group : LinkGroup} {link : CoreLink} (h : link ∈ group.links) :
    (link.a, link.b) = group.ends ∧ 1 ≤ link.inst ∧ link.inst ≤ group.specs.length ∧
      link.index = linkSubnetIndex group.lo.index group.hi.index link.inst := by
  obtain ⟨spec, hspec, rfl⟩ := List.mem_map.mp h
  have hlow := List.le_snd_of_mem_zipIdx hspec
  have hhigh := List.snd_lt_of_mem_zipIdx hspec
  exact ⟨rfl, hlow, by dsimp only; omega, rfl⟩

theorem LinkGroup.exists_first {group : LinkGroup} (h : 1 ≤ group.specs.length) :
    ∃ link ∈ group.links, link.inst = 1 := by
  unfold LinkGroup.links
  cases hspecs : group.specs with
  | nil =>
    rw [hspecs] at h
    exact absurd h (by decide)
  | cons spec specs => exact ⟨_, List.mem_map_of_mem List.mem_cons_self, rfl⟩

theorem nodup_links {groups : List LinkGroup} (h : (groups.map LinkGroup.ends).Nodup) :
    ((groups.flatMap LinkGroup.links).map fun l => ((l.a, l.b), l.inst)).Nodup := by
  rw [List.map_flatMap, List.nodup_flatMap]
  constructor
  · intro group _
    refine List.Nodup.of_map Prod.snd ?_
    rw [List.map_map, LinkGroup.links, List.map_map]
    have hinsts := List.zipIdx_map_snd 1 group.specs
    exact hinsts ▸ List.nodup_range'
  · refine (List.pairwise_map.mp h).imp ?_
    intro group group' hends
    refine List.disjoint_left.mpr ?_
    intro key hkey hkey'
    obtain ⟨link, hlink, rfl⟩ := List.mem_map.mp hkey
    obtain ⟨link', hlink', heq⟩ := List.mem_map.mp hkey'
    refine hends ?_
    rw [← (LinkGroup.mem_links hlink).1, ← (LinkGroup.mem_links hlink').1]
    exact (congrArg Prod.fst heq).symm

section Core

variable {topo : Topology} {groups : List LinkGroup}

theorem mem_links_iff (hids : (topo.pops.map Pop.id).Nodup)
    (hlinks : topo.links = groups.flatMap LinkGroup.links)
    (hfits : ∀ group ∈ groups, group.Fits topo.pops) {link : CoreLink} (h : link ∈ topo.links) :
    (1 ≤ link.inst ∧ link.inst ≤ 256) ∧
      link.index = linkSubnetIndex (topo.indexOf link.a) (topo.indexOf link.b) link.inst ∧
      ∃ first ∈ topo.links, (first.a, first.b) = (link.a, link.b) ∧ first.inst = 1 := by
  rw [hlinks] at h
  obtain ⟨group, hgroup, hlink⟩ := List.mem_flatMap.mp h
  obtain ⟨hends, hpos, hle, hindex⟩ := LinkGroup.mem_links hlink
  have hfit := hfits group hgroup
  refine ⟨⟨hpos, hle.trans hfit.length_le⟩, ?_, ?_⟩
  · rw [hindex, show link.a = group.lo.id from congrArg Prod.fst hends,
      show link.b = group.hi.id from congrArg Prod.snd hends,
      Topology.indexOf_of_mem hids hfit.lo_mem, Topology.indexOf_of_mem hids hfit.hi_mem]
  · obtain ⟨first, hfirst, hone⟩ := LinkGroup.exists_first hfit.length_pos
    refine ⟨first, hlinks ▸ List.mem_flatMap.mpr ⟨group, hgroup, hfirst⟩, ?_, hone⟩
    rw [(LinkGroup.mem_links hfirst).1, hends]

/-- The indexes of the links are different exactly when no two pairs of PoPs run
together. -/
theorem nodup_index_iff (hids : (topo.pops.map Pop.id).Nodup)
    (hlinks : topo.links = groups.flatMap LinkGroup.links)
    (hfits : ∀ group ∈ groups, group.Fits topo.pops)
    (hends : (groups.map LinkGroup.ends).Nodup) :
    (topo.links.map CoreLink.index).Nodup ↔ topo.Packed := by
  have hkeys := hlinks ▸ nodup_links hends
  have hmade := fun link (h : link ∈ topo.links) => mem_links_iff hids hlinks hfits h
  rw [List.nodup_map_iff_inj_on hkeys.of_map]
  constructor
  · -- links that run together do so from their first instances on
    intro hinj l hl l' hl' hne hoverlap
    obtain ⟨-, -, first, hfirst, hpair, hone⟩ := hmade l hl
    obtain ⟨-, -, first', hfirst', hpair', hone'⟩ := hmade l' hl'
    obtain ⟨hinst, hindex, -⟩ := hmade first hfirst
    obtain ⟨hinst', hindex', -⟩ := hmade first' hfirst'
    have hsame : first.index = first'.index := by
      rw [hindex, hindex', linkSubnetIndex_eq_iff hinst hinst', hone, hone']
      rw [show first.a = l.a from congrArg Prod.fst hpair,
        show first.b = l.b from congrArg Prod.snd hpair,
        show first'.a = l'.a from congrArg Prod.fst hpair',
        show first'.b = l'.b from congrArg Prod.snd hpair']
      exact ⟨rfl, hoverlap⟩
    exact hne (by rw [← hpair, ← hpair', hinj first hfirst first' hfirst' hsame])
  · intro hpacked l hl l' hl' hsame
    obtain ⟨hinst, hindex, -⟩ := hmade l hl
    obtain ⟨hinst', hindex', -⟩ := hmade l' hl'
    rw [hindex, hindex', linkSubnetIndex_eq_iff hinst hinst'] at hsame
    refine List.inj_on_of_nodup_map hkeys hl hl' (Prod.ext ?_ hsame.1)
    by_contra hne
    exact hpacked l hl l' hl' hne hsame.2

end Core

/-! ### Edge links -/

def edgeInstances (topo : Topology) (pop : Pop) : List ℕ :=
  if (topo.attached pop.id).isEmpty then []
  else 0 :: List.range' 1 (topo.attached pop.id).length

/-- An edge link of a PoP: it is filed under the PoP, and its subnet is the one of an
instance. -/
structure EdgeOf (topo : Topology) (pop : Pop) (inst : ℕ) (link : PlannedLink) : Prop where
  kind : link.kind = .transit ∨ link.kind = .cpe
  owner : link.a.id = pop.id
  subnet : nthSubnet topo.defaults.edgePrefix 64 (edgeSubnetIndex pop.index inst) =
    .ok link.subnet

theorem planEdges_eq_ok {topo : Topology} {pop : Pop} {links : List PlannedLink}
    (h : planEdges topo pop = .ok links) :
    (∀ link ∈ links, ∃ inst ∈ edgeInstances topo pop, EdgeOf topo pop inst link) ∧
      links.map (Network.addr ∘ PlannedLink.subnet) =
        (edgeInstances topo pop).map fun inst =>
          nthAddr topo.defaults.edgePrefix 64 (edgeSubnetIndex pop.index inst) := by
  unfold planEdges at h
  unfold edgeInstances
  split_ifs at h ⊢
  · cases h
    exact ⟨List.forall_mem_nil _, rfl⟩
  · obtain ⟨uplink, huplink, h⟩ := bind_eq_ok.mp h
    obtain ⟨cpes, hcpes, h⟩ := bind_eq_ok.mp h
    cases h
    have hup := planUplink_eq_ok huplink
    rw [← List.zipIdx_map_snd]
    constructor
    · intro link hlink
      rcases List.mem_cons.mp hlink with rfl | hlink
      · exact ⟨0, List.mem_cons_self, Or.inl hup.1, hup.2.1, hup.2.2⟩
      · obtain ⟨cpe, hcpe, hplan⟩ := (mem_of_mapM_eq_ok hcpes link).mp hlink
        obtain ⟨hkind, howner, hsubnet⟩ := planCpe_eq_ok hplan
        exact ⟨cpe.2, List.mem_cons_of_mem _ (List.mem_map_of_mem hcpe), Or.inr hkind, howner,
          hsubnet⟩
    · have huplinkAddr := (nthSubnet_eq_ok hup.2.2).2.1
      have hcpeAddr : ∀ cpe ∈ (topo.attached pop.id).zipIdx 1, ∀ link,
          planCpe topo pop cpe = .ok link → (Network.addr ∘ PlannedLink.subnet) link =
            nthAddr topo.defaults.edgePrefix 64 (edgeSubnetIndex pop.index cpe.2) := by
        intro cpe _ link hplan
        obtain ⟨-, -, hsubnet⟩ := planCpe_eq_ok hplan
        obtain ⟨-, haddr, -⟩ := nthSubnet_eq_ok hsubnet
        exact haddr
      have hcpeAddrs := map_eq_of_mapM_eq_ok hcpes hcpeAddr
      rw [List.map_cons, List.map_cons, List.map_map, hcpeAddrs, Function.comp_apply, huplinkAddr]
      rfl

section Edges

variable {topo : Topology} {edges : List (List PlannedLink)}

theorem lt_of_mem_edgeInstances (hattached : ∀ id, (topo.attached id).length ≤ maxCpesPerPop)
    {pop : Pop} {inst : ℕ} (h : inst ∈ edgeInstances topo pop) :
    inst < 256 ∧ (topo.attached pop.id).isEmpty = false := by
  unfold edgeInstances at h
  split_ifs at h with hempty
  · exact absurd h List.not_mem_nil
  · refine ⟨?_, by simpa using hempty⟩
    have hle : (topo.attached pop.id).length ≤ 255 := hattached pop.id
    rcases List.mem_cons.mp h with rfl | h
    · decide
    · have := (List.mem_range'_1.mp h).2
      omega

theorem nodup_edgeInstances (topo : Topology) (pop : Pop) : (edgeInstances topo pop).Nodup := by
  unfold edgeInstances
  split_ifs
  · exact .nil
  · refine List.nodup_cons.mpr ⟨?_, List.nodup_range'⟩
    simp [List.mem_range'_1]

theorem nodup_edges (hattached : ∀ id, (topo.attached id).length ≤ maxCpesPerPop)
    (hindexes : (topo.pops.map Pop.index).Nodup)
    (hedges : topo.pops.mapM (planEdges topo) = .ok edges) :
    (edges.flatten.map PlannedLink.subnet).Nodup := by
  have haddr : edges.map (List.map (Network.addr ∘ PlannedLink.subnet)) = topo.pops.map fun pop =>
      (edgeInstances topo pop).map fun inst =>
        nthAddr topo.defaults.edgePrefix 64 (edgeSubnetIndex pop.index inst) :=
    map_eq_of_mapM_eq_ok hedges fun pop _ links hplan => (planEdges_eq_ok hplan).2
  refine List.Nodup.of_map Network.addr ?_
  rw [List.map_map, List.map_flatten, haddr, ← List.flatMap_def, List.nodup_flatMap]
  constructor
  · intro pop _
    refine (nodup_edgeInstances topo pop).map_on fun inst hinst inst' hinst' heq => ?_
    replace heq := nthAddr_injective _ _ heq
    rw [edgeSubnetIndex_eq (lt_of_mem_edgeInstances hattached hinst).1,
      edgeSubnetIndex_eq (lt_of_mem_edgeInstances hattached hinst').1] at heq
    omega
  · refine (List.pairwise_map.mp hindexes).imp ?_
    intro pop pop' hne
    refine List.disjoint_left.mpr fun addr haddr haddr' => ?_
    obtain ⟨inst, hinst, rfl⟩ := List.mem_map.mp haddr
    obtain ⟨inst', hinst', heq⟩ := List.mem_map.mp haddr'
    have hlt := (lt_of_mem_edgeInstances hattached hinst).1
    have hlt' := (lt_of_mem_edgeInstances hattached hinst').1
    replace heq := nthAddr_injective _ _ heq
    rw [edgeSubnetIndex_eq hlt, edgeSubnetIndex_eq hlt'] at heq
    omega

end Edges

/-! ### The plan -/

/-- No address is assigned twice: core subnets, locators and edge subnets are different,
and an edge subnet lies in the aggregate of its own PoP and of no other. -/
structure Plan.Distinct (plan : Plan) : Prop where
  core : ((plan.links.filter fun l => l.kind = .core).map PlannedLink.subnet).Nodup
  locators : (plan.pops.map PopPlan.locatorPrefix).Nodup
  edges : ((plan.links.filter fun l => l.kind = .transit ∨ l.kind = .cpe).map
    PlannedLink.subnet).Nodup
  inside : ∀ l ∈ plan.links, l.kind = .transit ∨ l.kind = .cpe →
    (∃ p ∈ plan.pops, ∃ access ∈ p.access,
      p.pop.id = l.a.id ∧ l.subnet.subnetOf access.aggregate = true) ∧
    ∀ p ∈ plan.pops, ∀ access ∈ p.access,
      p.pop.id ≠ l.a.id → l.subnet.subnetOf access.aggregate = false

section Plan

variable {digest : String → ℕ} {topo : Topology} {plan : Plan}

theorem buildPlan_eq_ok (h : buildPlan digest topo = .ok plan) :
    ∃ core edges, topo.pops.mapM (planPop topo) = .ok plan.pops ∧
      (topo.links.insertionSort fun l l' => l.index ≤ l'.index).mapM (planCore topo) = .ok core ∧
      topo.pops.mapM (planEdges topo) = .ok edges ∧
      (plan.links.filter fun l => l.kind = .core) = core ∧
      (plan.links.filter fun l => l.kind = .transit ∨ l.kind = .cpe) = edges.flatten := by
  obtain ⟨pops, hpops, h⟩ := bind_eq_ok.mp h
  obtain ⟨core, hcore, h⟩ := bind_eq_ok.mp h
  obtain ⟨edges, hedges, h⟩ := bind_eq_ok.mp h
  obtain ⟨lans, hlans, h⟩ := bind_eq_ok.mp h
  cases h
  have hcoreKind : ∀ l ∈ core, l.kind = .core := by
    intro l hl
    obtain ⟨link, -, hplan⟩ := (mem_of_mapM_eq_ok hcore l).mp hl
    exact (planCore_eq_ok hplan).1
  have hedgeKind : ∀ l ∈ edges.flatten, l.kind = .transit ∨ l.kind = .cpe := by
    intro l hl
    obtain ⟨links, hlinks, hl⟩ := List.mem_flatten.mp hl
    obtain ⟨pop, -, hplan⟩ := (mem_of_mapM_eq_ok hedges links).mp hlinks
    obtain ⟨inst, -, hedge⟩ := (planEdges_eq_ok hplan).1 l hl
    exact hedge.kind
  have hlanKind : ∀ l ∈ lans.flatten, l.kind = .lan := by
    intro l hl
    obtain ⟨links, hlinks, hl⟩ := List.mem_flatten.mp hl
    obtain ⟨pop, -, hplan⟩ := (mem_of_mapM_eq_ok hlans links).mp hlinks
    obtain ⟨cpe, -, hlan⟩ := (mem_of_mapM_eq_ok hplan l).mp hl
    exact planLan_eq_ok hlan
  refine ⟨core, edges, hpops, hcore, hedges, ?_, ?_⟩
  · rw [List.filter_append, List.filter_append, List.filter_eq_self.mpr, List.filter_eq_nil_iff.mpr,
      List.filter_eq_nil_iff.mpr, List.append_nil, List.append_nil]
    · intro l hl
      simp [hlanKind l hl]
    · intro l hl
      rcases hedgeKind l hl with hkind | hkind <;> simp [hkind]
    · intro l hl
      simp [hcoreKind l hl]
  · rw [List.filter_append, List.filter_append, List.filter_eq_nil_iff.mpr, List.filter_eq_self.mpr,
      List.filter_eq_nil_iff.mpr, List.append_nil, List.nil_append]
    · intro l hl
      simp [hlanKind l hl]
    · intro l hl
      simpa using hedgeKind l hl
    · intro l hl
      simp [hcoreKind l hl]

variable {ipNetwork : Yaml → IpNetwork} {source : Yaml}

theorem nodup_core_iff (hparse : parseTopology ipNetwork source = .ok topo)
    (hplan : buildPlan digest topo = .ok plan) :
    ((plan.links.filter fun l => l.kind = .core).map PlannedLink.subnet).Nodup ↔ topo.Packed := by
  obtain ⟨root, -, hpops, -, -, -, hlinks⟩ := parseTopology_eq_ok hparse
  obtain ⟨groups, hgroups, hfits, hends⟩ := parseLinks_eq_ok hlinks
  obtain ⟨core, edges, -, hplanCore, -, hcore, -⟩ := buildPlan_eq_ok hplan
  rw [hcore, nodup_subnets_iff hplanCore fun link planned h => (planCore_eq_ok h).2,
    ((topo.links.perm_insertionSort _).map _).nodup_iff]
  exact nodup_index_iff (parsePops_nodup hpops).1 hgroups hfits hends

theorem packed_of_lt (hparse : parseTopology ipNetwork source = .ok topo)
    (h : ∀ pop ∈ topo.pops, pop.index < 256) : topo.Packed := by
  obtain ⟨root, -, hpops, -, -, -, hlinks⟩ := parseTopology_eq_ok hparse
  obtain ⟨hids, hindexes⟩ := parsePops_nodup hpops
  obtain ⟨groups, hgroups, hfits, -⟩ := parseLinks_eq_ok hlinks
  have hends : ∀ link ∈ topo.links, ∃ lo ∈ topo.pops, ∃ hi ∈ topo.pops,
      (link.a, link.b) = (lo.id, hi.id) := by
    intro link hlink
    rw [hgroups] at hlink
    obtain ⟨group, hgroup, hlink⟩ := List.mem_flatMap.mp hlink
    exact ⟨group.lo, (hfits group hgroup).lo_mem, group.hi, (hfits group hgroup).hi_mem,
      (LinkGroup.mem_links hlink).1⟩
  intro l hl l' hl' hne hoverlap
  rw [overlap_iff_of_lt (Topology.indexOf_lt h _) (Topology.indexOf_lt h _)] at hoverlap
  obtain ⟨lo, hlo, hi, hhi, hpair⟩ := hends l hl
  obtain ⟨lo', hlo', hi', hhi', hpair'⟩ := hends l' hl'
  obtain ⟨ha, hb⟩ := Prod.mk.inj hpair
  obtain ⟨ha', hb'⟩ := Prod.mk.inj hpair'
  rw [ha, hb, ha', hb', Topology.indexOf_of_mem hids hlo, Topology.indexOf_of_mem hids hhi,
    Topology.indexOf_of_mem hids hlo', Topology.indexOf_of_mem hids hhi'] at hoverlap
  refine hne ?_
  rw [hpair, hpair', List.inj_on_of_nodup_map hindexes hlo hlo' hoverlap.1,
    List.inj_on_of_nodup_map hindexes hhi hhi' hoverlap.2]

end Plan

/-- In the plan of a topology that is accepted no address is assigned twice exactly when
the indexes of no two pairs of linked PoPs run together. -/
theorem distinct_iff_packed (ipNetwork : Yaml → IpNetwork) (digest : String → ℕ) (source : Yaml)
    (topo : Topology) (plan : Plan) (hparse : parseTopology ipNetwork source = .ok topo)
    (hplan : buildPlan digest topo = .ok plan) : plan.Distinct ↔ topo.Packed := by
  obtain ⟨root, -, hpops, -, -, hcpes, -⟩ := parseTopology_eq_ok hparse
  obtain ⟨-, hindexes⟩ := parsePops_nodup hpops
  have hattached := parseCpes_attached hcpes
  obtain ⟨core, edges, hplanPops, -, hplanEdges, -, hedges⟩ := buildPlan_eq_ok hplan
  have hcore := nodup_core_iff hparse hplan
  constructor
  · intro h
    exact hcore.mp h.core
  · intro hpacked
    refine ⟨hcore.mpr hpacked, ?_,
      hedges ▸ nodup_edges hattached hindexes hplanEdges, ?_⟩
    · exact (nodup_subnets_iff hplanPops fun pop planned h => (planPop_eq_ok h).2.1).mpr hindexes
    · intro l hl hkind
      have hmem : l ∈ edges.flatten := hedges ▸ List.mem_filter.mpr ⟨hl, by simpa using hkind⟩
      obtain ⟨links, hlinks, hl⟩ := List.mem_flatten.mp hmem
      obtain ⟨pop, hpop, hplanned⟩ := (mem_of_mapM_eq_ok hplanEdges links).mp hlinks
      obtain ⟨inst, hinst, hedge⟩ := (planEdges_eq_ok hplanned).1 l hl
      obtain ⟨hlt, hnonempty⟩ := lt_of_mem_edgeInstances hattached hinst
      constructor
      · obtain ⟨p, hp, hplanned⟩ := exists_of_mapM_eq_ok hplanPops hpop
        obtain ⟨hpopEq, -, haggregate, haccess⟩ := planPop_eq_ok hplanned
        obtain ⟨access, haccess⟩ := haccess hnonempty
        refine ⟨p, hp, access, haccess, by rw [hpopEq, hedge.owner], ?_⟩
        exact (edge_subnetOf_iff hlt hedge.subnet (haggregate access haccess)).mpr rfl
      · intro p hp access haccess hne
        obtain ⟨owner, howner, hplanned⟩ := (mem_of_mapM_eq_ok hplanPops p).mp hp
        obtain ⟨hpopEq, -, haggregate, -⟩ := planPop_eq_ok hplanned
        rw [← Bool.not_eq_true, edge_subnetOf_iff hlt hedge.subnet (haggregate access haccess)]
        intro hindex
        refine hne ?_
        rw [hedge.owner, hpopEq, List.inj_on_of_nodup_map hindexes howner hpop hindex.symm]

def plainCpe (tenant : ℕ) (id portalId : String) : Yaml :=
  .map [(.str "id", .str id), (.str "attach", .str (popName 0)), (.str "tenant", .int tenant),
    (.str "prefix", .str "2001:db8::/32"), (.str "portal_id", .str portalId),
    (.str "reservation_bandwidth", .int 10)]

def triangleSource : Yaml :=
  match plainSource (popNames 3) (linksNumbered [(0, 1), (0, 2), (1, 2)]) with
  | .map entries => .map (entries ++
      [(.str "tenants", .list ([1, 2].map fun id => .map [(.str "id", .int id),
        (.str "allocation", .str "2001:db8::/32")])),
      (.str "cpes", .list [plainCpe 1 "c1" "abcdefghijkl", plainCpe 2 "c2" "mnopqrstuvwx"])])
  | source => source

theorem triangle_distinct : ∃ topo plan,
    parseTopology (fun _ => .v6 labPrefix) triangleSource = .ok topo ∧
    buildPlan (fun _ => 0) topo = .ok plan ∧
    2 ≤ (plan.links.filter fun l => l.kind = .cpe).length ∧ plan.Distinct := by
  have hcheck : (parseTopology (fun _ => .v6 labPrefix) triangleSource).toOption.any (fun topo =>
      (buildPlan (fun _ => 0) topo).toOption.any fun plan => decide
        ((∀ pop ∈ topo.pops, pop.index < 256) ∧
          2 ≤ (plan.links.filter fun l => l.kind = .cpe).length)) = true := by
    decide +kernel
  obtain ⟨topo, hparse, hcheck⟩ := any_toOption.mp hcheck
  obtain ⟨plan, hplan, hcheck⟩ := any_toOption.mp hcheck
  obtain ⟨hindexes, hcpes⟩ := of_decide_eq_true hcheck
  exact ⟨topo, plan, hparse, hplan, hcpes,
    (distinct_iff_packed _ _ _ _ _ hparse hplan).mpr (packed_of_lt hparse hindexes)⟩

/-- With 256 PoPs the second and the third one get the same subnet for a link to the last. -/
theorem links_to_256th_share_subnet : ∃ topo plan,
    parseTopology (fun _ => .v6 labPrefix)
      (plainSource (popNames 256) (linksNumbered [(1, 255), (2, 255)])) = .ok topo ∧
    buildPlan (fun _ => 0) topo = .ok plan ∧ ¬ plan.Distinct := by
  have hcheck : (parseLinks (plainRoot (popNames 256) (linksNumbered [(1, 255), (2, 255)]))
      ((popNames 256).mapIdx Pop.plain)).toOption.any (fun links =>
        (buildPlan (fun _ => 0) (plainTopology labPrefix (popNames 256) links)).toOption.any
          fun plan => decide
            (¬ ((plan.links.filter fun l => l.kind = .core).map PlannedLink.subnet).Nodup)) =
      true := by
    decide +kernel
  obtain ⟨links, hlinks, hcheck⟩ := any_toOption.mp hcheck
  obtain ⟨plan, hplan, hshared⟩ := any_toOption.mp hcheck
  have hlen : labPrefix.prefixlen ≤ 48 := by decide
  have hne : popNames 256 ≠ [] := by simp [popNames]
  have hparse := parseTopology_plain hlen hne (fun _ => ne_empty_of_mem_popNames)
    (popNames_nodup 256) hlinks
  exact ⟨_, plan, hparse, hplan, fun hdistinct => of_decide_eq_true hshared hdistinct.core⟩

end Maeto.Generator
