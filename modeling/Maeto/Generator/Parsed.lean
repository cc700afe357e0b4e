import Maeto.Generator.Parse

/-!
# What the parser promises

What holds of every topology that is accepted: the ids and the indexes of its PoPs are
different, no PoP has more sites than there is room for, and its links are those of
entries between different pairs of PoPs.
-/

namespace Maeto.Generator

open Foundation Result

variable {pops : List Pop} {i : ℕ} {root : Dict} {ipNetwork : Yaml → IpNetwork}
  {tenants : List Tenant}

theorem parsePop_eq_ok {raw : Yaml} {pop : Pop} (h : parsePop pops i raw = .ok pop) :
    pop.id ∉ pops.map Pop.id ∧ pop.index ∉ pops.map Pop.index := by
  obtain ⟨d, -, h⟩ := bind_eq_ok.mp h
  obtain ⟨_, -, h⟩ := bind_eq_ok.mp h
  obtain ⟨id, -, h⟩ := bind_eq_ok.mp h
  obtain ⟨_, hid, h⟩ := bind_eq_ok.mp h
  obtain ⟨index, -, h⟩ := bind_eq_ok.mp h
  obtain ⟨_, hindex, h⟩ := bind_eq_ok.mp h
  obtain ⟨label, -, h⟩ := bind_eq_ok.mp h
  obtain ⟨data, -, h⟩ := bind_eq_ok.mp h
  cases h
  exact ⟨require_eq_ok.mp hid, require_eq_ok.mp hindex⟩

theorem parsePops_nodup (h : parsePops root = .ok pops) :
    (pops.map Pop.id).Nodup ∧ (pops.map Pop.index).Nodup := by
  unfold parsePops at h
  split at h
  · refine @collectM_induction _ _ _ _
      (fun pops => (pops.map Pop.id).Nodup ∧ (pops.map Pop.index).Nodup) ⟨.nil, .nil⟩ ?_ _ _ h
    rintro done i raw pop ⟨hids, hindexes⟩ hpop
    obtain ⟨hid, hindex⟩ := parsePop_eq_ok hpop
    simp only [List.map_append, List.map_singleton]
    exact ⟨List.concat_eq_append ▸ hids.concat hid, List.concat_eq_append ▸ hindexes.concat hindex⟩
  · cases h

theorem mapping_eq_ok {value : Option Yaml} {text : String} {d : Dict} :
    mapping value text = .ok d ↔ value = some (.map d) := by
  unfold mapping
  split
  · simp
  · next hne =>
      refine iff_of_false (fun h => nomatch h) ?_
      rintro rfl
      exact hne d rfl

theorem mbps_eq_ok {value : Option Yaml} {place : String} {q : ℚ}
    (h : mbps value place = .ok q) : 0 < q := by
  unfold mbps at h
  split at h
  · cases h
  · split_ifs at h with hpos
    · cases h
    · cases h
      exact not_le.mp hpos

theorem parseTenants_nodup
    (h : parseTenants ipNetwork root = .ok tenants) : (tenants.map Tenant.id).Nodup := by
  obtain ⟨items, -, h⟩ := bind_eq_ok.mp h
  refine @collectM_induction _ _ _ _ (fun tenants => (tenants.map Tenant.id).Nodup) .nil ?_
    _ _ h
  intro done i raw tenant hdone hround
  obtain ⟨d, -, hround⟩ := bind_eq_ok.mp hround
  obtain ⟨_, -, hround⟩ := bind_eq_ok.mp hround
  obtain ⟨id, -, hround⟩ := bind_eq_ok.mp hround
  obtain ⟨_, hid, hround⟩ := bind_eq_ok.mp hround
  obtain ⟨allocation, -, hround⟩ := bind_eq_ok.mp hround
  obtain ⟨tier, -, hround⟩ := bind_eq_ok.mp hround
  obtain ⟨data, -, hround⟩ := bind_eq_ok.mp hround
  cases hround
  simp only [List.map_append, List.map_singleton]
  exact List.concat_eq_append ▸ hdone.concat (require_eq_ok.mp hid)

theorem cpeTenant_eq_ok {raw : Dict} {place : String} {tenant : Tenant}
    (h : cpeTenant tenants raw place = .ok tenant) : tenant ∈ tenants := by
  unfold cpeTenant at h
  split at h
  · next hfind =>
      cases h
      exact List.mem_of_find?_eq_some hfind
  · cases h

theorem parseCpe_eq_ok {popIds : List String}
    {tiers : List Tier} {classNames : List String} {cpes : List Cpe}
    {raw : Yaml} {cpe : Cpe}
    (h : parseCpe ipNetwork popIds tenants tiers classNames cpes i raw = .ok cpe) :
    (cpes.filter fun c => c.attach = cpe.attach).length + 1 ≤ maxCpesPerPop ∧
      0 < cpe.reservationMbps ∧
      ∃ d, raw = .map d ∧ ∃ tenant ∈ tenants, tenant.id = cpe.tenant ∧ ∃ place,
        siteClassMbps d cpe.reservationMbps tenant.tier tiers classNames place =
          .ok cpe.classMbps := by
  obtain ⟨d, hraw, h⟩ := bind_eq_ok.mp h
  obtain ⟨_, -, h⟩ := bind_eq_ok.mp h
  obtain ⟨id, -, h⟩ := bind_eq_ok.mp h
  obtain ⟨_, -, h⟩ := bind_eq_ok.mp h
  obtain ⟨_, -, h⟩ := bind_eq_ok.mp h
  obtain ⟨attach, -, h⟩ := bind_eq_ok.mp h
  obtain ⟨_, hcount, h⟩ := bind_eq_ok.mp h
  obtain ⟨tenant, htenant, h⟩ := bind_eq_ok.mp h
  obtain ⟨sitePrefix, -, h⟩ := bind_eq_ok.mp h
  obtain ⟨_, -, h⟩ := bind_eq_ok.mp h
  obtain ⟨_, -, h⟩ := bind_eq_ok.mp h
  obtain ⟨_, -, h⟩ := bind_eq_ok.mp h
  obtain ⟨_, -, h⟩ := bind_eq_ok.mp h
  obtain ⟨_, -, h⟩ := bind_eq_ok.mp h
  obtain ⟨reservation, hreservation, h⟩ := bind_eq_ok.mp h
  obtain ⟨classMbps, hclasses, h⟩ := bind_eq_ok.mp h
  obtain ⟨label, -, h⟩ := bind_eq_ok.mp h
  obtain ⟨data, -, h⟩ := bind_eq_ok.mp h
  cases h
  exact ⟨require_eq_ok.mp hcount, mbps_eq_ok hreservation, d,
    Option.some.inj (mapping_eq_ok.mp hraw), tenant, cpeTenant_eq_ok htenant, rfl, _, hclasses⟩

theorem parseCpes_attached {popIds : List String}
    {tiers : List Tier} {classNames : List String} {cpes : List Cpe}
    (h : parseCpes ipNetwork root popIds tenants tiers classNames = .ok cpes) (id : String) :
    (cpes.filter fun c => c.attach = id).length ≤ maxCpesPerPop := by
  obtain ⟨items, -, h⟩ := bind_eq_ok.mp h
  refine @collectM_induction _ _ _ _
    (fun cpes => (cpes.filter fun c => c.attach = id).length ≤ maxCpesPerPop) (Nat.zero_le _) ?_ _ _
    h
  intro done i raw cpe hdone hcpe
  obtain ⟨hcount, -⟩ := parseCpe_eq_ok hcpe
  rw [List.filter_append, List.length_append]
  by_cases hattach : cpe.attach = id
  · rw [hattach] at hcount
    simpa [hattach] using hcount
  · simpa [hattach] using hdone

theorem linkEnd_eq_ok {raw : Dict} {key : String} {pop : Pop}
    (h : linkEnd pops raw key i = .ok pop) : pop ∈ pops := by
  unfold linkEnd at h
  split at h
  · split at h
    · next hfind =>
        cases h
        exact List.mem_of_find?_eq_some hfind
    · cases h
  · cases h

theorem linkParallel_eq_ok {raw : Dict} {specs : List LinkSpec}
    (h : linkParallel raw i = .ok specs) : 1 ≤ specs.length ∧ specs.length ≤ 256 := by
  unfold linkParallel at h
  split at h
  · next first rest _ =>
      obtain ⟨_, hlen, h⟩ := bind_eq_ok.mp h
      have hmap := congrArg List.length (map_eq_of_mapM_eq_ok (g := fun _ => ())
        (h := fun _ => ()) h fun _ _ _ _ => rfl)
      rw [List.length_map, List.length_map, List.length_zipIdx] at hmap
      rw [hmap]
      exact ⟨by simp, require_eq_ok.mp hlen⟩
  · cases h

/-- The PoPs of an entry are two different ones of the topology, in the order of their
indexes, and it has between one and 256 parallel links. -/
structure LinkGroup.Fits (pops : List Pop) (group : LinkGroup) : Prop where
  lo_mem : group.lo ∈ pops
  hi_mem : group.hi ∈ pops
  le : group.lo.index ≤ group.hi.index
  length_pos : 1 ≤ group.specs.length
  length_le : group.specs.length ≤ 256

def LinkGroup.ends (group : LinkGroup) : String × String := (group.lo.id, group.hi.id)

theorem parseLink_eq_ok {groups : List LinkGroup} {raw : Yaml}
    {group : LinkGroup} (h : parseLink pops groups i raw = .ok group) :
    group.Fits pops ∧ group.ends ∉ groups.map LinkGroup.ends := by
  obtain ⟨d, -, h⟩ := bind_eq_ok.mp h
  obtain ⟨_, -, h⟩ := bind_eq_ok.mp h
  obtain ⟨a, ha, h⟩ := bind_eq_ok.mp h
  obtain ⟨b, hb, h⟩ := bind_eq_ok.mp h
  obtain ⟨_, -, h⟩ := bind_eq_ok.mp h
  obtain ⟨_, hseen, h⟩ := bind_eq_ok.mp h
  obtain ⟨specs, hspecs, h⟩ := bind_eq_ok.mp h
  cases h
  replace hseen := require_eq_ok.mp hseen
  obtain ⟨hpos, hlen⟩ := linkParallel_eq_ok hspecs
  rw [List.mem_map, not_exists]
  split_ifs with hle
  · refine ⟨⟨linkEnd_eq_ok ha, linkEnd_eq_ok hb, hle, hpos, hlen⟩, ?_⟩
    rintro other ⟨hother, hends⟩
    exact hseen other hother (Or.inl ⟨congrArg Prod.fst hends, congrArg Prod.snd hends⟩)
  · refine ⟨⟨linkEnd_eq_ok hb, linkEnd_eq_ok ha, (not_le.mp hle).le, hpos, hlen⟩, ?_⟩
    rintro other ⟨hother, hends⟩
    exact hseen other hother (Or.inr ⟨congrArg Prod.fst hends, congrArg Prod.snd hends⟩)

theorem parseLinks_eq_ok {links : List CoreLink} (h : parseLinks root pops = .ok links) :
    ∃ groups : List LinkGroup, links = groups.flatMap LinkGroup.links ∧
      (∀ group ∈ groups, group.Fits pops) ∧ (groups.map LinkGroup.ends).Nodup := by
  obtain ⟨items, -, h⟩ := bind_eq_ok.mp h
  obtain ⟨groups, hgroups, h⟩ := bind_eq_ok.mp h
  cases h
  refine ⟨groups, rfl, ?_⟩
  refine @collectM_induction _ _ _ _
    (fun groups => (∀ group ∈ groups, group.Fits pops) ∧ (groups.map LinkGroup.ends).Nodup)
    ⟨fun _ hmem => absurd hmem List.not_mem_nil, .nil⟩ ?_ _ _ hgroups
  rintro done i raw group ⟨hfits, hnodup⟩ hgroup
  obtain ⟨hfit, hnew⟩ := parseLink_eq_ok hgroup
  refine ⟨?_, ?_⟩
  · intro other hother
    rcases List.mem_append.mp hother with hother | hother
    · exact hfits other hother
    · exact List.mem_singleton.mp hother ▸ hfit
  · simp only [List.map_append, List.map_singleton]
    exact List.concat_eq_append ▸ hnodup.concat hnew

theorem parseTopology_eq_ok {source : Yaml} {topo : Topology}
    (h : parseTopology ipNetwork source = .ok topo) :
    ∃ root, source = .map root ∧ parsePops root = .ok topo.pops ∧
      parseTiers root (topo.classes.map TrafficClass.name) = .ok topo.tiers ∧
      parseTenants ipNetwork root = .ok topo.tenants ∧
      parseCpes ipNetwork root (topo.pops.map Pop.id) topo.tenants topo.tiers
        (topo.classes.map TrafficClass.name) = .ok topo.cpes ∧
      parseLinks root topo.pops = .ok topo.links := by
  obtain ⟨root, hroot, h⟩ := bind_eq_ok.mp h
  obtain ⟨_, -, h⟩ := bind_eq_ok.mp h
  obtain ⟨name, -, h⟩ := bind_eq_ok.mp h
  obtain ⟨defaults, -, h⟩ := bind_eq_ok.mp h
  obtain ⟨pops, hpops, h⟩ := bind_eq_ok.mp h
  obtain ⟨classes, -, h⟩ := bind_eq_ok.mp h
  obtain ⟨tiers, htiers, h⟩ := bind_eq_ok.mp h
  obtain ⟨tenants, htenants, h⟩ := bind_eq_ok.mp h
  obtain ⟨cpes, hcpes, h⟩ := bind_eq_ok.mp h
  obtain ⟨links, hlinks, h⟩ := bind_eq_ok.mp h
  cases h
  exact ⟨root, Option.some.inj (mapping_eq_ok.mp hroot), hpops, htiers, htenants, hcpes, hlinks⟩

end Maeto.Generator
