import Maeto.Generator.Parsed
import Maeto.Generator.Plan

/-!
# Topologies with nothing but PoPs and links

A topology whose PoPs give their ids only is accepted as soon as the ids are different and
the links are: the parser sets no bound on the number of PoPs.
-/

namespace Maeto.Generator

open Foundation Result

def labPrefix : Network :=
  ⟨0x20010db8 * 2 ^ 96, 32, by decide, by decide, Dvd.intro_left _ rfl⟩

def Pop.plain (i : ℕ) (id : String) : Pop :=
  { id := id, index := i + 1, nodeName := "Pop" ++ id, clabLabel := "Pop" ++ id, data := [] }

def plainPop (id : String) : Yaml := .map [(.str "id", .str id)]

def plainLink (ends : Pop × Pop) : Yaml :=
  .map [(.str "a", .str ends.1.id), (.str "b", .str ends.2.id),
    (.str "parallel", .list [.map [(.str "bandwidth", .int 100), (.str "delay", .int 1)]])]

def plainRoot (ids : List String) (links : List (Pop × Pop)) : Dict :=
  [(.str "name", .str "lab"),
    (.str "defaults", .map [(.str "locator_prefix", .str "2001:db8::/32"),
      (.str "link_prefix", .str "2001:db8::/32"), (.str "edge_prefix", .str "2001:db8::/32")]),
    (.str "pops", .list (ids.map plainPop)), (.str "links", .list (links.map plainLink))]

def plainSource (ids : List String) (links : List (Pop × Pop)) : Yaml := .map (plainRoot ids links)

def plainTopology (net : Network) (ids : List String) (links : List CoreLink) : Topology :=
  { name := "lab", defaults := ⟨net, net, net⟩, pops := ids.mapIdx Pop.plain, tenants := [],
    cpes := [], links, classes := [], tiers := [] }

theorem map_id_plain (ids : List String) : (ids.mapIdx Pop.plain).map Pop.id = ids := by
  refine List.ext_getElem? fun i => ?_
  rw [List.getElem?_map, List.getElem?_mapIdx, Option.map_map]
  exact Option.map_id'

variable {ids : List String}

theorem index_of_mem_plain {pop : Pop} (h : pop ∈ ids.mapIdx Pop.plain) :
    1 ≤ pop.index ∧ pop.index ≤ ids.length := by
  obtain ⟨i, hi, rfl⟩ := List.mem_mapIdx.mp h
  exact ⟨Nat.succ_pos i, hi⟩

theorem parsePop_plain {done : List String} {id : String} (hid : id ≠ "") (hnew : id ∉ done) :
    parsePop (done.mapIdx Pop.plain) done.length (plainPop id) =
      .ok (Pop.plain done.length id) := by
  have hindex : done.length + 1 ∉ (done.mapIdx Pop.plain).map Pop.index := by
    intro hmem
    obtain ⟨pop, hpop, heq⟩ := List.mem_map.mp hmem
    have := (index_of_mem_plain hpop).2
    omega
  refine bind_eq_ok.mpr ⟨[(.str "id", .str id)], rfl, ?_⟩
  refine bind_eq_ok.mpr ⟨(), rfl, ?_⟩
  refine bind_eq_ok.mpr ⟨id, if_neg hid, ?_⟩
  refine bind_eq_ok.mpr ⟨(), require_eq_ok.mpr (by rwa [map_id_plain]), ?_⟩
  refine bind_eq_ok.mpr ⟨done.length + 1, rfl, ?_⟩
  exact bind_eq_ok.mpr ⟨(), require_eq_ok.mpr hindex, rfl⟩

theorem parsePops_plain {root : Dict} (hne : ids ≠ [])
    (hids : ∀ id ∈ ids, id ≠ "") (hnodup : ids.Nodup)
    (h : Dict.get root "pops" = some (.list (ids.map plainPop))) :
    parsePops root = .ok (ids.mapIdx Pop.plain) := by
  have hcollect : Result.collectM parsePop (ids.map plainPop) = .ok (ids.mapIdx Pop.plain) := by
    refine collectM_map_eq_ok fun done id rest hsplit => ?_
    rw [hsplit] at hids hnodup
    refine parsePop_plain (hids id (by simp)) fun hmem => ?_
    exact (List.disjoint_of_nodup_append hnodup) hmem List.mem_cons_self
  unfold parsePops
  rw [h]
  cases ids with
  | nil => exact absurd rfl hne
  | cons id ids => exact hcollect

theorem parseTopology_plain {net : Network} {links : List (Pop × Pop)}
    {parsed : List CoreLink} (hlen : net.prefixlen ≤ 48) (hne : ids ≠ [])
    (hids : ∀ id ∈ ids, id ≠ "") (hnodup : ids.Nodup)
    (hlinks : parseLinks (plainRoot ids links) (ids.mapIdx Pop.plain) = .ok parsed) :
    parseTopology (fun _ => .v6 net) (plainSource ids links) =
      .ok (plainTopology net ids parsed) := by
  have hdefaults : ∀ carve, 48 ≤ carve → ∀ name value,
      checkPrefix (fun _ => .v6 net) name value carve = .ok net := by
    intro carve hcarve name value
    exact bind_eq_ok.mpr ⟨(), require_eq_ok.mpr (hlen.trans hcarve), rfl⟩
  have hname : strip "lab" ≠ "" := by decide +kernel
  refine bind_eq_ok.mpr ⟨_, rfl, ?_⟩
  refine bind_eq_ok.mpr ⟨(), require_eq_ok.mpr rfl, ?_⟩
  refine bind_eq_ok.mpr ⟨"lab", ?_, ?_⟩
  · change (if strip "lab" = "" then fail "name must be a non-empty string" else _) = _
    exact if_neg hname
  refine bind_eq_ok.mpr ⟨⟨net, net, net⟩, ?_, ?_⟩
  · refine bind_eq_ok.mpr ⟨_, rfl, ?_⟩
    refine bind_eq_ok.mpr ⟨(), require_eq_ok.mpr rfl, ?_⟩
    refine bind_eq_ok.mpr ⟨net, hdefaults 48 le_rfl _ _, ?_⟩
    refine bind_eq_ok.mpr ⟨net, hdefaults 64 (by decide) _ _, ?_⟩
    exact bind_eq_ok.mpr ⟨net, hdefaults edgeAggregatePrefixlen (by decide) _ _, rfl⟩
  refine bind_eq_ok.mpr ⟨_, parsePops_plain hne hids hnodup rfl, ?_⟩
  refine bind_eq_ok.mpr ⟨[], rfl, ?_⟩
  refine bind_eq_ok.mpr ⟨[], rfl, ?_⟩
  refine bind_eq_ok.mpr ⟨[], rfl, ?_⟩
  refine bind_eq_ok.mpr ⟨[], rfl, ?_⟩
  exact bind_eq_ok.mpr ⟨_, hlinks, rfl⟩

def popName (i : ℕ) : String := String.ofList ('p' :: Nat.toDigits 10 i)

theorem popName_injective : Function.Injective popName := by
  intro i j h
  have hdigits := (List.cons.inj (String.ofList_injective h)).2
  exact Text.toDigits_injective (by decide) (by decide) hdigits

def popNames (n : ℕ) : List String := (List.range n).map popName

theorem ne_empty_of_mem_popNames {n : ℕ} {id : String} (h : id ∈ popNames n) : id ≠ "" := by
  obtain ⟨i, -, rfl⟩ := List.mem_map.mp h
  exact fun hempty => List.cons_ne_nil _ _ (String.ofList_injective hempty)

theorem popNames_nodup (n : ℕ) : (popNames n).Nodup := List.nodup_range.map popName_injective

def linksNumbered (pairs : List (ℕ × ℕ)) : List (Pop × Pop) :=
  pairs.map fun p => (Pop.plain p.1 (popName p.1), Pop.plain p.2 (popName p.2))

end Maeto.Generator
