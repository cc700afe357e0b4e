import Maeto.ControlPlane.Cspf.Optimal
import Maeto.ControlPlane.Pce.Report
import Maeto.Foundation.Table

/-!
# The links that are named as causes

The causes of a change are found by the nodes of the departing path: every link from one node of
it to the next counts, whether or not the path goes over it. Where links run in parallel, a link
that the path does not use may be named, and its rise is part of the total of which the others
get their shares.

The total is the rise of the path's own links and that of the links beside it
(`sum_hopLinks`). The causes are those of the path exactly when nothing beside it rose, unless
no link has a share that is large enough to be named.
-/

namespace Maeto.ControlPlane

open Foundation GoMap Result

section Rise

def riseOf (dim : CostDimension) (now : Costs) (e : CostGraphEdge × Cost) : CostFloat :=
  match now.lookup e.1 with
  | none => 0
  | some curr => max 0 (costRise (e.2.getD dim 0) (curr.getD dim 0))

theorem riseOf_nonneg (dim : CostDimension) (now : Costs) (e : CostGraphEdge × Cost) :
    0 ≤ riseOf dim now e := by
  unfold riseOf
  split
  · exact le_rfl
  · exact le_max_left _ _

theorem causeOf_cases (dim : CostDimension) (now : Costs) (e : CostGraphEdge × Cost) :
    (riseOf dim now e = 0 ∧ causeOf dim now e = none) ∨
      0 < riseOf dim now e ∧ ∃ c, causeOf dim now e = some c ∧ c.edge = e.1.id ∧
        c.delta = riseOf dim now e := by
  unfold causeOf riseOf
  cases now.lookup e.1 with
  | none => exact Or.inl ⟨rfl, rfl⟩
  | some curr =>
    simp only
    split_ifs with hdelta
    · exact Or.inl ⟨max_eq_left hdelta, rfl⟩
    · have hpos := not_le.mp hdelta
      rw [max_eq_right hpos.le]
      exact Or.inr ⟨hpos, _, rfl, rfl, rfl⟩

variable {dim : CostDimension} {now : Costs}

theorem of_causeOf_eq_some {e : CostGraphEdge × Cost} {c : PathChangeCause}
    (h : causeOf dim now e = some c) :
    c.edge = e.1.id ∧ c.delta = riseOf dim now e ∧ 0 < c.delta := by
  rcases causeOf_cases dim now e with ⟨-, hnone⟩ | ⟨hpos, c', hsome, hedge, hdelta⟩
  · rw [hnone] at h
    cases h
  · rw [hsome] at h
    cases h
    exact ⟨hedge, hdelta, hdelta ▸ hpos⟩

theorem sum_filterMap_causeOf (dim : CostDimension) (now : Costs)
    (l : List (CostGraphEdge × Cost)) :
    ((l.filterMap (causeOf dim now)).map PathChangeCause.delta).sum =
      (l.map (riseOf dim now)).sum := by
  induction l with
  | nil => rfl
  | cons e l ih =>
    rw [List.map_cons, List.sum_cons, ← ih]
    rcases causeOf_cases dim now e with ⟨hrise, hnone⟩ | ⟨-, c, hsome, -, hdelta⟩
    · rw [List.filterMap_cons_none hnone, hrise, zero_add]
    · rw [List.filterMap_cons_some hsome, List.map_cons, List.sum_cons, hdelta]

end Rise

section Hops

def Path.hops (path : Path) : List (NodeID × NodeID) := path.nodes.zip path.nodes.tail

def hopLinks (ord : RangeOrder) (path : Path) (was : Costs) : List (CostGraphEdge × Cost) :=
  path.hops.flatMap fun hop => costsBetween ord was hop.1 hop.2

def Path.ownLinks (path : Path) : List CostGraphEdge :=
  path.edges.map fun id => ⟨id.link, id.fromNode, id.toNode⟩

variable {path : Path}

theorem mem_hopLinks {ord : RangeOrder} {was : Costs} {e : CostGraphEdge × Cost} :
    e ∈ hopLinks ord path was ↔
      was.lookup e.1 = some e.2 ∧ (e.1.fromNode, e.1.toNode) ∈ path.hops := by
  rw [hopLinks, List.mem_flatMap]
  simp only [costsBetween, List.mem_filter, mem_range ord was e.1 e.2, Bool.and_eq_true,
    beq_iff_eq]
  constructor
  · rintro ⟨⟨u, v⟩, hhop, hlookup, rfl, rfl⟩
    exact ⟨hlookup, hhop⟩
  · rintro ⟨hlookup, hhop⟩
    exact ⟨_, hhop, hlookup, rfl, rfl⟩

theorem nodup_hops (h : path.nodes.Nodup) : path.hops.Nodup := by
  refine List.Nodup.of_map Prod.snd ?_
  rw [Path.hops, List.map_snd_zip (by rw [List.length_tail]; omega)]
  exact h.sublist (List.tail_sublist _)

theorem nodup_hopLinks (h : path.nodes.Nodup) (ord : RangeOrder) (was : Costs) :
    ((hopLinks ord path was).map Prod.fst).Nodup := by
  refine @Table.nodup_flatMap _ _ _ _ path.hops id _ Prod.fst
    (fun key => (key.fromNode, key.toNode)) ?_ ?_ ?_
  · rw [List.map_id]
    exact nodup_hops h
  · intro hop _ e he
    have hends := (List.mem_filter.mp he).2
    rw [Bool.and_eq_true, beq_iff_eq, beq_iff_eq] at hends
    exact Prod.ext hends.1 hends.2
  · intro hop _
    exact (range_keys_nodup ord was).sublist (List.filter_sublist.map _)

end Hops

section Computed

variable {g : Graph} {src : NodeID} {path : Path}

theorem reconstructLoop_links {prev : GoMap NodeID PCEEdgeID} {fuel : ℕ}
    {current : NodeID} {path' : Path}
    (hok : reconstructLoop (newPCEGraph g) src prev fuel current path = .ok path')
    (h : path.links = path.edges.map PCEEdgeID.link) :
    path'.links = path'.edges.map PCEEdgeID.link := by
  induction fuel generalizing current path with
  | zero => cases hok
  | succ fuel ih =>
    unfold reconstructLoop at hok
    split_ifs at hok
    · cases hok
      exact h
    · cases hprev : prev.lookup current with
      | none => simp [hprev] at hok
      | some id =>
        cases hedge : (newPCEGraph g).edges.lookup id with
        | none => simp [hprev, hedge] at hok
        | some pe =>
          simp only [hprev, hedge] at hok
          obtain ⟨e, -, -, rfl, rfl⟩ := (newPCEGraph_lookup g id pe).mp hedge
          refine ih hok ?_
          rw [List.map_append, h]
          rfl

theorem computePath_links {costs : Costs} {obj : Objective} {dst : NodeID}
    (h : computePath (newPCEGraph g) costs obj src dst = .ok path) :
    path.links = path.edges.map PCEEdgeID.link := by
  unfold computePath at h
  split_ifs at h
  · cases h
    rfl
  · unfold pathOf reconstruct at h
    split_ifs at h
    obtain ⟨read, hread, rfl⟩ := map_eq_ok.mp h
    obtain ⟨found, hfound, rfl⟩ := map_eq_ok.mp hread
    rw [List.map_reverse, ← reconstructLoop_links hfound rfl]

theorem zip_tail_of_chain {nodes : List NodeID} {ids : List PCEEdgeID}
    (h : (newPCEGraph g).Chain nodes ids) :
    nodes.zip nodes.tail = ids.map fun id => (id.fromNode, id.toNode) := by
  induction h with
  | single => rfl
  | cons hedge hnode hrest ih =>
    obtain ⟨e, -, -, rfl, rfl⟩ := (newPCEGraph_lookup g _ _).mp hedge
    rw [List.tail_cons, List.zip_cons_cons, List.map_cons, ← ih]
    rfl

theorem mem_edges_of_chain {nodes : List NodeID} {ids : List PCEEdgeID}
    (h : (newPCEGraph g).Chain nodes ids) {id : PCEEdgeID} (hid : id ∈ ids) :
    ∃ e, g.edges.lookup e.id = some e ∧ id = PCEEdgeID.newLinkID e := by
  induction h with
  | single => cases hid
  | cons hedge hnode hrest ih =>
    rcases List.mem_cons.mp hid with rfl | hid
    · obtain ⟨e, he, -, hid, -⟩ := (newPCEGraph_lookup g _ _).mp hedge
      exact ⟨e, he, hid⟩
    · exact ih hid

structure Path.OverLinks (g : Graph) (path : Path) : Prop where
  nodup : path.nodes.Nodup
  hops : path.hops = path.ownLinks.map fun key => (key.fromNode, key.toNode)
  links : path.links = path.ownLinks.map CostGraphEdge.id
  known : ∀ key ∈ path.ownLinks, ∃ e, g.edges.lookup key.id = some e ∧ key = costKey e

theorem overLinks_of_computePath {costs : Costs} {obj : Objective} {dst : NodeID}
    (h : computePath (newPCEGraph g) costs obj src dst = .ok path) : path.OverLinks g := by
  obtain ⟨hchain, -, -, hnodup⟩ := computePath_chain (newPCEGraph_consistent g).adjFrom h
  refine ⟨hnodup, ?_, ?_, ?_⟩
  · rw [Path.hops, zip_tail_of_chain hchain, Path.ownLinks, List.map_map]
    rfl
  · rw [computePath_links h, Path.ownLinks, List.map_map]
    rfl
  · intro key hkey
    obtain ⟨id, hid, rfl⟩ := List.mem_map.mp hkey
    obtain ⟨e, he, rfl⟩ := mem_edges_of_chain hchain hid
    exact ⟨e, he, rfl⟩

end Computed

section Totals

variable {g : Graph} {path : Path} {was : Costs}

/-- The snapshot is about links of the topology. -/
def OfLinks (g : Graph) (costs : Costs) : Prop :=
  ∀ key cost, costs.lookup key = some cost → ∃ e, g.edges.lookup key.id = some e ∧ key = costKey e

structure CostGraph.OverLinks (g : Graph) (cg : CostGraph) : Prop where
  graph : OfLinks g cg.costs
  byID : ∀ id key, cg.byID.lookup id = some key →
    ∃ e, g.edges.lookup key.id = some e ∧ key = costKey e

variable {cg : CostGraph}

theorem CostGraph.OverLinks.addEdge {cg' : CostGraph} (h : cg.OverLinks g) {id : EdgeID}
    (hok : CostGraph.addEdge g cg id = .ok cg') : cg'.OverLinks g := by
  unfold CostGraph.addEdge at hok
  split at hok
  · cases hok
  · next edge hedge =>
      have hknown : ∃ e, g.edges.lookup (costKey edge).id = some e ∧ costKey edge = costKey e := by
        refine ⟨edge, ?_, rfl⟩
        rw [costKey, g.edges_id id edge hedge, hedge]
      split at hok
      · cases hok
        exact h
      · cases hok
        refine ⟨?_, ?_⟩
        · exact forall_lookup_insert h.graph hknown
        · exact forall_lookup_insert h.byID hknown

theorem CostGraph.overLinks_newCostGraph {ord : RangeOrder} {startedAt : Time}
    (hok : CostGraph.newCostGraph ord g startedAt = .ok cg) : cg.OverLinks g := by
  refine @foldlM_induction _ _ _ _ (fun _ cg => cg.OverLinks g) _ _ _ ?_ ?_ hok
  · exact ⟨forall_lookup_empty _,
      forall_lookup_empty _⟩
  · intro done n cg cg' _ h hok
    refine @foldlM_induction _ _ _ _ (fun _ cg => cg.OverLinks g) _ _ _ h ?_ hok
    intro _ id _ _ _ h hok
    exact h.addEdge hok

theorem CostGraph.OverLinks.updateCost (h : cg.OverLinks g) (id : EdgeID)
    (dim : CostDimension) (cost : ExtCost) : (cg.updateCost id dim cost).OverLinks g := by
  unfold CostGraph.updateCost
  split
  · exact h
  · next key hkey => exact ⟨forall_lookup_insert h.graph (h.byID id key hkey), h.byID⟩

theorem eq_of_known {key key' : CostGraphEdge}
    (h : ∃ e, g.edges.lookup key.id = some e ∧ key = costKey e)
    (h' : ∃ e, g.edges.lookup key'.id = some e ∧ key' = costKey e) (hid : key.id = key'.id) :
    key = key' := by
  obtain ⟨e, he, hkey⟩ := h
  obtain ⟨e', he', hkey'⟩ := h'
  rw [hid, he'] at he
  cases he
  rw [hkey, hkey']

def riseAt (dim : CostDimension) (was now : Costs) (key : CostGraphEdge) : CostFloat :=
  match was.lookup key with
  | none => 0
  | some prev => riseOf dim now (key, prev)

def ownRise (dim : CostDimension) (was now : Costs) (path : Path) : CostFloat :=
  (path.ownLinks.map (riseAt dim was now)).sum

def besideLinks (ord : RangeOrder) (path : Path) (was : Costs) : List (CostGraphEdge × Cost) :=
  (hopLinks ord path was).filter fun e => e.1 ∉ path.ownLinks

theorem Path.OverLinks.nodup_ownLinks (h : path.OverLinks g) : path.ownLinks.Nodup := by
  refine List.Nodup.of_map (fun key => (key.fromNode, key.toNode)) ?_
  rw [← h.hops]
  exact nodup_hops h.nodup

def ownEntries (path : Path) (was : Costs) : List (CostGraphEdge × Cost) :=
  path.ownLinks.filterMap fun key => (was.lookup key).map (Prod.mk key)

theorem mem_ownEntries {e : CostGraphEdge × Cost} :
    e ∈ ownEntries path was ↔ e.1 ∈ path.ownLinks ∧ was.lookup e.1 = some e.2 := by
  rw [ownEntries, List.mem_filterMap]
  constructor
  · rintro ⟨key, hkey, hsome⟩
    obtain ⟨cost, hcost, rfl⟩ := Option.map_eq_some_iff.mp hsome
    exact ⟨hkey, hcost⟩
  · rintro ⟨hkey, hlookup⟩
    exact ⟨e.1, hkey, by rw [hlookup]; rfl⟩

theorem sum_ownEntries (dim : CostDimension) (was now : Costs) (path : Path) :
    ((ownEntries path was).map (riseOf dim now)).sum = ownRise dim was now path := by
  rw [ownEntries, ownRise]
  induction path.ownLinks with
  | nil => rfl
  | cons key keys ih =>
    rw [List.map_cons, List.sum_cons, ← ih, List.filterMap_cons, riseAt]
    cases was.lookup key with
    | none => exact (zero_add _).symm
    | some prev => rfl

theorem Path.OverLinks.sum_hopLinks (h : path.OverLinks g) (dim : CostDimension) (was now : Costs)
    (ord : RangeOrder) :
    ((hopLinks ord path was).map (riseOf dim now)).sum =
      ownRise dim was now path + ((besideLinks ord path was).map (riseOf dim now)).sum := by
  have hsplit := List.filter_append_perm (fun e => decide (e.1 ∈ path.ownLinks))
    (hopLinks ord path was)
  have hbeside : (hopLinks ord path was).filter (fun e => !decide (e.1 ∈ path.ownLinks)) =
      besideLinks ord path was := by
    refine List.filter_congr fun e _ => ?_
    rw [decide_not]
  have hown : ((hopLinks ord path was).filter fun e => decide (e.1 ∈ path.ownLinks)).Perm
      (ownEntries path was) := by
    rw [List.perm_ext_iff_of_nodup]
    · intro e
      rw [List.mem_filter, mem_hopLinks, mem_ownEntries, decide_eq_true_eq, h.hops]
      constructor
      · rintro ⟨⟨hlookup, -⟩, hkey⟩
        exact ⟨hkey, hlookup⟩
      · rintro ⟨hkey, hlookup⟩
        exact ⟨⟨hlookup, List.mem_map_of_mem hkey⟩, hkey⟩
    · exact ((nodup_hopLinks h.nodup ord was).of_map).filter _
    · refine h.nodup_ownLinks.filterMap ?_
      intro key key' e hkey hkey'
      obtain ⟨cost, -, rfl⟩ := Option.map_eq_some_iff.mp hkey
      obtain ⟨cost', -, heq⟩ := Option.map_eq_some_iff.mp hkey'
      exact (congrArg Prod.fst heq).symm
  rw [← (hsplit.map (riseOf dim now)).sum_eq, List.map_append, List.sum_append, hbeside,
    (hown.map (riseOf dim now)).sum_eq, sum_ownEntries]

end Totals

section Shares

open CostFloat

theorem number_le_number {x y : ℚ} : number x ≤ number y ↔ x ≤ y := by
  rw [number, number, WithTop.coe_le_coe, WithTop.coe_le_coe]

theorem number_pos {x : ℚ} : 0 < number x ↔ 0 < x := by
  rw [number, WithTop.coe_pos, WithTop.coe_pos]

theorem number_mul (x y : ℚ) : number (x * y) = number x * number y := by
  simp [number]

theorem number_injective : Function.Injective number :=
  WithTop.coe_injective.comp WithTop.coe_injective

theorem number_lt_inf (x : ℚ) : number x < inf :=
  WithTop.coe_lt_coe.mpr (WithTop.coe_lt_top x)

theorem number_mul_inf {x : ℚ} (hx : 0 < x) : number x * inf = inf := by
  rw [number, inf, ← WithTop.coe_mul, WithTop.mul_top (WithTop.coe_ne_zero.mpr hx.ne')]

theorem eq_zero_of_number_add {t : ℚ} {x : CostFloat} (h : number t + x = number t) : x = 0 := by
  match x with
  | none => exact absurd h WithTop.top_ne_coe
  | some none => exact absurd h (number_lt_inf t).ne'
  | some (some x) =>
    have hx : t + x = t := number_injective h
    exact congrArg number (left_eq_add.mp hx.symm)

theorem number_or_inf {x : CostFloat} (h : x ≠ ⊤) : (∃ v, x = number v) ∨ x = inf := by
  match x with
  | none => exact absurd rfl h
  | some none => exact Or.inr rfl
  | some (some v) => exact Or.inl ⟨v, rfl⟩

theorem costShare_add (a b : CostFloat) (t : ℚ) :
    costShare (a + b) (number t) = costShare a (number t) + costShare b (number t) := by
  match a, b with
  | none, _ => rfl
  | some none, none => rfl
  | some (some _), none => rfl
  | some none, some none => rfl
  | some none, some (some _) => rfl
  | some (some _), some none => rfl
  | some (some a), some (some b) => exact congrArg number (add_div a b t)

theorem costShare_nonneg {delta : CostFloat} (hdelta : 0 ≤ delta) {t : ℚ} (ht : 0 ≤ t) :
    0 ≤ costShare delta (number t) := by
  match delta with
  | none => exact le_top
  | some none => exact WithTop.coe_nonneg.mpr le_top
  | some (some d) => exact number_le_number.mpr (div_nonneg (number_le_number.mp hdelta) ht)

theorem sum_costShare (l : List CostFloat) (t : ℚ) :
    (l.map (costShare · (number t))).sum = costShare l.sum (number t) := by
  induction l with
  | nil => exact congrArg number (zero_div t).symm
  | cons a l ih => rw [List.map_cons, List.sum_cons, List.sum_cons, ih, costShare_add]

theorem causeShareFloor_pos : 0 < causeShareFloor := by
  norm_num [causeShareFloor]

theorem floor_le_costShare_iff {delta total : CostFloat} (hpos : 0 < delta) (hle : delta ≤ total)
    (htotal : total ≠ ⊤) :
    number causeShareFloor ≤ costShare delta total ↔ number causeShareFloor * total ≤ delta := by
  match delta, total with
  | _, none => exact absurd rfl htotal
  | none, some total => exact absurd hle (not_le.mpr (WithTop.coe_lt_top total))
  | some none, some none => exact iff_of_true le_top (number_mul_inf causeShareFloor_pos).le
  | some (some d), some none =>
    refine iff_of_false (not_le.mpr (number_pos.mpr causeShareFloor_pos)) (not_le.mpr ?_)
    exact (number_lt_inf d).trans_eq (number_mul_inf causeShareFloor_pos).symm
  | some none, some (some t) => exact absurd hle (not_le.mpr (number_lt_inf t))
  | some (some d), some (some t) =>
    have ht : 0 < t := (number_pos.mp hpos).trans_le (number_le_number.mp hle)
    change number causeShareFloor ≤ number (d / t) ↔ number causeShareFloor * number t ≤ number d
    rw [← number_mul, number_le_number, number_le_number, le_div_iff₀ ht]

end Shares

section Ranked

open CostFloat

variable {g : Graph} {path : Path} {dim : CostDimension} {was now : Costs} {ord : RangeOrder}

def hopRise (ord : RangeOrder) (dim : CostDimension) (was now : Costs) (path : Path) : CostFloat :=
  ((hopLinks ord path was).map (riseOf dim now)).sum

def shared (total : CostFloat) (c : PathChangeCause) : PathChangeCause :=
  { c with share := costShare c.delta total }

def ranked (ord : RangeOrder) (path : Path) (dim : CostDimension) (was now : Costs) :
    List PathChangeCause :=
  (((hopLinks ord path was).filterMap (causeOf dim now)).map
    (shared (hopRise ord dim was now path))).filter
      fun c => decide (number causeShareFloor ≤ c.share)

theorem riseOf_le_hopRise {e : CostGraphEdge × Cost} (he : e ∈ hopLinks ord path was) :
    riseOf dim now e ≤ hopRise ord dim was now path := by
  refine List.single_le_sum ?_ _ (List.mem_map_of_mem he)
  intro x hx
  obtain ⟨e', -, rfl⟩ := List.mem_map.mp hx
  exact riseOf_nonneg dim now e'

/-- The rise along the path is a number or infinite when that of every link is. -/
theorem hopRise_ne_top (h : ∀ e ∈ hopLinks ord path was, riseOf dim now e ≠ ⊤) :
    hopRise ord dim was now path ≠ ⊤ := by
  unfold hopRise
  generalize hopLinks ord path was = l at h ⊢
  induction l with
  | nil => exact WithTop.zero_ne_top
  | cons e l ih =>
    rw [List.map_cons, List.sum_cons, WithTop.add_ne_top]
    exact ⟨h e List.mem_cons_self, ih fun e' he' => h e' (List.mem_cons_of_mem e he')⟩

theorem mem_ranked {c : PathChangeCause} :
    c ∈ ranked ord path dim was now ↔
      ∃ e ∈ hopLinks ord path was, ∃ c₀, causeOf dim now e = some c₀ ∧
        c = shared (hopRise ord dim was now path) c₀ ∧
        number causeShareFloor ≤ costShare (riseOf dim now e) (hopRise ord dim was now path) := by
  simp only [ranked, List.mem_filter, List.mem_map, List.mem_filterMap, decide_eq_true_eq]
  constructor
  · rintro ⟨⟨c₀, ⟨e, he, hcause⟩, rfl⟩, hshare⟩
    obtain ⟨-, hdelta, -⟩ := of_causeOf_eq_some hcause
    rw [shared, hdelta] at hshare
    exact ⟨e, he, c₀, hcause, rfl, hshare⟩
  · rintro ⟨e, he, c₀, hcause, rfl, hshare⟩
    obtain ⟨-, hdelta, -⟩ := of_causeOf_eq_some hcause
    refine ⟨⟨c₀, ⟨e, he, hcause⟩, rfl⟩, ?_⟩
    rwa [shared, hdelta]

theorem attributeCauses_eq (ord : RangeOrder) (path : Path) (dim : CostDimension)
    (was now : Costs) :
    attributeCauses ord path dim was now =
      if was.entries = [] then []
      else if hopRise ord dim was now path ≤ 0 then []
      else (ranked ord path dim was now).insertionSort fun a b => b.delta ≤ a.delta := by
  have hcauses : (path.nodes.zip path.nodes.tail).flatMap (fun hop =>
      (costsBetween ord was hop.1 hop.2).filterMap (causeOf dim now)) =
        (hopLinks ord path was).filterMap (causeOf dim now) := by
    rw [hopLinks, List.filterMap_flatMap]
    rfl
  have htotal : ((hopLinks ord path was).filterMap (causeOf dim now)).foldl
      (fun total c => total + c.delta) 0 = hopRise ord dim was now path := by
    rw [hopRise, ← sum_filterMap_causeOf, List.sum_eq_foldl, List.foldl_map]
  rw [attributeCauses]
  simp only [hcauses, htotal]
  rfl

theorem ranked_eq_nil (h : was.entries = [] ∨ hopRise ord dim was now path ≤ 0) :
    ranked ord path dim was now = [] := by
  refine List.eq_nil_iff_forall_not_mem.mpr fun c hc => ?_
  obtain ⟨e, he, c₀, hcause, -⟩ := mem_ranked.mp hc
  rcases h with hempty | hzero
  · have hlookup := (mem_hopLinks.mp he).1
    rw [AList.lookup, hempty] at hlookup
    cases hlookup
  · obtain ⟨-, hdelta, hpos⟩ := of_causeOf_eq_some hcause
    exact absurd ((hdelta ▸ hpos).trans_le (riseOf_le_hopRise he)) (not_lt.mpr hzero)

theorem attributeCauses_perm (ord : RangeOrder) (path : Path) (dim : CostDimension)
    (was now : Costs) :
    (attributeCauses ord path dim was now).Perm (ranked ord path dim was now) := by
  rw [attributeCauses_eq]
  split_ifs with hempty hzero
  · rw [ranked_eq_nil (Or.inl hempty)]
  · rw [ranked_eq_nil (Or.inr hzero)]
  · exact List.perm_insertionSort _ _

theorem attributeCauses_sorted (ord : RangeOrder) (path : Path) (dim : CostDimension)
    (was now : Costs) :
    (attributeCauses ord path dim was now).Pairwise fun a b => b.delta ≤ a.delta := by
  have htotal : Std.Total fun a b : PathChangeCause => b.delta ≤ a.delta :=
    ⟨fun a b => le_total b.delta a.delta⟩
  have htrans : IsTrans PathChangeCause fun a b => b.delta ≤ a.delta :=
    ⟨fun a b c hab hbc => hbc.trans hab⟩
  rw [attributeCauses_eq]
  split_ifs
  · exact List.Pairwise.nil
  · exact List.Pairwise.nil
  · exact List.pairwise_insertionSort _ _

end Ranked

section Named

open CostFloat

variable {g : Graph} {path : Path} {dim : CostDimension} {was now : Costs} {ord : RangeOrder}
  {causes : List PathChangeCause}

/-- The causes are links of the path: each is one of its links, with the rise of that link, comes
once, and has its part in the rise of the links of the path as its share; the largest rise comes
first. -/
structure NamesOwnLinks (dim : CostDimension) (was now : Costs) (path : Path)
    (causes : List PathChangeCause) : Prop where
  own : ∀ c ∈ causes, c.edge ∈ path.links ∧ 0 < c.delta ∧
    ∃ key ∈ path.ownLinks, key.id = c.edge ∧ c.delta = riseAt dim was now key
  nodup : (causes.map PathChangeCause.edge).Nodup
  share : ∀ c ∈ causes, ∃ share : ℚ, c.share = number share ∧ causeShareFloor ≤ share ∧
    number share * ownRise dim was now path = c.delta
  sum : (causes.map PathChangeCause.share).sum ≤ 1
  sorted : causes.Pairwise fun a b => b.delta ≤ a.delta

/-- No cost along the path was infinite in both snapshots, and only links of the path rose along
it, by finite amounts, unless no rise is large enough to be named. -/
def OnlyOwnRose (ord : RangeOrder) (dim : CostDimension) (was now : Costs) (path : Path) : Prop :=
  (∀ e ∈ hopLinks ord path was, riseOf dim now e ≠ ⊤) ∧
    ((∃ e ∈ hopLinks ord path was, 0 < riseOf dim now e ∧
      number causeShareFloor * hopRise ord dim was now path ≤ riseOf dim now e) →
        (∀ e ∈ besideLinks ord path was, riseOf dim now e = 0) ∧
          ∀ e ∈ hopLinks ord path was, riseOf dim now e < inf)

theorem edges_sublist (l : List (CostGraphEdge × Cost)) :
    ((l.filterMap (causeOf dim now)).map PathChangeCause.edge).Sublist
      (l.map fun e => e.1.id) := by
  induction l with
  | nil => exact List.Sublist.refl _
  | cons e l ih =>
    rcases causeOf_cases dim now e with ⟨-, hnone⟩ | ⟨-, c, hsome, hedge, -⟩
    · rw [List.filterMap_cons_none hnone]
      exact ih.cons _
    · rw [List.filterMap_cons_some hsome, List.map_cons, List.map_cons, hedge]
      exact ih.cons_cons _

theorem nodup_ranked (hpath : path.OverLinks g) (hwas : OfLinks g was) :
    ((ranked ord path dim was now).map PathChangeCause.edge).Nodup := by
  have hids : ((hopLinks ord path was).map fun e => e.1.id).Nodup := by
    refine List.Nodup.map_on ?_ (nodup_hopLinks hpath.nodup ord was).of_map
    intro e he e' he' hid
    have hlookup := (mem_hopLinks.mp he).1
    have hlookup' := (mem_hopLinks.mp he').1
    have hkey := eq_of_known (hwas _ _ hlookup) (hwas _ _ hlookup') hid
    rw [hkey, hlookup'] at hlookup
    exact Prod.ext hkey (Option.some.inj hlookup).symm
  have hsub := hids.sublist (@edges_sublist dim now _)
  refine List.Nodup.sublist (List.filter_sublist.map _) ?_
  rw [List.map_map]
  exact hsub

theorem sum_share_le {t : ℚ} (ht : 0 < t) (htotal : hopRise ord dim was now path = number t) :
    ((ranked ord path dim was now).map PathChangeCause.share).sum ≤ 1 := by
  have hall : ((((hopLinks ord path was).filterMap (causeOf dim now)).map
      (shared (hopRise ord dim was now path))).map PathChangeCause.share).sum = 1 := by
    have hcomp : PathChangeCause.share ∘ shared (hopRise ord dim was now path) =
        (costShare · (number t)) ∘ PathChangeCause.delta := by
      funext c
      rw [Function.comp_apply, shared, htotal]
      rfl
    rw [List.map_map, hcomp, ← List.map_map, sum_costShare, sum_filterMap_causeOf]
    have hsum : ((hopLinks ord path was).map (riseOf dim now)).sum = number t := htotal
    rw [hsum]
    exact congrArg number (div_self ht.ne')
  rw [← hall]
  refine List.Sublist.sum_le_sum (List.filter_sublist.map _) ?_
  intro x hx
  obtain ⟨c, hc, rfl⟩ := List.mem_map.mp hx
  obtain ⟨c₀, hc₀, rfl⟩ := List.mem_map.mp hc
  obtain ⟨e, -, hcause⟩ := List.mem_filterMap.mp hc₀
  obtain ⟨-, -, hpos⟩ := of_causeOf_eq_some hcause
  rw [shared, htotal]
  exact costShare_nonneg hpos.le ht.le

variable {e : CostGraphEdge × Cost}

theorem exists_cause (hpos : 0 < riseOf dim now e) :
    ∃ c, causeOf dim now e = some c ∧ c.delta = riseOf dim now e := by
  rcases causeOf_cases dim now e with ⟨hzero, -⟩ | ⟨-, c, hsome, -, hdelta⟩
  · exact absurd hzero hpos.ne'
  · exact ⟨c, hsome, hdelta⟩

/-- A link whose cost is infinite in both snapshots is named, with a share that is not a
number. -/
theorem NamesOwnLinks.riseOf_ne_top (h : NamesOwnLinks dim was now path causes)
    (hperm : causes.Perm (ranked ord path dim was now))
    (he : e ∈ hopLinks ord path was) : riseOf dim now e ≠ ⊤ := by
  intro htop
  obtain ⟨c, hcause, hdelta⟩ := exists_cause (htop ▸ WithTop.coe_lt_top 0 : 0 < riseOf dim now e)
  have hshare : costShare ⊤ (hopRise ord dim was now path) = ⊤ := rfl
  have hmem := hperm.mem_iff.mpr (mem_ranked.mpr ⟨e, he, c, hcause, rfl, by
    rw [htop, hshare]
    exact le_top⟩)
  obtain ⟨share, hnumber, -⟩ := h.share _ hmem
  rw [shared, hdelta, htop, hshare] at hnumber
  exact WithTop.top_ne_coe hnumber

theorem NamesOwnLinks.hopRise_eq (h : NamesOwnLinks dim was now path causes)
    (hperm : causes.Perm (ranked ord path dim was now))
    (he : e ∈ hopLinks ord path was) (hpos : 0 < riseOf dim now e)
    (hlarge : number causeShareFloor * hopRise ord dim was now path ≤ riseOf dim now e) :
    ∃ t : ℚ, hopRise ord dim was now path = number t ∧ ownRise dim was now path = number t := by
  obtain ⟨c, hcause, hdelta⟩ := exists_cause hpos
  have htotal := hopRise_ne_top fun e he => h.riseOf_ne_top hperm he
  have hle : riseOf dim now e ≤ hopRise ord dim was now path := riseOf_le_hopRise he
  have hmem : shared (hopRise ord dim was now path) c ∈ causes :=
    hperm.mem_iff.mpr (mem_ranked.mpr ⟨e, he, c, hcause, rfl,
      (floor_le_costShare_iff hpos hle htotal).mpr hlarge⟩)
  obtain ⟨share, hshare, hfloor, hpart⟩ := h.share _ hmem
  rw [shared, hdelta] at hshare hpart
  simp only at hshare hpart
  generalize riseOf dim now e = delta at hshare hpart hle hpos
  generalize hopRise ord dim was now path = total at hshare hle htotal ⊢
  generalize ownRise dim was now path = own at hpart ⊢
  match total, delta with
  | none, _ => exact absurd rfl htotal
  | _, none => exact absurd hshare WithTop.top_ne_coe
  -- An infinite rise has no share that is a number.
  | some none, some none => exact absurd hshare WithTop.top_ne_coe
  | some none, some (some d) =>
    have hzero : 0 = share := number_injective hshare
    exact absurd (hzero ▸ hfloor) (not_le.mpr causeShareFloor_pos)
  | some (some t), some none => exact absurd hle (not_le.mpr (number_lt_inf t))
  | some (some t), some (some d) =>
    have hd : 0 < d := number_pos.mp hpos
    have ht : 0 < t := hd.trans_le (number_le_number.mp hle)
    have hshare' : d / t = share := number_injective hshare
    have hsharePos : 0 < share := hshare' ▸ div_pos hd ht
    refine ⟨t, rfl, ?_⟩
    match own with
    | none =>
      have htop := WithTop.mul_top (number_pos.mpr hsharePos).ne'
      exact absurd (htop.symm.trans hpart) WithTop.top_ne_coe
    | some none =>
      exact absurd ((number_mul_inf hsharePos).symm.trans hpart) (number_lt_inf d).ne'
    | some (some o) =>
      have hpart' : share * o = d := number_injective ((number_mul share o).trans hpart)
      rw [← hshare', div_mul_eq_mul_div, div_eq_iff ht.ne'] at hpart'
      exact congrArg number (mul_left_cancel₀ hd.ne' hpart')

theorem riseOf_besideLinks_eq_zero (hpath : path.OverLinks g) {t : ℚ}
    (htotal : hopRise ord dim was now path = number t)
    (hown : ownRise dim was now path = number t)
    (he : e ∈ besideLinks ord path was) : riseOf dim now e = 0 := by
  have hle : riseOf dim now e ≤ ((besideLinks ord path was).map (riseOf dim now)).sum := by
    refine List.single_le_sum ?_ _ (List.mem_map_of_mem he)
    intro x hx
    obtain ⟨e', -, rfl⟩ := List.mem_map.mp hx
    exact riseOf_nonneg dim now e'
  have hsum := hpath.sum_hopLinks dim was now ord
  rw [hown] at hsum
  change hopRise ord dim was now path = _ at hsum
  rw [htotal] at hsum
  have hzero := eq_zero_of_number_add hsum.symm
  exact le_antisymm (hzero ▸ hle) (riseOf_nonneg dim now e)

theorem hopRise_eq_ownRise (hpath : path.OverLinks g)
    (h : ∀ e ∈ besideLinks ord path was, riseOf dim now e = 0) :
    hopRise ord dim was now path = ownRise dim was now path := by
  have hzero : ((besideLinks ord path was).map (riseOf dim now)).sum = 0 := by
    refine List.sum_eq_zero fun x hx => ?_
    obtain ⟨e, he, rfl⟩ := List.mem_map.mp hx
    exact h e he
  rw [hopRise, hpath.sum_hopLinks, hzero, add_zero]

/-- When one cause is named, only links of the path rose, and by finite amounts. -/
theorem OnlyOwnRose.of_mem_ranked (h : OnlyOwnRose ord dim was now path) {c : PathChangeCause}
    (hc : c ∈ ranked ord path dim was now) :
    (∀ e ∈ besideLinks ord path was, riseOf dim now e = 0) ∧
      (∀ e ∈ hopLinks ord path was, ∃ d, riseOf dim now e = number d) ∧
      ∃ t, 0 < t ∧ hopRise ord dim was now path = number t := by
  obtain ⟨e, he, c₀, hcause, -, hshare⟩ := mem_ranked.mp hc
  obtain ⟨-, hdelta, hpos⟩ := of_causeOf_eq_some hcause
  rw [hdelta] at hpos
  have hlarge := (floor_le_costShare_iff hpos (riseOf_le_hopRise he) (hopRise_ne_top h.1)).mp
    hshare
  obtain ⟨hbeside, hfinite⟩ := h.2 ⟨e, he, hpos, hlarge⟩
  obtain ⟨t, ht⟩ : ∃ t, hopRise ord dim was now path = number t := by
    refine (number_or_inf (hopRise_ne_top h.1)).resolve_right fun hinf => ?_
    rw [hinf, number_mul_inf causeShareFloor_pos] at hlarge
    exact absurd (hfinite e he) (not_lt.mpr hlarge)
  refine ⟨hbeside, fun e' he' => (number_or_inf (h.1 e' he')).resolve_right (hfinite e' he').ne,
    t, ?_, ht⟩
  rw [← number_pos, ← ht]
  exact hpos.trans_le (riseOf_le_hopRise he)

theorem own_of_mem_ranked (hpath : path.OverLinks g)
    (hbeside : ∀ e ∈ besideLinks ord path was, riseOf dim now e = 0) {c : PathChangeCause}
    (hc : c ∈ ranked ord path dim was now) :
    c.edge ∈ path.links ∧ 0 < c.delta ∧
      ∃ key ∈ path.ownLinks, key.id = c.edge ∧ c.delta = riseAt dim was now key := by
  obtain ⟨e, he, c₀, hcause, rfl, -⟩ := mem_ranked.mp hc
  obtain ⟨hedge, hdelta, hpos⟩ := of_causeOf_eq_some hcause
  have hkey : e.1 ∈ path.ownLinks := by
    by_contra hnot
    have hmem : e ∈ besideLinks ord path was := List.mem_filter.mpr ⟨he, by simpa using hnot⟩
    exact hpos.ne' (hdelta.trans (hbeside e hmem))
  refine ⟨?_, hpos, e.1, hkey, hedge.symm, ?_⟩
  · rw [hpath.links]
    exact List.mem_map.mpr ⟨e.1, hkey, hedge.symm⟩
  · rw [riseAt, (mem_hopLinks.mp he).1]
    exact hdelta

theorem namesOwnLinks_of_onlyOwnRose (hpath : path.OverLinks g) (hwas : OfLinks g was)
    (h : OnlyOwnRose ord dim was now path) (hperm : causes.Perm (ranked ord path dim was now))
    (hsorted : causes.Pairwise fun a b => b.delta ≤ a.delta) :
    NamesOwnLinks dim was now path causes := by
  have hnodup : (causes.map PathChangeCause.edge).Nodup :=
    (hperm.map _).nodup_iff.mpr (nodup_ranked hpath hwas)
  cases hempty : causes with
  | nil => exact ⟨nofun, List.nodup_nil, nofun, zero_le_one, List.Pairwise.nil⟩
  | cons c₁ rest =>
    obtain ⟨hbeside, hfinite, t, htpos, ht⟩ :=
      h.of_mem_ranked (hperm.mem_iff.mp (hempty ▸ List.mem_cons_self))
    rw [← hempty]
    refine ⟨fun c hc => own_of_mem_ranked hpath hbeside (hperm.mem_iff.mp hc), hnodup, ?_, ?_,
      hsorted⟩
    · intro c hc
      obtain ⟨e, he, c₀, hcause, rfl, hshare⟩ := mem_ranked.mp (hperm.mem_iff.mp hc)
      obtain ⟨-, hdelta, -⟩ := of_causeOf_eq_some hcause
      obtain ⟨d, hd⟩ := hfinite e he
      refine ⟨d / t, ?_, ?_, ?_⟩
      · rw [shared, hdelta, hd, ht]
        rfl
      · rw [hd, ht] at hshare
        exact number_le_number.mp hshare
      · rw [← hopRise_eq_ownRise hpath hbeside, ht, ← number_mul, div_mul_cancel₀ _ htpos.ne',
          ← hd]
        exact hdelta.symm
    · rw [(hperm.map _).sum_eq]
      exact sum_share_le htpos ht

/-- The causes of a change of a path that was computed are its own links, in whatever order equal
rises are sorted, exactly when only its own links rose. -/
theorem namesOwnLinks_iff {costs : Costs} {obj : Objective} {src dst : NodeID}
    (hpath : computePath (newPCEGraph g) costs obj src dst = .ok path) (hwas : OfLinks g was) :
    (∀ causes, causes.Perm (attributeCauses ord path dim was now) →
      (causes.Pairwise fun a b => b.delta ≤ a.delta) → NamesOwnLinks dim was now path causes) ↔
      OnlyOwnRose ord dim was now path := by
  have hover := overLinks_of_computePath hpath
  have hperm := attributeCauses_perm ord path dim was now
  constructor
  · intro hnames
    have hnamed := hnames _ (List.Perm.refl _) (attributeCauses_sorted ord path dim was now)
    refine ⟨fun e he => hnamed.riseOf_ne_top hperm he, ?_⟩
    rintro ⟨e, he, hpos, hlarge⟩
    obtain ⟨t, htotal, hown⟩ := hnamed.hopRise_eq hperm he hpos hlarge
    refine ⟨fun e he => riseOf_besideLinks_eq_zero hover htotal hown he, fun e he => ?_⟩
    refine (riseOf_le_hopRise he).trans_lt ?_
    rw [htotal]
    exact number_lt_inf t
  · intro hrose causes hcauses hsorted
    exact namesOwnLinks_of_onlyOwnRose hover hwas hrose (hcauses.trans hperm) hsorted

def ofLatency (x : ℚ) : Cost := (∅ : GoMap CostDimension ExtCost).insert .latency (x : ExtCost)

def latencies (x y : ℚ) : Costs :=
  ((∅ : GoMap CostGraphEdge Cost).insert ⟨"x", "A", "B"⟩ (ofLatency x)).insert ⟨"y", "A", "B"⟩
    (ofLatency y)

theorem latencies_ofLinks (x y : ℚ) : OfLinks twoLinks (latencies x y) := by
  intro key cost hlookup
  rw [latencies, lookup_insert_eq, lookup_insert_eq] at hlookup
  split_ifs at hlookup with hy hx
  · exact ⟨⟨"y", "A", "B", "", "", 100, 0, true, .invalid⟩, hy ▸ rfl, hy⟩
  · exact ⟨⟨"x", "A", "B", "", "", 100, 0, true, .invalid⟩, hx ▸ rfl, hx⟩
  · exact absurd hlookup (lookup_empty_ne key cost)

def overX : Path where
  nodes := ["A", "B"]
  edges := [⟨.link, "A", "B", "", "x"⟩]
  links := ["x"]
  cost := 1
  label := 0

theorem computePath_overX :
    computePath (newPCEGraph twoLinks) ∅ (fun _ _ => 1) "A" "B" = .ok overX := by
  decide +kernel

/-- The link of the path got slower and is named. -/
theorem cause_on_path :
    OfLinks twoLinks (latencies 1 1) ∧
      NamesOwnLinks .latency (latencies 1 1) (latencies 3 1) overX
        (attributeCauses .listed overX .latency (latencies 1 1) (latencies 3 1)) := by
  have hrose : OnlyOwnRose .listed .latency (latencies 1 1) (latencies 3 1) overX :=
    ⟨by decide +kernel, fun _ => by decide +kernel⟩
  exact ⟨latencies_ofLinks 1 1, (namesOwnLinks_iff computePath_overX (latencies_ofLinks 1 1)).mpr
    hrose _ (List.Perm.refl _) (attributeCauses_sorted _ _ _ _ _)⟩

/-- The other link got slower and is named, though the path does not go over it. -/
theorem cause_beside_path :
    computePath (newPCEGraph twoLinks) ∅ (fun _ _ => 1) "A" "B" = .ok overX ∧
      OfLinks twoLinks (latencies 1 1) ∧
      ¬ NamesOwnLinks .latency (latencies 1 1) (latencies 1 3) overX
        (attributeCauses .listed overX .latency (latencies 1 1) (latencies 1 3)) := by
  refine ⟨computePath_overX, latencies_ofLinks 1 1, fun h => ?_⟩
  have hcauses : (attributeCauses .listed overX .latency (latencies 1 1) (latencies 1 3)).map
      PathChangeCause.edge = ["y"] := by
    decide +kernel
  obtain ⟨c, hc, hedge⟩ := List.mem_map.mp (hcauses ▸ List.mem_cons_self : "y" ∈ _)
  have hmem := (h.own c hc).1
  rw [hedge] at hmem
  exact absurd hmem (by decide)

end Named

end Maeto.ControlPlane
