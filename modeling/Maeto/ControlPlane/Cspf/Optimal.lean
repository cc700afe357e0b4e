import Mathlib.Algebra.Order.BigOperators.Group.List
import Maeto.Foundation.Result
import Maeto.ControlPlane.Cspf.Complete
import Maeto.ControlPlane.Cspf.Congr

/-!
# The path search finds a cheapest simple path

`Search.Optimal` is the settled-set invariant of the search: no settled node is farther than
a node that is not settled, and no edge that leaves a settled node promises less than the
distance of its end. Every round keeps it when no cost is negative (`Optimal.settleNearest`).
Along a walk from a settled node the distances therefore grow by no more than the costs of
the edges, up to the first node that is not settled (`Optimal.walk`), and the node that the
search ends with is as near as any walk to it (`computePath_minimal`).

The path read back is a chain of edges through nodes that were settled one before the other,
so no node is on it twice (`computePath_chain`). The order in which the edges are listed at
a node does not matter, because they are sorted by their texts (`computePath_reordered`).
-/

namespace Maeto.ControlPlane

open Foundation GoMap Result

/-- The adjacency lists agree with the edges. -/
structure PCEGraph.Consistent (g : PCEGraph) : Prop where
  adj : ∀ n id, id ∈ g.adj.getD n [] ↔ ∃ e, g.edges.lookup id = some e ∧ e.nodeFrom = n

/-- Edges have different texts. -/
def PCEGraph.TextsApart (g : PCEGraph) : Prop :=
  ∀ id ∈ g.edges, ∀ id' ∈ g.edges, id.toString = id'.toString → id = id'

theorem PCEGraph.Consistent.adjFrom {g : PCEGraph} (h : g.Consistent) : g.AdjFrom := by
  intro n id e hid he
  obtain ⟨e', he', hfrom⟩ := (h.adj n id).mp hid
  cases he.symm.trans he'
  exact hfrom

theorem PCEGraph.Consistent.listed {g : PCEGraph} (h : g.Consistent) : g.Listed :=
  fun id e he => (h.adj e.nodeFrom id).mpr ⟨e, he, rfl⟩

theorem newPCEGraph_consistent (g : Graph) : (newPCEGraph g).Consistent where
  adj := by
    intro n id
    rw [newPCEGraph_adj]
    constructor
    · rintro ⟨hid, hfrom⟩
      obtain ⟨e, he⟩ := mem_iff.mp hid
      obtain ⟨edge, -, -, rfl, rfl⟩ := (newPCEGraph_lookup g id e).mp he
      exact ⟨_, he, hfrom⟩
    · rintro ⟨e, he, hfrom⟩
      have hid := mem_iff.mpr ⟨e, he⟩
      obtain ⟨edge, -, -, rfl, rfl⟩ := (newPCEGraph_lookup g id e).mp he
      exact ⟨hid, hfrom⟩

theorem newPCEGraph_textsApart (g : Graph) : (newPCEGraph g).TextsApart := by
  intro id hid id' hid' htext
  obtain ⟨e, he⟩ := mem_iff.mp hid
  obtain ⟨e', he'⟩ := mem_iff.mp hid'
  obtain ⟨edge, hedge, -, rfl, -⟩ := (newPCEGraph_lookup g id e).mp he
  obtain ⟨edge', hedge', -, rfl, -⟩ := (newPCEGraph_lookup g id' e').mp he'
  have hlink : edge.id = edge'.id := (String.append_right_inj "link:").mp htext
  rw [hlink] at hedge
  cases hedge.symm.trans hedge'
  rfl

/-- No edge has a negative cost. -/
def Objective.Nonneg (obj : Objective) : Prop := ∀ e c, 0 ≤ obj e c

namespace Search

section Nearest

variable {nodes : List NodeID} {s : Search}

theorem foldl_consider_le {best : Option (NodeID × ExtCost)} {n : NodeID} {d : ExtCost}
    (h : nodes.foldl s.consider best = some (n, d)) :
    d ≤ best.elim ⊤ Prod.snd ∧ ∀ m ∈ nodes, m ∉ s.visited → d ≤ s.distAt m := by
  induction nodes generalizing best with
  | nil =>
    rw [List.foldl_nil] at h
    rw [h]
    exact ⟨le_rfl, by simp⟩
  | cons m nodes ih =>
    obtain ⟨hbest, hnodes⟩ := ih h
    unfold consider at hbest
    split_ifs at hbest with hskip
    · refine ⟨hbest, List.forall_mem_cons.mpr ⟨?_, hnodes⟩⟩
      intro hfresh
      exact hbest.trans (hskip.resolve_left hfresh)
    · rw [not_or, not_le] at hskip
      exact ⟨hbest.trans hskip.2.le, List.forall_mem_cons.mpr ⟨fun _ => hbest, hnodes⟩⟩

theorem nearest_le {n : NodeID} (h : s.nearest nodes = some n) :
    ∀ m ∈ nodes, m ∉ s.visited → s.distAt n ≤ s.distAt m := by
  obtain ⟨⟨k, d⟩, hfold, rfl⟩ := Option.map_eq_some_iff.mp h
  rcases foldl_consider hfold with hnone | ⟨-, -, rfl, -⟩
  · cases hnone
  · exact (foldl_consider_le hfold).2

end Nearest

structure Optimal (g : PCEGraph) (costs : Costs) (obj : Objective) (s : Search) : Prop where
  settled_le : ∀ u ∈ s.visited, ∀ m ∈ g.nodes, m ∉ s.visited → s.distAt u ≤ s.distAt m
  relaxed_le : ∀ id e, g.edges.lookup id = some e → e.nodeFrom ∈ s.visited → e.nodeTo ∈ g.nodes →
    s.distAt e.nodeTo ≤ s.distAt e.nodeFrom + obj e (e.cost costs)

theorem start_optimal (g : PCEGraph) (costs : Costs) (obj : Objective) (nodes : List NodeID)
    (src : NodeID) : Optimal g costs obj (start nodes src) where
  settled_le := fun u hu => by cases hu
  relaxed_le := fun id e _ hfrom => by cases hfrom

end Search

section Step

variable {g : PCEGraph} {costs : Costs} {obj : Objective} {current : NodeID}

structure Search.Relaxed (current : NodeID) (s s' : Search) : Prop where
  visited : s'.visited = s.visited
  settled : ∀ n ∈ s.visited, s'.distAt n = s.distAt n
  le : ∀ n, s'.distAt n ≤ s.distAt n
  ge : ∀ n, s.distAt current ≤ s.distAt n → s.distAt current ≤ s'.distAt n

theorem Search.Relaxed.refl (current : NodeID) (s : Search) : s.Relaxed current s where
  visited := rfl
  settled := fun _ _ => rfl
  le := fun _ => le_rfl
  ge := fun _ h => h

variable {s : Search}

theorem Search.Relaxed.trans {s' s'' : Search} (hcurrent : current ∈ s.visited)
    (h : s.Relaxed current s') (h' : s'.Relaxed current s'') : s.Relaxed current s'' where
  visited := h'.visited.trans h.visited
  settled := by
    intro n hn
    rw [h'.settled n (h.visited ▸ hn), h.settled n hn]
  le := fun n => (h'.le n).trans (h.le n)
  ge := by
    intro n hn
    rw [← h.settled current hcurrent] at hn ⊢
    exact h'.ge n ((h.settled current hcurrent).le.trans
      (h.ge n ((h.settled current hcurrent).ge.trans hn)))

theorem relax_relaxed (hobj : obj.Nonneg) (s : Search) (id : PCEEdgeID) :
    s.Relaxed current (relax g costs obj current s id) := by
  rcases relax_cases s id with hsame | ⟨edge, -, hto, hnearer, hstep⟩
  · rw [hsame]
    exact .refl current s
  · have hdist : ∀ n, (relax g costs obj current s id).distAt n =
        if n = edge.nodeTo then s.distAt current + obj edge (edge.cost costs)
        else s.distAt n := by
      intro n
      rw [hstep]
      exact getD_insert _ _ _ _ _
    constructor
    · exact relax_visited s id
    · intro n hn
      have hne : n ≠ edge.nodeTo := fun heq => hto (heq ▸ hn)
      rw [hdist, if_neg hne]
    · intro n
      rw [hdist]
      split_ifs with hn
      · rw [hn]
        exact hnearer.le
      · exact le_rfl
    · intro n hn
      rw [hdist]
      split_ifs
      · exact le_add_of_nonneg_right (hobj _ _)
      · exact hn

theorem relax_distAt_le {id : PCEEdgeID} {e : PCEEdge}
    (he : g.edges.lookup id = some e) (hfresh : e.nodeTo ∉ s.visited) :
    (relax g costs obj current s id).distAt e.nodeTo ≤
      s.distAt current + obj e (e.cost costs) := by
  unfold relax
  simp only [he, if_neg hfresh]
  split_ifs with hnearer
  · rw [Search.distAt, getD_insert, if_pos rfl]
  · exact not_lt.mp hnearer

theorem foldl_relax_relaxed (hobj : obj.Nonneg) (ids : List PCEEdgeID)
    (hcurrent : current ∈ s.visited) :
    s.Relaxed current (ids.foldl (relax g costs obj current) s) ∧
      ∀ id ∈ ids, ∀ e, g.edges.lookup id = some e → e.nodeTo ∉ s.visited →
        (ids.foldl (relax g costs obj current) s).distAt e.nodeTo ≤
          s.distAt current + obj e (e.cost costs) := by
  induction ids generalizing s with
  | nil => exact ⟨.refl current s, by simp⟩
  | cons i ids ih =>
    have hfirst : s.Relaxed current (relax g costs obj current s i) := relax_relaxed hobj s i
    obtain ⟨hrest, hends⟩ := ih (hfirst.visited ▸ hcurrent)
    rw [List.foldl_cons]
    refine ⟨hfirst.trans hcurrent hrest, List.forall_mem_cons.mpr ⟨?_, ?_⟩⟩
    · intro e he hfresh
      exact (hrest.le _).trans (relax_distAt_le he hfresh)
    · intro id hid e he hfresh
      rw [← hfirst.settled current hcurrent]
      exact hends id hid e he (hfirst.visited ▸ hfresh)

theorem Search.Optimal.settleNearest (h : s.Optimal g costs obj)
    (hlisted : g.Listed) (hobj : obj.Nonneg)
    (hnearest : s.nearest (sortedNodes g) = some current) :
    (settle g costs obj s current).Optimal g costs obj := by
  obtain ⟨hmem, hfresh, -⟩ := Search.nearest_eq_some hnearest
  have hnode := mem_sortedNodes.mp hmem
  have hle : ∀ m ∈ g.nodes, m ∉ s.visited → s.distAt current ≤ s.distAt m :=
    fun m hm => Search.nearest_le hnearest m (mem_sortedNodes.mpr hm)
  have hmarked : current ∈ ({ s with visited := current :: s.visited } : Search).visited :=
    List.mem_cons_self
  obtain ⟨hrelaxed, hends⟩ :=
    @foldl_relax_relaxed g costs obj current _ hobj (sortedAdj g current) hmarked
  have hkept := hrelaxed.settled
  constructor
  · intro u hu m hm hm'
    rw [settle, hrelaxed.visited] at hu hm'
    have hold : m ∉ s.visited := fun h => hm' (List.mem_cons_of_mem _ h)
    rw [settle, hkept u hu]
    have hu' : s.distAt u ≤ s.distAt current := by
      rcases List.mem_cons.mp hu with rfl | hu
      · exact le_rfl
      · exact h.settled_le u hu current hnode hfresh
    exact hu'.trans (hrelaxed.ge m (hle m hm hold))
  · intro id e he hfrom hto
    rw [settle, hrelaxed.visited] at hfrom
    rw [settle, hkept _ hfrom]
    -- the edges of `current` are relaxed now, those of the other settled nodes were before
    rcases List.mem_cons.mp hfrom with hcur | hold
    · by_cases hto' : e.nodeTo ∈ current :: s.visited
      · rw [hkept _ hto', hcur]
        refine le_trans ?_ (le_add_of_nonneg_right (hobj _ _))
        rcases List.mem_cons.mp hto' with heq | hsettled
        · rw [heq]
        · exact h.settled_le _ hsettled current hnode hfresh
      · rw [hcur]
        refine hends id ?_ e he hto'
        rw [sortedAdj, List.mem_insertionSort, ← hcur]
        exact hlisted id e he
    · exact (hrelaxed.le _).trans (h.relaxed_le id e he hold hto)

end Step

section Minimal

variable {g : PCEGraph} {costs : Costs} {obj : Objective} {src dst : NodeID}

theorem searchLoop_optimal (hlisted : g.Listed) (hobj : obj.Nonneg) (fuel : ℕ) (s : Search)
    (h : s.Optimal g costs obj) :
    (searchLoop g costs obj (sortedNodes g) dst fuel s).Optimal g costs obj := by
  induction fuel generalizing s with
  | zero => exact h
  | succ fuel ih =>
    unfold searchLoop
    cases hnearest : s.nearest (sortedNodes g) with
    | none => exact h
    | some current =>
      simp only
      split_ifs
      · exact h
      · exact ih _ (h.settleNearest hlisted hobj hnearest)

theorem edgeCost_nonneg (hobj : obj.Nonneg) (id : PCEEdgeID) : 0 ≤ edgeCost g costs obj id := by
  unfold edgeCost
  cases g.edges.lookup id with
  | none => exact le_top
  | some e => exact hobj e _

theorem sum_edgeCost_nonneg (hobj : obj.Nonneg) (ids : List PCEEdgeID) :
    0 ≤ (ids.map (edgeCost g costs obj)).sum := by
  apply List.sum_nonneg
  intro c hc
  obtain ⟨id, -, rfl⟩ := List.mem_map.mp hc
  exact edgeCost_nonneg hobj id

variable {s : Search} {ids : List PCEEdgeID} {path : Path}

/-- A walk from a settled node costs at least the distance to its end, or to a node on it
that is not settled. -/
theorem Search.Optimal.walk (h : s.Optimal g costs obj) (hobj : obj.Nonneg)
    {n m : NodeID} (hwalk : g.Walk n ids m) (hn : n ∈ s.visited) :
    s.distAt m ≤ s.distAt n + (ids.map (edgeCost g costs obj)).sum ∨
      ∃ v ∈ g.nodes, v ∉ s.visited ∧
        s.distAt v ≤ s.distAt n + (ids.map (edgeCost g costs obj)).sum := by
  induction hwalk with
  | nil => exact Or.inl (by simp)
  | @cons dst id ids e hedge hnode hrest ih =>
    have hcost : edgeCost g costs obj id = obj e (e.cost costs) := by
      rw [edgeCost, hedge, Option.elim_some]
    have hstep := h.relaxed_le id e hedge hn hrest.source_mem
    have hsum : s.distAt e.nodeTo + (ids.map (edgeCost g costs obj)).sum ≤
        s.distAt e.nodeFrom + ((id :: ids).map (edgeCost g costs obj)).sum := by
      rw [List.map_cons, List.sum_cons, hcost, ← add_assoc]
      exact add_le_add_left hstep _
    by_cases hto : e.nodeTo ∈ s.visited
    · rcases ih hto with hend | ⟨v, hv, hfresh, hle⟩
      · exact Or.inl (hend.trans hsum)
      · exact Or.inr ⟨v, hv, hfresh, hle.trans hsum⟩
    · refine Or.inr ⟨e.nodeTo, hrest.source_mem, hto, le_trans ?_ hsum⟩
      exact le_add_of_nonneg_right (sum_edgeCost_nonneg hobj ids)

theorem Search.Optimal.distAt_le (h : s.Optimal g costs obj)
    (hsound : s.Sound g costs obj src) (hexited : s.Exited (sortedNodes g) dst)
    (hobj : obj.Nonneg) (hwalk : g.Walk src ids dst) :
    s.distAt dst ≤ (ids.map (edgeCost g costs obj)).sum := by
  have hsrc := mem_sortedNodes.mpr hwalk.source_mem
  have hstart : s.distAt src + (ids.map (edgeCost g costs obj)).sum =
      (ids.map (edgeCost g costs obj)).sum := by
    rw [hsound.src_dist, zero_add]
  cases hnearest : s.nearest (sortedNodes g) with
  | some n =>
    cases hexited n hnearest
    by_cases hvisited : src ∈ s.visited
    · rcases h.walk hobj hwalk hvisited with hend | ⟨v, hv, hfresh, hle⟩
      · exact hstart ▸ hend
      · rw [hstart] at hle
        exact (Search.nearest_le hnearest v (mem_sortedNodes.mpr hv) hfresh).trans hle
    · have hzero := Search.nearest_le hnearest src hsrc hvisited
      rw [hsound.src_dist] at hzero
      exact hzero.trans (sum_edgeCost_nonneg hobj ids)
  | none =>
    have hvisited : src ∈ s.visited := by
      have hfinite : s.distAt src ≠ ⊤ := by simp [hsound.src_dist]
      exact (Search.nearest_eq_none hnearest src hsrc).resolve_right hfinite
    rcases h.walk hobj hwalk hvisited with hend | ⟨v, hv, hfresh, hle⟩
    · exact hstart ▸ hend
    · have htop :=
        (Search.nearest_eq_none hnearest v (mem_sortedNodes.mpr hv)).resolve_left hfresh
      rw [hstart, htop, top_le_iff] at hle
      rw [hle]
      exact le_top

theorem pathOf_cost_eq (h : pathOf g src dst s = .ok path) :
    path.cost = s.distAt dst ∧ s.distAt dst ≠ ⊤ := by
  unfold pathOf at h
  split_ifs at h with hfinite
  obtain ⟨found, -, rfl⟩ := map_eq_ok.mp h
  exact ⟨rfl, hfinite⟩

theorem computePath_minimal (hadj : g.AdjFrom) (hlisted : g.Listed) (hobj : obj.Nonneg)
    (h : computePath g costs obj src dst = .ok path)
    (hwalk : g.Walk src ids dst) : path.cost ≤ (ids.map (edgeCost g costs obj)).sum := by
  unfold computePath at h
  split_ifs at h
  · cases h
    exact sum_edgeCost_nonneg hobj ids
  · obtain ⟨hsound, hexited⟩ := searchResult_sound hadj costs obj src dst
    have hoptimal : (searchResult g costs obj src dst).Optimal g costs obj :=
      searchLoop_optimal hlisted hobj _ _ (Search.start_optimal g costs obj _ src)
    rw [(pathOf_cost_eq h).1]
    exact hoptimal.distAt_le hsound hexited hobj hwalk

theorem computePath_finite (h : computePath g costs obj src dst = .ok path) :
    path.cost ≠ ⊤ := by
  unfold computePath at h
  split_ifs at h
  · cases h
    exact WithTop.zero_ne_top
  · rw [(pathOf_cost_eq h).1]
    exact (pathOf_cost_eq h).2

end Minimal

section Chain

variable {g : PCEGraph} {costs : Costs} {obj : Objective} {src dst : NodeID}

/-- Each edge leads from its node to the next one, all in the graph. -/
inductive PCEGraph.Chain (g : PCEGraph) : List NodeID → List PCEEdgeID → Prop
  | single {n : NodeID} (hnode : n ∈ g.nodes) : Chain g [n] []
  | cons {nodes : List NodeID} {id : PCEEdgeID} {ids : List PCEEdgeID} {e : PCEEdge}
      (hedge : g.edges.lookup id = some e) (hnode : e.nodeFrom ∈ g.nodes)
      (hrest : Chain g (e.nodeTo :: nodes) ids) :
      Chain g (e.nodeFrom :: e.nodeTo :: nodes) (id :: ids)

variable {visited : List NodeID} {path : Path}

theorem Search.SettledBefore.trans {u v w : NodeID}
    (h : SettledBefore visited u v) (h' : SettledBefore visited v w) :
    SettledBefore visited u w := by
  obtain ⟨older, hsuffix, hu, hv⟩ := h
  obtain ⟨older', hsuffix', hv', hw⟩ := h'
  rcases List.suffix_or_suffix_of_suffix hsuffix hsuffix' with hshort | hlong
  · exact ⟨older, hsuffix, hu, fun hmem => hw (hshort.subset hmem)⟩
  · exact absurd (hlong.subset hv') hv

theorem Search.SettledBefore.ne {u v : NodeID} (h : SettledBefore visited u v) : u ≠ v := by
  obtain ⟨older, -, hu, hv⟩ := h
  rintro rfl
  exact hv hu

structure Search.Traced (g : PCEGraph) (visited : List NodeID) (dst current : NodeID)
    (path : Path) : Prop where
  chain : g.Chain path.nodes.reverse path.edges.reverse
  head : path.nodes.reverse.head? = some current
  last : path.nodes.reverse.getLast? = some dst
  nodup : path.nodes.Nodup
  before : ∀ m ∈ path.nodes, m ≠ current → SettledBefore visited current m

theorem Search.Traced.extend {current : NodeID}
    (h : Traced g visited dst current path) {id : PCEEdgeID} {e : PCEEdge}
    (hedge : g.edges.lookup id = some e) (hto : e.nodeTo = current)
    (hnode : e.nodeFrom ∈ g.nodes) (hbefore : SettledBefore visited e.nodeFrom current) :
    Traced g visited dst e.nodeFrom
      { path with
        edges := path.edges ++ [id]
        links := path.links ++ e.links
        nodes := path.nodes ++ [e.nodeFrom] } := by
  have hall : ∀ m ∈ path.nodes, SettledBefore visited e.nodeFrom m := by
    intro m hm
    by_cases hcurrent : m = current
    · exact hcurrent ▸ hbefore
    · exact hbefore.trans (h.before m hm hcurrent)
  obtain ⟨chain, head, last, nodup, -⟩ := h
  obtain ⟨rest, hrest⟩ : ∃ rest, path.nodes.reverse = current :: rest := by
    cases hnodes : path.nodes.reverse with
    | nil =>
      rw [hnodes] at head
      cases head
    | cons n rest =>
      rw [hnodes] at head
      cases head
      exact ⟨rest, rfl⟩
  constructor
  · simp only [List.reverse_append, List.reverse_singleton, List.singleton_append]
    rw [hrest, ← hto] at chain ⊢
    exact .cons hedge hnode chain
  · simp
  · simp only [List.reverse_append, List.reverse_singleton, List.singleton_append]
    rw [hrest] at last ⊢
    rw [List.getLast?_cons_cons]
    exact last
  · refine List.nodup_append.mpr ⟨nodup, List.nodup_singleton _, ?_⟩
    intro m hm m' hm' heq
    rw [List.mem_singleton] at hm'
    exact (hall m hm).ne (hm'.symm.trans heq.symm)
  · intro m hm hne
    rcases List.mem_append.mp hm with hm | hm
    · exact hall m hm
    · exact absurd (List.mem_singleton.mp hm) hne

theorem reconstructLoop_traced {s : Search} (hsound : s.Sound g costs obj src) {fuel : ℕ}
    {current : NodeID} {path' : Path}
    (hok : reconstructLoop g src s.prev fuel current path = .ok path')
    (h : Search.Traced g s.visited dst current path) :
    Search.Traced g s.visited dst src path' := by
  induction fuel generalizing current path with
  | zero => cases hok
  | succ fuel ih =>
    unfold reconstructLoop at hok
    split_ifs at hok with hsrc
    · cases hok
      exact hsrc ▸ h
    · cases hprev : s.prev.lookup current with
      | none => simp [hprev] at hok
      | some id =>
        obtain ⟨e, he, hto, hbefore, -⟩ := hsound.pred current id hprev
        simp only [hprev, he] at hok
        exact ih hok (h.extend he hto (hsound.visited_nodes _ hbefore.mem) hbefore)

theorem computePath_chain (hadj : g.AdjFrom) (h : computePath g costs obj src dst = .ok path) :
    g.Chain path.nodes path.edges ∧ path.nodes.head? = some src ∧
      path.nodes.getLast? = some dst ∧ path.nodes.Nodup := by
  unfold computePath at h
  split_ifs at h with hsrc hdst heq
  · cases h
    exact ⟨.single hsrc, rfl, by rw [heq]; rfl, List.nodup_singleton _⟩
  · unfold pathOf reconstruct at h
    split_ifs at h
    obtain ⟨read, hread, rfl⟩ := map_eq_ok.mp h
    obtain ⟨found, hfound, rfl⟩ := map_eq_ok.mp hread
    have hstart : Search.Traced g (searchResult g costs obj src dst).visited dst dst
        { nodes := [dst], edges := [], links := [], cost := 0, label := 0 } := by
      refine ⟨.single hdst, rfl, rfl, List.nodup_singleton _, ?_⟩
      intro m hm hne
      exact absurd (List.mem_singleton.mp hm) hne
    have htraced := reconstructLoop_traced (searchResult_sound hadj costs obj src dst).1 hfound
      hstart
    exact ⟨htraced.chain, htraced.head, htraced.last, List.nodup_reverse.mpr htraced.nodup⟩

end Chain

section Reordered

variable {g g' : PCEGraph} {costs : Costs} {obj : Objective} {src dst : NodeID}

theorem PCEGraph.Consistent.sortedAdj_eq (h : g.Consistent) (htexts : g.TextsApart)
    (hperm : ∀ n, (g'.adj.getD n []).Perm (g.adj.getD n [])) (n : NodeID) :
    sortedAdj g n = sortedAdj g' n := by
  have hmem : ∀ id ∈ sortedAdj g n, id ∈ g.edges := by
    intro id hid
    obtain ⟨e, he, -⟩ := (h.adj n id).mp ((List.mem_insertionSort _).mp hid)
    exact mem_iff.mpr ⟨e, he⟩
  have hsame : (sortedAdj g n).Perm (sortedAdj g' n) :=
    (List.perm_insertionSort _ _).trans
      ((hperm n).symm.trans (List.perm_insertionSort _ _).symm)
  refine hsame.eq_of_pairwise ?_ (List.pairwise_insertionSort _ _)
    (List.pairwise_insertionSort _ _)
  intro id id' hid hid' hle hge
  exact htexts id (hmem id hid) id' (hmem id' (hsame.mem_iff.mpr hid'))
    (String.le_antisymm hle hge)

theorem computePath_reordered (h : g.Consistent) (htexts : g.TextsApart)
    (hnodes : g'.nodes = g.nodes) (hedges : g'.edges = g.edges)
    (hperm : ∀ n, (g'.adj.getD n []).Perm (g.adj.getD n [])) :
    computePath g' costs obj src dst = computePath g costs obj src dst := by
  refine computePath_congr_of_sorted hnodes (fun id => by rw [hedges]) ?_ ?_ src dst
  · intro current
    funext s id
    unfold relax
    rw [hedges]
  · intro n
    exact (h.sortedAdj_eq htexts hperm n).symm

end Reordered

/-- `computePath` on a graph whose adjacency lists agree with its edges, with costs that are
not negative. It returns a path exactly when some walk is of finite cost. The path is a
simple chain from the source to the destination, costs what its edges cost, and no walk is
cheaper. When the texts of the edges differ, as they do in the graphs that are built from a
topology, the result does not depend on the order of the adjacency lists. -/
theorem computePath_correct (g : PCEGraph) (hg : g.Consistent) (costs : Costs) (obj : Objective)
    (hobj : obj.Nonneg) (src dst : NodeID) :
    ((∃ path, computePath g costs obj src dst = .ok path) ↔
        ∃ ids, g.Walk src ids dst ∧ (ids.map (edgeCost g costs obj)).sum ≠ ⊤) ∧
      (∀ path, computePath g costs obj src dst = .ok path →
        (g.Chain path.nodes path.edges ∧ path.nodes.head? = some src ∧
            path.nodes.getLast? = some dst ∧ path.nodes.Nodup) ∧
          path.cost = (path.edges.map (edgeCost g costs obj)).sum ∧
          path.cost = rescorePath g costs obj path ∧
          ∀ ids, g.Walk src ids dst → path.cost ≤ (ids.map (edgeCost g costs obj)).sum) ∧
      (g.TextsApart → ∀ g' : PCEGraph, g'.nodes = g.nodes → g'.edges = g.edges →
        (∀ n, (g'.adj.getD n []).Perm (g.adj.getD n [])) →
          computePath g' costs obj src dst = computePath g costs obj src dst) := by
  refine ⟨⟨?_, ?_⟩, ?_, ?_⟩
  · rintro ⟨path, hpath⟩
    refine ⟨path.edges, computePath_walk hg.adjFrom hpath, ?_⟩
    rw [← rescorePath_eq_sum, ← computePath_cost hg.adjFrom hpath]
    exact computePath_finite hpath
  · rintro ⟨ids, hwalk, hcost⟩
    exact computePath_complete hg.adjFrom hg.listed hwalk hcost
  · intro path hpath
    have hcost := computePath_cost hg.adjFrom hpath
    refine ⟨computePath_chain hg.adjFrom hpath, ?_, hcost, ?_⟩
    · rw [hcost, rescorePath_eq_sum]
    · intro ids hwalk
      exact computePath_minimal hg.adjFrom hg.listed hobj hpath hwalk
  · intro htexts g' hnodes hedges hperm
    exact computePath_reordered hg htexts hnodes hedges hperm

def twoLinks : Graph where
  nodes := ((∅ : GoMap NodeID Node).insert "A" ⟨"A", .default6⟩).insert "B" ⟨"B", .default6⟩
  edges := GoMap.collect Edge.id
    [⟨"x", "A", "B", "", "", 100, 0, true, .invalid⟩,
      ⟨"y", "A", "B", "", "", 100, 0, true, .invalid⟩]
  adj := (∅ : GoMap NodeID (List EdgeID)).insert "A" ["x", "y"]
  edges_id := fun _ _ h => (of_lookup_collect h).2

def PCEGraph.reversedAt (g : PCEGraph) (n : NodeID) : PCEGraph :=
  { g with adj := g.adj.insert n (g.adj.getD n []).reverse }

theorem PCEGraph.reversedAt_perm (g : PCEGraph) (n m : NodeID) :
    ((g.reversedAt n).adj.getD m []).Perm (g.adj.getD m []) := by
  rw [reversedAt, getD_insert]
  split_ifs with hm
  · rw [hm]
    exact List.reverse_perm _
  · exact .refl _

/-- Two links lead from `A` to `B`, and they may be listed in the other order. -/
theorem computePath_twoLinks :
    Objective.Nonneg (fun _ _ => 1) ∧
      ∃ path, computePath (newPCEGraph twoLinks) ∅ (fun _ _ => 1) "A" "B" = .ok path ∧
        path.nodes.Nodup ∧
        computePath ((newPCEGraph twoLinks).reversedAt "A") ∅ (fun _ _ => 1) "A" "B" =
          .ok path := by
  have hobj : Objective.Nonneg (fun _ _ => 1) := fun _ _ => zero_le_one
  obtain ⟨hexists, hpath, horder⟩ := computePath_correct (newPCEGraph twoLinks)
    (newPCEGraph_consistent twoLinks) ∅ (fun _ _ => 1) hobj "A" "B"
  have hwalk : (newPCEGraph twoLinks).Walk "A" [⟨.link, "A", "B", "", "x"⟩] "B" :=
    .cons (e := .ofLink ⟨"x", "A", "B", "", "", 100, 0, true, .invalid⟩) rfl (by decide +kernel)
      (.nil (by decide +kernel))
  obtain ⟨path, hok⟩ := hexists.mpr ⟨_, hwalk, by decide +kernel⟩
  refine ⟨hobj, path, hok, (hpath path hok).1.2.2.2, ?_⟩
  rw [horder (newPCEGraph_textsApart twoLinks) ((newPCEGraph twoLinks).reversedAt "A") rfl rfl
    ((newPCEGraph twoLinks).reversedAt_perm "A"), hok]

end Maeto.ControlPlane
