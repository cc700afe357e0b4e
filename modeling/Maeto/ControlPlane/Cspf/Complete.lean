import Maeto.ControlPlane.Cspf.Sound

/-!
# The path search finds a path when there is one

`PCEGraph.Walk g src ids dst` says that the edges `ids` lead from `src` to `dst` through
nodes of the graph. A computed path is such a walk (`computePath_walk`). `Search.Complete`
says that no round of the search forgets a node: the ends of the finite edges that leave a
settled node are at a finite distance. It holds at the start and every round keeps it
(`Complete.settle`), so when the search is over every node at the end of a walk of finite
cost has been reached (`Complete.reached`), and `computePath` returns a path
(`computePath_complete`).

Nothing is assumed about the sign of the costs.
-/

namespace Maeto.ControlPlane

open Foundation GoMap

/-- The edges `ids` lead from one node to another, through nodes of the graph. -/
inductive PCEGraph.Walk (g : PCEGraph) : NodeID → List PCEEdgeID → NodeID → Prop
  | nil {n : NodeID} (hnode : n ∈ g.nodes) : Walk g n [] n
  | cons {dst : NodeID} {id : PCEEdgeID} {ids : List PCEEdgeID} {e : PCEEdge}
      (hedge : g.edges.lookup id = some e) (hnode : e.nodeFrom ∈ g.nodes)
      (hrest : Walk g e.nodeTo ids dst) : Walk g e.nodeFrom (id :: ids) dst

variable {g : PCEGraph} {src dst : NodeID} {ids : List PCEEdgeID}

theorem PCEGraph.Walk.source_mem (h : g.Walk src ids dst) : src ∈ g.nodes := by
  cases h with
  | nil hnode => exact hnode
  | cons _ hnode _ => exact hnode

theorem PCEGraph.Walk.target_mem (h : g.Walk src ids dst) : dst ∈ g.nodes := by
  induction h with
  | nil hnode => exact hnode
  | cons _ _ _ ih => exact ih

theorem PCEGraph.Walk.mem_edges (h : g.Walk src ids dst) : ∀ id ∈ ids, id ∈ g.edges := by
  induction h with
  | nil => simp
  | cons hedge _ _ ih => exact List.forall_mem_cons.mpr ⟨mem_iff.mpr ⟨_, hedge⟩, ih⟩

theorem PCEGraph.Walk.of_subgraph {g' : PCEGraph} (hnodes : g.nodes = g'.nodes)
    (hsub : ∀ id e, g.edges.lookup id = some e → g'.edges.lookup id = some e)
    (h : g.Walk src ids dst) : g'.Walk src ids dst := by
  induction h with
  | nil hnode => exact .nil (hnodes ▸ hnode)
  | cons hedge hnode _ ih => exact .cons (hsub _ _ hedge) (hnodes ▸ hnode) ih

def PCEGraph.Listed (g : PCEGraph) : Prop :=
  ∀ id e, g.edges.lookup id = some e → id ∈ g.adj.getD e.nodeFrom []

namespace Search

structure Complete (g : PCEGraph) (costs : Costs) (obj : Objective) (src : NodeID)
    (s : Search) : Prop where
  visited_finite : ∀ n ∈ s.visited, s.distAt n ≠ ⊤
  has_pred : ∀ n ∈ g.nodes, n ≠ src → s.distAt n ≠ ⊤ → n ∈ s.prev
  relaxed : ∀ id e, g.edges.lookup id = some e → e.nodeFrom ∈ s.visited →
    obj e (e.cost costs) ≠ ⊤ → e.nodeTo ∈ g.nodes → s.distAt e.nodeTo ≠ ⊤

section Nearest

variable {nodes : List NodeID} {s : Search}

theorem foldl_consider_ne_none {best : Option (NodeID × ExtCost)} (h : best ≠ none) :
    nodes.foldl s.consider best ≠ none := by
  induction nodes generalizing best with
  | nil => exact h
  | cons m nodes ih =>
    apply ih
    unfold consider
    split_ifs
    · exact h
    · simp

theorem nearest_eq_none (h : s.nearest nodes = none) :
    ∀ n ∈ nodes, n ∈ s.visited ∨ s.distAt n = ⊤ := by
  have hfold : nodes.foldl s.consider none = none := Option.map_eq_none_iff.mp h
  clear h
  induction nodes with
  | nil => simp
  | cons m nodes ih =>
    intro n hn
    rw [List.foldl_cons] at hfold
    have hskip : s.consider none m = none := by
      by_contra hne
      exact foldl_consider_ne_none hne hfold
    rcases List.mem_cons.mp hn with rfl | hn
    · unfold consider at hskip
      split_ifs at hskip with hcond
      simpa using hcond
    · rw [hskip] at hfold
      exact ih hfold n hn

end Nearest

theorem start_complete (g : PCEGraph) (costs : Costs) (obj : Objective) (src : NodeID) :
    Complete g costs obj src (start (sortedNodes g) src) where
  visited_finite := fun n hn => by cases hn
  has_pred := by
    intro n hn hne hfinite
    rw [distAt_start _ _ _ (Or.inr (mem_sortedNodes.mpr hn)), if_neg hne] at hfinite
    exact absurd rfl hfinite
  relaxed := fun id e _ hfrom => by cases hfrom

end Search

section Step

variable {g : PCEGraph} {costs : Costs} {obj : Objective} {src current : NodeID} {s : Search}

theorem relax_finite {n : NodeID} (h : s.distAt n ≠ ⊤) (id : PCEEdgeID) :
    (relax g costs obj current s id).distAt n ≠ ⊤ := by
  rcases relax_cases s id with hsame | ⟨edge, -, -, hnearer, hstep⟩
  · rwa [hsame]
  · rw [hstep, Search.distAt, getD_insert]
    split_ifs
    · exact hnearer.ne_top
    · exact h

theorem relax_reaches (hvisited : ∀ n ∈ s.visited, s.distAt n ≠ ⊤)
    (hcurrent : s.distAt current ≠ ⊤) {id : PCEEdgeID} {e : PCEEdge}
    (he : g.edges.lookup id = some e) (hcost : obj e (e.cost costs) ≠ ⊤) :
    (relax g costs obj current s id).distAt e.nodeTo ≠ ⊤ := by
  have hcandidate : s.distAt current + obj e (e.cost costs) ≠ ⊤ :=
    WithTop.add_ne_top.mpr ⟨hcurrent, hcost⟩
  unfold relax
  simp only [he]
  split_ifs with hsettled hnearer
  · exact hvisited _ hsettled
  · rw [Search.distAt, getD_insert, if_pos rfl]
    exact hcandidate
  · exact ne_top_of_le_ne_top hcandidate (not_lt.mp hnearer)

theorem relax_has_pred (h : ∀ n ∈ g.nodes, n ≠ src → s.distAt n ≠ ⊤ → n ∈ s.prev) (id : PCEEdgeID) :
    ∀ n ∈ g.nodes, n ≠ src → (relax g costs obj current s id).distAt n ≠ ⊤ →
      n ∈ (relax g costs obj current s id).prev := by
  rcases relax_cases s id with hsame | ⟨edge, -, -, -, hstep⟩
  · rwa [hsame]
  · intro n hn hne hfinite
    rw [hstep] at hfinite ⊢
    rw [AList.mem_insert]
    rw [Search.distAt, getD_insert] at hfinite
    by_cases hto : n = edge.nodeTo
    · exact Or.inl hto
    · rw [if_neg hto] at hfinite
      exact Or.inr (h n hn hne hfinite)

theorem foldl_relax_finite {n : NodeID} (h : s.distAt n ≠ ⊤)
    (ids : List PCEEdgeID) : (ids.foldl (relax g costs obj current) s).distAt n ≠ ⊤ :=
  List.foldlRecOn (motive := fun s : Search => s.distAt n ≠ ⊤) ids _ h
    fun _ hs id _ => relax_finite hs id

theorem foldl_relax_visited (s : Search) (ids : List PCEEdgeID) :
    (ids.foldl (relax g costs obj current) s).visited = s.visited :=
  List.foldlRecOn (motive := fun s' : Search => s'.visited = s.visited) ids _ rfl
    fun s' hs id _ => (relax_visited s' id).trans hs

theorem foldl_relax_reaches (ids : List PCEEdgeID)
    (hvisited : ∀ n ∈ s.visited, s.distAt n ≠ ⊤) (hcurrent : s.distAt current ≠ ⊤)
    {id : PCEEdgeID} (hid : id ∈ ids) {e : PCEEdge} (he : g.edges.lookup id = some e)
    (hcost : obj e (e.cost costs) ≠ ⊤) :
    (ids.foldl (relax g costs obj current) s).distAt e.nodeTo ≠ ⊤ := by
  induction ids generalizing s with
  | nil => cases hid
  | cons i ids ih =>
    rw [List.foldl_cons]
    rcases List.mem_cons.mp hid with rfl | hid
    · exact foldl_relax_finite (relax_reaches hvisited hcurrent he hcost) ids
    · refine ih ?_ (relax_finite hcurrent i) hid
      intro n hn
      rw [relax_visited] at hn
      exact relax_finite (hvisited n hn) i

theorem Search.Complete.settle (h : s.Complete g costs obj src) (hadj : g.Listed)
    (hcurrent : s.distAt current ≠ ⊤) :
    (settle g costs obj s current).Complete g costs obj src := by
  have hmarked : ∀ n ∈ current :: s.visited, s.distAt n ≠ ⊤ := by
    intro n hn
    rcases List.mem_cons.mp hn with rfl | hn
    · exact hcurrent
    · exact h.visited_finite n hn
  unfold ControlPlane.settle
  constructor
  · intro n hn
    rw [foldl_relax_visited] at hn
    apply foldl_relax_finite
    exact hmarked n hn
  · refine List.foldlRecOn (motive := fun s : Search => ∀ n ∈ g.nodes, n ≠ src →
      s.distAt n ≠ ⊤ → n ∈ s.prev) (sortedAdj g current) _ h.has_pred ?_
    exact fun _ hs id _ => relax_has_pred hs id
  · intro id e he hfrom hcost hto
    rw [foldl_relax_visited] at hfrom
    -- the edges of `current` are relaxed now, those of the other settled nodes were before
    rcases List.mem_cons.mp hfrom with hfrom | hfrom
    · apply foldl_relax_reaches (sortedAdj g current) _ _ _ he hcost
      · exact hmarked
      · exact hcurrent
      · rw [sortedAdj, List.mem_insertionSort, ← hfrom]
        exact hadj id e he
    · apply foldl_relax_finite
      exact h.relaxed id e he hfrom hcost hto

end Step

section Loop

variable {g : PCEGraph} {costs : Costs} {obj : Objective} {src dst : NodeID}

theorem searchLoop_complete (hadj : g.Listed) (fuel : ℕ) (s : Search)
    (h : s.Complete g costs obj src) :
    (searchLoop g costs obj (sortedNodes g) dst fuel s).Complete g costs obj src := by
  induction fuel generalizing s with
  | zero => exact h
  | succ fuel ih =>
    unfold searchLoop
    cases hnearest : s.nearest (sortedNodes g) with
    | none => exact h
    | some current =>
      simp only
      split_ifs
      · exact h
      · exact ih _ (h.settle hadj (Search.nearest_eq_some hnearest).2.2)

variable {s : Search} {ids : List PCEEdgeID}

/-- When the search is over without the destination, a walk of finite cost from a settled
node stays among the settled nodes. -/
theorem Search.Complete.walk_visited (h : s.Complete g costs obj src)
    (hover : s.nearest (sortedNodes g) = none) {n m : NodeID}
    (hwalk : g.Walk n ids m) (hcost : (ids.map (edgeCost g costs obj)).sum ≠ ⊤)
    (hn : n ∈ s.visited) : m ∈ s.visited := by
  induction hwalk with
  | nil => exact hn
  | @cons dst id ids e hedge _ hrest ih =>
    rw [List.map_cons, List.sum_cons, WithTop.add_ne_top, edgeCost, hedge,
      Option.elim_some] at hcost
    apply ih hcost.2
    have hto := hrest.source_mem
    have hfinite := h.relaxed id e hedge hn hcost.1 hto
    exact (Search.nearest_eq_none hover _ (mem_sortedNodes.mpr hto)).resolve_right hfinite

/-- A node at the end of a walk of finite cost is at a finite distance when the search for
it is over. -/
theorem Search.Complete.reached (h : s.Complete g costs obj src)
    (hsound : s.Sound g costs obj src) (hexited : s.Exited (sortedNodes g) dst)
    (hwalk : g.Walk src ids dst)
    (hcost : (ids.map (edgeCost g costs obj)).sum ≠ ⊤) : s.distAt dst ≠ ⊤ := by
  cases hnearest : s.nearest (sortedNodes g) with
  | some n =>
    rw [← hexited n hnearest]
    exact (Search.nearest_eq_some hnearest).2.2
  | none =>
    have hsrc : src ∈ s.visited := by
      have hfinite : s.distAt src ≠ ⊤ := by simp [hsound.src_dist]
      have hmem := mem_sortedNodes.mpr hwalk.source_mem
      exact (Search.nearest_eq_none hnearest src hmem).resolve_right hfinite
    exact h.visited_finite dst (h.walk_visited hnearest hwalk hcost hsrc)

theorem reconstructLoop_complete (h : s.Complete g costs obj src)
    (hsound : s.Sound g costs obj src) (fuel : ℕ) {current : NodeID} (path : Path)
    (hnode : current ∈ g.nodes) (hfinite : s.distAt current ≠ ⊤) :
    reconstructLoop g src s.prev fuel current path = .error .unfinished ∨
      ∃ path', reconstructLoop g src s.prev fuel current path = .ok path' := by
  induction fuel generalizing current path with
  | zero => exact Or.inl rfl
  | succ fuel ih =>
    unfold reconstructLoop
    split_ifs with hsrc
    · exact Or.inr ⟨path, rfl⟩
    · obtain ⟨id, hid⟩ := mem_iff.mp (h.has_pred current hnode hsrc hfinite)
      obtain ⟨e, he, -, hbefore, -⟩ := hsound.pred current id hid
      simp only [hid, he]
      exact ih _ (hsound.visited_nodes _ hbefore.mem) (h.visited_finite _ hbefore.mem)

theorem computePath_complete (hadj : g.AdjFrom) (hlisted : g.Listed)
    (hwalk : g.Walk src ids dst) (hcost : (ids.map (edgeCost g costs obj)).sum ≠ ⊤) :
    ∃ path, computePath g costs obj src dst = .ok path := by
  have hfinishes : computePath g costs obj src dst ≠ .error .unfinished :=
    computePath_finishes hadj
  unfold computePath at hfinishes ⊢
  rw [if_neg (not_not.mpr hwalk.source_mem), if_neg (not_not.mpr hwalk.target_mem)] at hfinishes ⊢
  split_ifs at hfinishes ⊢
  · exact ⟨_, rfl⟩
  · obtain ⟨hsound, hexited⟩ := searchResult_sound hadj costs obj src dst
    have hcomplete : (searchResult g costs obj src dst).Complete g costs obj src :=
      searchLoop_complete hlisted _ _ (Search.start_complete g costs obj src)
    have hreached := hcomplete.reached hsound hexited hwalk hcost
    unfold pathOf reconstruct at hfinishes ⊢
    rw [if_neg hreached] at hfinishes ⊢
    rcases reconstructLoop_complete hcomplete hsound (g.nodes.keys.length + 1)
        { nodes := [dst], edges := [], links := [], cost := 0, label := 0 } hwalk.target_mem
        hreached with hnever | ⟨path, hpath⟩
    · rw [hnever] at hfinishes
      exact absurd rfl hfinishes
    · rw [hpath]
      exact ⟨_, rfl⟩

theorem reconstructLoop_walk (hsound : s.Sound g costs obj src) {fuel : ℕ}
    {current : NodeID} {path path' : Path}
    (hok : reconstructLoop g src s.prev fuel current path = .ok path')
    (hwalk : g.Walk current path.edges.reverse dst) : g.Walk src path'.edges.reverse dst := by
  induction fuel generalizing current path with
  | zero => cases hok
  | succ fuel ih =>
    unfold reconstructLoop at hok
    split_ifs at hok with hsrc
    · cases hok
      exact hsrc ▸ hwalk
    · cases hprev : s.prev.lookup current with
      | none => simp [hprev] at hok
      | some id =>
        obtain ⟨e, he, rfl, hbefore, -⟩ := hsound.pred current id hprev
        simp only [hprev, he] at hok
        refine ih hok ?_
        rw [List.reverse_append, List.reverse_singleton, List.singleton_append]
        exact .cons he (hsound.visited_nodes _ hbefore.mem) hwalk

theorem computePath_walk (hadj : g.AdjFrom) {path : Path}
    (h : computePath g costs obj src dst = .ok path) : g.Walk src path.edges dst := by
  unfold computePath pathOf reconstruct at h
  split_ifs at h with hsrc hdst heq
  · cases h
    exact heq ▸ .nil hsrc
  · cases hresult : reconstructLoop g src (searchResult g costs obj src dst).prev
        (g.nodes.keys.length + 1) dst
        { nodes := [dst], edges := [], links := [], cost := 0, label := 0 } with
    | error err =>
      rw [hresult] at h
      cases h
    | ok found =>
      rw [hresult] at h
      cases h
      exact reconstructLoop_walk (searchResult_sound hadj costs obj src dst).1 hresult
        (.nil hdst)

end Loop

end Maeto.ControlPlane
