import Maeto.ControlPlane.Cspf.Search

/-!
# What the path search keeps true

`Search.Sound` says that the predecessor edge of a node starts at a node that
was settled before it, and that the distance of the node is the distance of that
node plus the cost of the edge. It holds at the start and every round keeps it
(`Sound.settle`), so it holds at the end (`searchResult_sound`).

It follows that both loops of `computePath` come to their end within their
bounds (`searchLoop_sound`, `computePath_finishes`), that a computed path uses
edges of the graph, and that its cost is the cost of its edges
(`computePath_cost`).
-/

namespace Maeto.ControlPlane

open Foundation GoMap AList

def PCEGraph.AdjFrom (g : PCEGraph) : Prop :=
  ∀ n id e, id ∈ g.adj.getD n [] → g.edges.lookup id = some e → e.nodeFrom = n

namespace Search

def SettledBefore (visited : List NodeID) (u v : NodeID) : Prop :=
  ∃ older, older <:+ visited ∧ u ∈ older ∧ v ∉ older

theorem SettledBefore.mem {visited : List NodeID} {u v : NodeID}
    (h : SettledBefore visited u v) : u ∈ visited := by
  obtain ⟨older, hsuffix, hu, -⟩ := h
  exact hsuffix.subset hu

theorem SettledBefore.cons {visited : List NodeID} {u v : NodeID}
    (h : SettledBefore visited u v) (n : NodeID) : SettledBefore (n :: visited) u v := by
  obtain ⟨older, hsuffix, hu, hv⟩ := h
  exact ⟨older, hsuffix.trans (List.suffix_cons n visited), hu, hv⟩

structure Sound (g : PCEGraph) (costs : Costs) (obj : Objective) (src : NodeID)
    (s : Search) : Prop where
  src_dist : s.distAt src = 0
  visited_nodup : s.visited.Nodup
  visited_nodes : ∀ n ∈ s.visited, n ∈ g.nodes
  pred : ∀ v id, s.prev.lookup v = some id → ∃ e, g.edges.lookup id = some e ∧ e.nodeTo = v ∧
    SettledBefore s.visited e.nodeFrom v ∧
      s.distAt v = s.distAt e.nodeFrom + obj e (e.cost costs)

section Nearest

variable {nodes : List NodeID} {s : Search}

theorem foldl_consider {best : Option (NodeID × ExtCost)} {n : NodeID} {d : ExtCost}
    (h : nodes.foldl s.consider best = some (n, d)) :
    best = some (n, d) ∨ (n ∈ nodes ∧ n ∉ s.visited ∧ d = s.distAt n ∧ d ≠ ⊤) := by
  induction nodes generalizing best with
  | nil => exact Or.inl h
  | cons m nodes ih =>
    rcases ih h with hbest | ⟨hmem, hrest⟩
    · unfold consider at hbest
      split_ifs at hbest with hskip
      · exact Or.inl hbest
      · obtain ⟨rfl, rfl⟩ := Prod.mk.inj (Option.some.inj hbest)
        rw [not_or, not_le] at hskip
        exact Or.inr ⟨List.mem_cons_self, hskip.1, rfl, hskip.2.ne_top⟩
    · exact Or.inr ⟨List.mem_cons_of_mem m hmem, hrest⟩

theorem nearest_eq_some {n : NodeID} (h : s.nearest nodes = some n) :
    n ∈ nodes ∧ n ∉ s.visited ∧ s.distAt n ≠ ⊤ := by
  obtain ⟨⟨m, d⟩, hfold, rfl⟩ := Option.map_eq_some_iff.mp h
  rcases foldl_consider hfold with hnone | ⟨hmem, hvisited, rfl, hfinite⟩
  · cases hnone
  · exact ⟨hmem, hvisited, hfinite⟩

end Nearest

theorem distAt_start (nodes : List NodeID) (src n : NodeID) (h : n = src ∨ n ∈ nodes) :
    (start nodes src).distAt n = if n = src then 0 else ⊤ := by
  have hfold : ∀ (l : List NodeID) (d : GoMap NodeID ExtCost), (n ∈ l ∨ d.getD n 0 = ⊤) →
      (l.foldl (fun d m => d.insert m ⊤) d).getD n 0 = ⊤ := by
    intro l
    induction l with
    | nil => intro d hd; simpa using hd
    | cons m l ih =>
      intro d hd
      apply ih
      rw [getD_insert]
      by_cases hm : n = m
      · exact Or.inr (if_pos hm)
      · rw [if_neg hm]
        exact hd.imp_left fun hmem => (List.mem_cons.mp hmem).resolve_left hm
  rw [distAt, start, getD_insert]
  by_cases hn : n = src
  · rw [if_pos hn, if_pos hn]
  · rw [if_neg hn, if_neg hn]
    exact hfold nodes ∅ (Or.inl (h.resolve_left hn))

theorem start_sound (g : PCEGraph) (costs : Costs) (obj : Objective) (src : NodeID)
    (nodes : List NodeID) : Sound g costs obj src (start nodes src) where
  src_dist := by rw [distAt_start nodes src src (Or.inl rfl), if_pos rfl]
  visited_nodup := List.nodup_nil
  visited_nodes := fun n hn => by cases hn
  pred := fun v id h => by simp [start] at h

theorem nearest_start {nodes : List NodeID} {src n : NodeID}
    (h : (start nodes src).nearest nodes = some n) : n = src := by
  obtain ⟨hmem, -, hfinite⟩ := nearest_eq_some h
  rw [distAt_start nodes src n (Or.inr hmem)] at hfinite
  by_contra hne
  exact hfinite (if_neg hne)

end Search

section Step

variable {g : PCEGraph} {costs : Costs} {obj : Objective} {src current : NodeID}

/-- A relaxed edge changes nothing, or it gives its end a nearer distance and
becomes its predecessor edge. -/
theorem relax_cases (s : Search) (id : PCEEdgeID) :
    relax g costs obj current s id = s ∨
      ∃ edge, g.edges.lookup id = some edge ∧ edge.nodeTo ∉ s.visited ∧
        s.distAt current + obj edge (edge.cost costs) < s.distAt edge.nodeTo ∧
        relax g costs obj current s id =
          { s with
            dist := s.dist.insert edge.nodeTo (s.distAt current + obj edge (edge.cost costs))
            prev := s.prev.insert edge.nodeTo id } := by
  unfold relax
  cases hedge : g.edges.lookup id with
  | none => exact Or.inl rfl
  | some edge =>
    simp only
    split_ifs with hvisited hnearer
    · exact Or.inl rfl
    · exact Or.inr ⟨edge, rfl, hvisited, hnearer, rfl⟩
    · exact Or.inl rfl

@[simp] theorem relax_visited (s : Search) (id : PCEEdgeID) :
    (relax g costs obj current s id).visited = s.visited := by
  rcases relax_cases s id with h | ⟨edge, -, -, -, h⟩ <;> rw [h]

variable {s : Search}

theorem Search.Sound.relaxEdge (h : s.Sound g costs obj src)
    (hcurrent : current ∈ s.visited) (hsrc : src ∈ s.visited) {id : PCEEdgeID}
    (hid : ∀ e, g.edges.lookup id = some e → e.nodeFrom = current) :
    (relax g costs obj current s id).Sound g costs obj src := by
  rcases relax_cases s id with hsame | ⟨edge, hedge, hto, -, hstep⟩
  · rw [hsame]
    exact h
  · have hdist : ∀ n, (relax g costs obj current s id).distAt n =
        if n = edge.nodeTo then s.distAt current + obj edge (edge.cost costs)
        else s.distAt n := by
      intro n
      rw [hstep]
      exact getD_insert _ _ _ _ _
    have hvisited : ∀ n ∈ s.visited, (relax g costs obj current s id).distAt n = s.distAt n := by
      intro n hn
      have hne : n ≠ edge.nodeTo := fun heq => hto (heq ▸ hn)
      rw [hdist, if_neg hne]
    constructor
    · rw [hvisited src hsrc, h.src_dist]
    · rw [relax_visited]
      exact h.visited_nodup
    · rw [relax_visited]
      exact h.visited_nodes
    · intro v id' hv
      rw [relax_visited]
      rw [hstep] at hv
      simp only [lookup_insert_eq] at hv
      split_ifs at hv with hnew
      · cases hv
        subst hnew
        rw [hdist, if_pos rfl]
        refine ⟨edge, hedge, rfl, ?_, ?_⟩
        · rw [hid edge hedge]
          exact ⟨s.visited, List.suffix_rfl, hcurrent, hto⟩
        · rw [hid edge hedge, hvisited current hcurrent]
      · obtain ⟨e, he, hend, hbefore, hsum⟩ := h.pred v id' hv
        exact ⟨e, he, hend, hbefore, by rw [hdist, if_neg hnew, hvisited _ hbefore.mem, hsum]⟩

theorem Search.Sound.foldl_relax (ids : List PCEEdgeID)
    (h : s.Sound g costs obj src) (hcurrent : current ∈ s.visited) (hsrc : src ∈ s.visited)
    (hids : ∀ id ∈ ids, ∀ e, g.edges.lookup id = some e → e.nodeFrom = current) :
    (ids.foldl (relax g costs obj current) s).Sound g costs obj src ∧
      (ids.foldl (relax g costs obj current) s).visited = s.visited := by
  induction ids generalizing s with
  | nil => exact ⟨h, rfl⟩
  | cons id ids ih =>
    have hvisited : (relax g costs obj current s id).visited = s.visited := relax_visited s id
    rw [List.foldl_cons, ← hvisited]
    apply ih
    · exact h.relaxEdge hcurrent hsrc (hids id List.mem_cons_self)
    · rwa [hvisited]
    · rwa [hvisited]
    · exact fun id' hid' => hids id' (List.mem_cons_of_mem id hid')

theorem Search.Sound.settleNearest (hadj : g.AdjFrom) (h : s.Sound g costs obj src)
    (hnode : current ∈ g.nodes) (hfresh : current ∉ s.visited)
    (hsrc : src ∈ current :: s.visited) :
    (settle g costs obj s current).Sound g costs obj src ∧
      (settle g costs obj s current).visited = current :: s.visited := by
  have hmarked : Search.Sound g costs obj src { s with visited := current :: s.visited } := by
    refine ⟨h.src_dist, List.nodup_cons.mpr ⟨hfresh, h.visited_nodup⟩, ?_, ?_⟩
    · intro n hn
      rcases List.mem_cons.mp hn with rfl | hn
      · exact hnode
      · exact h.visited_nodes n hn
    · intro v id hv
      obtain ⟨e, he, hto, hbefore, hsum⟩ := h.pred v id hv
      exact ⟨e, he, hto, hbefore.cons current, hsum⟩
  apply hmarked.foldl_relax (sortedAdj g current) List.mem_cons_self hsrc
  intro id hid e he
  exact hadj current id e ((List.mem_insertionSort _).mp hid) he

end Step

section Loop

variable {g : PCEGraph} {costs : Costs} {obj : Objective} {src dst : NodeID}

theorem mem_sortedNodes {n : NodeID} : n ∈ sortedNodes g ↔ n ∈ g.nodes := by
  rw [sortedNodes, List.mem_insertionSort, ← mem_keys]

def Search.Exited (nodes : List NodeID) (dst : NodeID) (s : Search) : Prop :=
  ∀ n, s.nearest nodes = some n → n = dst

theorem Search.Sound.length_visited {s : Search} (h : s.Sound g costs obj src) :
    s.visited.length ≤ g.nodes.keys.length :=
  (h.visited_nodup.subperm fun n hn => mem_keys.mp (h.visited_nodes n hn)).length_le

theorem searchLoop_sound (hadj : g.AdjFrom) (dst : NodeID) (fuel : ℕ) (s : Search)
    (h : s.Sound g costs obj src)
    (hsrc : ∀ n, s.nearest (sortedNodes g) = some n → src ∈ n :: s.visited) :
    (searchLoop g costs obj (sortedNodes g) dst fuel s).Sound g costs obj src ∧
      (g.nodes.keys.length < s.visited.length + fuel →
        (searchLoop g costs obj (sortedNodes g) dst fuel s).Exited (sortedNodes g) dst) := by
  induction fuel generalizing s with
  | zero =>
    refine ⟨h, fun hlt => ?_⟩
    have := h.length_visited
    omega
  | succ fuel ih =>
    unfold searchLoop
    cases hnearest : s.nearest (sortedNodes g) with
    | none => exact ⟨h, fun _ n hn => by rw [hnearest] at hn; cases hn⟩
    | some current =>
      simp only
      by_cases hdst : current = dst
      · rw [if_pos hdst]
        refine ⟨h, fun _ n hn => ?_⟩
        rw [hnearest] at hn
        cases hn
        exact hdst
      · rw [if_neg hdst]
        obtain ⟨hmem, hfresh, -⟩ := Search.nearest_eq_some hnearest
        obtain ⟨hsound, hvisited⟩ := h.settleNearest hadj (mem_sortedNodes.mp hmem) hfresh
          (hsrc current hnearest)
        have hstep := ih _ hsound fun n _ => by
          rw [hvisited]
          exact List.mem_cons_of_mem n (hsrc current hnearest)
        refine ⟨hstep.1, fun hlt => hstep.2 ?_⟩
        rw [hvisited, List.length_cons]
        omega

theorem searchResult_sound (hadj : g.AdjFrom) (costs : Costs) (obj : Objective) (src dst : NodeID) :
    (searchResult g costs obj src dst).Sound g costs obj src ∧
      (searchResult g costs obj src dst).Exited (sortedNodes g) dst := by
  have hrun := searchLoop_sound hadj dst (g.nodes.keys.length + 1) _
    (Search.start_sound g costs obj src (sortedNodes g)) fun n hn =>
      List.mem_cons.mpr (Or.inl (Search.nearest_start hn).symm)
  refine ⟨hrun.1, hrun.2 ?_⟩
  simp [Search.start]

end Loop

section Path

variable (g : PCEGraph) (costs : Costs) (obj : Objective)

def edgeCost (id : PCEEdgeID) : ExtCost :=
  (g.edges.lookup id).elim ⊤ fun e => obj e (e.cost costs)

theorem rescoreEdges_eq_sum (total : ExtCost) (ids : List PCEEdgeID) :
    rescoreEdges g costs obj total ids = total + (ids.map (edgeCost g costs obj)).sum := by
  induction ids generalizing total with
  | nil => simp [rescoreEdges]
  | cons id ids ih =>
    rw [List.map_cons, List.sum_cons, rescoreEdges, edgeCost]
    cases g.edges.lookup id with
    | none => simp
    | some e => simp only [Option.elim_some, ih, add_assoc]

theorem rescorePath_eq_sum (path : Path) :
    rescorePath g costs obj path = (path.edges.map (edgeCost g costs obj)).sum := by
  rw [rescorePath, rescoreEdges_eq_sum, zero_add]

variable {g costs obj} {src dst : NodeID} {s : Search} {path : Path}

theorem rescorePath_of_absent {id : PCEEdgeID} (hid : id ∈ path.edges)
    (habsent : id ∉ g.edges) : rescorePath g costs obj path = ⊤ := by
  unfold rescorePath
  generalize (0 : ExtCost) = total
  generalize path.edges = ids at hid
  induction ids generalizing total with
  | nil => cases hid
  | cons id' ids ih =>
    unfold rescoreEdges
    rcases List.mem_cons.mp hid with rfl | hid
    · rw [lookup_eq_none.mpr habsent]
    · cases g.edges.lookup id' with
      | none => rfl
      | some e => exact ih _ hid

theorem reconstructLoop_edges (h : s.Sound g costs obj src) {fuel : ℕ} {current : NodeID}
    {path' : Path} (hok : reconstructLoop g src s.prev fuel current path = .ok path') :
    (path'.edges.map (edgeCost g costs obj)).sum =
      (path.edges.map (edgeCost g costs obj)).sum + s.distAt current := by
  induction fuel generalizing current path with
  | zero => cases hok
  | succ fuel ih =>
    unfold reconstructLoop at hok
    split_ifs at hok with hsrc
    · cases hok
      rw [hsrc, h.src_dist, add_zero]
    · cases hprev : s.prev.lookup current with
      | none => simp [hprev] at hok
      | some id =>
        obtain ⟨e, he, -, -, hsum⟩ := h.pred current id hprev
        simp only [hprev, he] at hok
        have hcost : edgeCost g costs obj id = obj e (e.cost costs) := by
          rw [edgeCost, he, Option.elim_some]
        rw [ih hok, hsum, List.map_append, List.sum_append, List.map_singleton,
          List.sum_singleton, hcost, add_assoc, add_comm (obj e (e.cost costs))]

theorem reconstructLoop_succ (h : s.Sound g costs obj src) (fuel : ℕ) (current : NodeID)
    (path : Path)
    (hnext : ∀ u, Search.SettledBefore s.visited u current → ∀ path',
      reconstructLoop g src s.prev fuel u path' ≠ .error .unfinished) :
    reconstructLoop g src s.prev (fuel + 1) current path ≠ .error .unfinished := by
  unfold reconstructLoop
  split_ifs
  · simp
  · cases hprev : s.prev.lookup current with
    | none => simp
    | some id =>
      obtain ⟨e, he, -, hbefore, -⟩ := h.pred current id hprev
      simp only [he]
      exact hnext e.nodeFrom hbefore _

theorem reconstructLoop_finishes (h : s.Sound g costs obj src) (fuel : ℕ) (current : NodeID)
    (path : Path) {older : List NodeID} (hsuffix : older <:+ s.visited)
    (hcurrent : current ∈ older) (hfuel : older.length ≤ fuel) :
    reconstructLoop g src s.prev fuel current path ≠ .error .unfinished := by
  induction fuel generalizing current path older with
  | zero =>
    rw [List.length_eq_zero_iff.mp (Nat.le_zero.mp hfuel)] at hcurrent
    cases hcurrent
  | succ fuel ih =>
    apply reconstructLoop_succ h
    rintro u ⟨older', hsuffix', hu, hnot⟩ path'
    apply ih u path' hsuffix' hu
    rcases List.suffix_or_suffix_of_suffix hsuffix' hsuffix with hshort | hlong
    · have hne : older'.length ≠ older.length := fun hlen =>
        hnot (hshort.eq_of_length hlen ▸ hcurrent)
      have := hshort.length_le
      omega
    · exact absurd (hlong.subset hcurrent) hnot

theorem pathOf_finishes (h : s.Sound g costs obj src) (dst : NodeID) :
    pathOf g src dst s ≠ .error .unfinished := by
  have hloop := reconstructLoop_succ h g.nodes.keys.length dst
    { nodes := [dst], edges := [], links := [], cost := 0, label := 0 } fun u hu path' =>
      reconstructLoop_finishes h _ u path' List.suffix_rfl hu.mem h.length_visited
  unfold pathOf reconstruct
  split_ifs
  · simp
  · generalize reconstructLoop g src s.prev (g.nodes.keys.length + 1) dst
      { nodes := [dst], edges := [], links := [], cost := 0, label := 0 } = result at hloop ⊢
    cases result with
    | ok path => simp [Except.map]
    | error err => simpa [Except.map] using hloop

theorem pathOf_cost (h : s.Sound g costs obj src)
    (hok : pathOf g src dst s = .ok path) : path.cost = rescorePath g costs obj path := by
  unfold pathOf reconstruct at hok
  split_ifs at hok
  cases hresult : reconstructLoop g src s.prev (g.nodes.keys.length + 1) dst
      { nodes := [dst], edges := [], links := [], cost := 0, label := 0 } with
  | error err =>
    rw [hresult] at hok
    cases hok
  | ok found =>
    rw [hresult] at hok
    cases hok
    have hsum := reconstructLoop_edges h hresult
    simp only [List.map_nil, List.sum_nil, zero_add] at hsum
    rw [rescorePath_eq_sum, List.map_reverse, List.sum_reverse, hsum]

theorem computePath_finishes (hadj : g.AdjFrom) :
    computePath g costs obj src dst ≠ .error .unfinished := by
  unfold computePath
  split_ifs
  · simp
  · exact pathOf_finishes (searchResult_sound hadj costs obj src dst).1 dst
  · simp
  · simp

theorem computePath_cost (hadj : g.AdjFrom) (h : computePath g costs obj src dst = .ok path) :
    path.cost = rescorePath g costs obj path := by
  unfold computePath at h
  split_ifs at h
  · cases h
    simp [rescorePath_eq_sum]
  · exact pathOf_cost (searchResult_sound hadj costs obj src dst).1 h

end Path

end Maeto.ControlPlane
