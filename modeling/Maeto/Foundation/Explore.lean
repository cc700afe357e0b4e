import Mathlib.Data.Finset.Card
import Mathlib.Data.List.Dedup
import Mathlib.Logic.Relation

/-!
# Searching a finite graph

`explore` keeps the nodes it has reached and a stack of those whose neighbours it
has not looked at. It reaches exactly the nodes with a path from the start
(`mem_explore_iff`), as soon as its fuel is the number of nodes.
-/

namespace Foundation.Explore

variable {α : Type*} [DecidableEq α]

def push (found : List α × List α) (peer : α) : List α × List α :=
  if peer ∈ found.2 then found else (peer :: found.1, peer :: found.2)

def explore (next : α → List α) : ℕ → List α → List α → List α
  | 0, _, reached => reached
  | _ + 1, [], reached => reached
  | n + 1, node :: queue, reached =>
    let found := (next node).foldl push (queue, reached)
    explore next n found.1 found.2

variable {next : α → List α}

structure Sound (next : α → List α) (start : α) (queue reached : List α) : Prop where
  start_mem : start ∈ reached
  queue_subset : queue ⊆ reached
  nodup : reached.Nodup
  path : ∀ node ∈ reached, Relation.ReflTransGen (fun a b => b ∈ next a) start node

theorem foldl_push_eq (peers queue reached : List α) :
    ∃ fresh, peers.foldl push (queue, reached) = (fresh ++ queue, fresh ++ reached) ∧
      (∀ peer, peer ∈ fresh ↔ peer ∈ peers ∧ peer ∉ reached) ∧ fresh.Nodup := by
  induction peers generalizing queue reached with
  | nil => exact ⟨[], rfl, by simp, List.nodup_nil⟩
  | cons p peers ih =>
    rw [List.foldl_cons]
    by_cases hp : p ∈ reached
    · rw [push, if_pos hp]
      obtain ⟨fresh, hfold, hmem, hnodup⟩ := ih queue reached
      refine ⟨fresh, hfold, fun peer => ?_, hnodup⟩
      rw [hmem, List.mem_cons]
      refine and_congr_left fun hpeer => ?_
      simp [show peer ≠ p from fun h => hpeer (h ▸ hp)]
    · rw [push, if_neg hp]
      obtain ⟨fresh, hfold, hmem, hnodup⟩ := ih (p :: queue) (p :: reached)
      refine ⟨fresh ++ [p], by simpa using hfold, fun peer => ?_, ?_⟩
      · rw [List.mem_append, hmem, List.mem_singleton, List.mem_cons, List.mem_cons]
        by_cases hpeer : peer = p
        · simp [hpeer, hp]
        · simp [hpeer]
      · refine List.nodup_append.mpr ⟨hnodup, List.nodup_singleton p, ?_⟩
        intro a ha b hb hab
        rw [List.mem_singleton] at hb
        exact ((hmem a).mp ha).2 (by simp [hab, hb])

namespace Sound

variable {start node : α} {queue reached fresh : List α}

omit [DecidableEq α] in
theorem initial (next : α → List α) (start : α) : Sound next start [start] [start] where
  start_mem := List.mem_singleton_self start
  queue_subset := List.Subset.refl _
  nodup := List.nodup_singleton start
  path := fun _ h => List.mem_singleton.mp h ▸ .refl

omit [DecidableEq α] in
theorem visit (h : Sound next start (node :: queue) reached)
    (hfresh : ∀ peer, peer ∈ fresh ↔ peer ∈ next node ∧ peer ∉ reached) (hnodup : fresh.Nodup) :
    Sound next start (fresh ++ queue) (fresh ++ reached) where
  start_mem := List.mem_append_right _ h.start_mem
  queue_subset := by
    intro peer hpeer
    rcases List.mem_append.mp hpeer with hpeer | hpeer
    · exact List.mem_append_left _ hpeer
    · exact List.mem_append_right _ (h.queue_subset (List.mem_cons_of_mem _ hpeer))
  nodup := by
    refine List.nodup_append.mpr ⟨hnodup, h.nodup, ?_⟩
    intro a ha b hb hab
    exact ((hfresh a).mp ha).2 (hab ▸ hb)
  path := by
    intro peer hpeer
    rcases List.mem_append.mp hpeer with hpeer | hpeer
    · exact (h.path node (h.queue_subset List.mem_cons_self)).tail ((hfresh peer).mp hpeer).1
    · exact h.path peer hpeer

/-- Whatever the fuel, the search only reaches what has a path from the start, and
nothing twice. -/
theorem explore (h : Sound next start queue reached) (n : ℕ) :
    ∃ rest, Sound next start rest (Explore.explore next n queue reached) := by
  induction n generalizing queue reached with
  | zero => exact ⟨queue, h⟩
  | succ n ih =>
    cases queue with
    | nil => exact ⟨[], h⟩
    | cons node queue =>
      obtain ⟨fresh, hfold, hfresh, hnodup⟩ := foldl_push_eq (next node) queue reached
      rw [Explore.explore, hfold]
      exact ih (h.visit hfresh hnodup)

end Sound

def Closed (next : α → List α) (queue reached : List α) : Prop :=
  ∀ node ∈ reached, node ∉ queue → next node ⊆ reached

theorem Closed.visit {node : α} {queue reached fresh : List α}
    (h : Closed next (node :: queue) reached)
    (hfresh : ∀ peer, peer ∈ fresh ↔ peer ∈ next node ∧ peer ∉ reached) :
    Closed next (fresh ++ queue) (fresh ++ reached) := by
  intro other hother hqueue peer hpeer
  rw [List.mem_append, not_or] at hqueue
  rw [List.mem_append, hfresh]
  by_cases hreached : peer ∈ reached
  · exact Or.inr hreached
  · have hold : other ∈ reached := (List.mem_append.mp hother).resolve_left hqueue.1
    by_cases hnode : other = node
    · exact Or.inl ⟨hnode ▸ hpeer, hreached⟩
    · exact absurd (h other hold (by simp [hnode, hqueue.2]) hpeer) hreached

/-- With fuel for every node that is not reached and every node on the stack, the
search ends with an empty stack: its result has all its neighbours. -/
theorem explore_closed {start : α} {nodes : Finset α}
    (hnodes : ∀ a ∈ nodes, ∀ b ∈ next a, b ∈ nodes)
    {n : ℕ} {queue reached : List α} (hsound : Sound next start queue reached)
    (hclosed : Closed next queue reached) (hin : ∀ a ∈ reached, a ∈ nodes)
    (hfuel : nodes.card + queue.length ≤ n + reached.length) :
    Closed next [] (explore next n queue reached) := by
  induction n generalizing queue reached with
  | zero =>
    have hcard : reached.length ≤ nodes.card := by
      rw [← List.toFinset_card_of_nodup hsound.nodup]
      exact Finset.card_le_card fun a ha => hin a (List.mem_toFinset.mp ha)
    have hnil : queue = [] := List.length_eq_zero_iff.mp (by omega)
    rw [explore, ← hnil]
    exact hclosed
  | succ n ih =>
    cases queue with
    | nil => exact hclosed
    | cons node queue =>
      obtain ⟨fresh, hfold, hfresh, hnodup⟩ := foldl_push_eq (next node) queue reached
      rw [explore, hfold]
      refine ih (hsound.visit hfresh hnodup) (hclosed.visit hfresh) ?_ ?_
      · intro a ha
        rcases List.mem_append.mp ha with ha | ha
        · exact hnodes node (hin node (hsound.queue_subset List.mem_cons_self)) a
            ((hfresh a).mp ha).1
        · exact hin a ha
      · simp only [List.length_append, List.length_cons] at hfuel ⊢
        omega

theorem mem_explore_iff {start : α} {nodes : Finset α} (hstart : start ∈ nodes)
    (hnodes : ∀ a ∈ nodes, ∀ b ∈ next a, b ∈ nodes) {n : ℕ} (hfuel : nodes.card ≤ n) (node : α) :
    node ∈ explore next n [start] [start] ↔
      Relation.ReflTransGen (fun a b => b ∈ next a) start node := by
  obtain ⟨rest, hsound⟩ := (Sound.initial next start).explore n
  refine ⟨hsound.path node, fun hpath => ?_⟩
  have hclosed : Closed next [] (explore next n [start] [start]) := by
    refine explore_closed hnodes (Sound.initial next start) ?_ ?_ ?_
    · intro a ha hqueue
      exact absurd ha hqueue
    · intro a ha
      exact List.mem_singleton.mp ha ▸ hstart
    · simpa using hfuel
  induction hpath with
  | refl => exact hsound.start_mem
  | tail _ hstep ih => exact hclosed _ ih List.not_mem_nil hstep

theorem nodup_explore (next : α → List α) (n : ℕ) (start : α) :
    (explore next n [start] [start]).Nodup :=
  ((Sound.initial next start).explore n).elim fun _ h => h.nodup

end Foundation.Explore
