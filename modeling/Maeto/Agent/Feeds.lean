import Maeto.Nodesync.Intent

/-!
# How intents reach the reconciler and the probes

The watcher of the agent hands the entries of the bucket that it sees to a goroutine, which offers
them to a feed for the reconciler and to one for the probes. An offer to a full feed is dropped.
Every twenty seconds the last entry is offered again. Entries are named by their revisions.

In every interleaving of these steps no entry is taken from a feed after a newer one, and an entry
that was dropped is made up for by the next resync (`feeds_in_order`).
-/

namespace Maeto.Agent

open Nodesync

inductive Lane where
  | dataplane
  | probe
  deriving DecidableEq

def feedSize : ℕ := 32

structure Feeds where
  bucket : List NodeIntent
  watched : ℕ
  aggregate : List ℕ
  last : Option ℕ
  feed : Lane → List ℕ
  taken : Lane → List ℕ

def Feeds.start : Feeds := ⟨[], 0, [], none, fun _ => [], fun _ => []⟩

inductive FeedEvent where
  | put (intent : NodeIntent)
  | watch (skipped : ℕ)
  | fanOut
  | resync
  | take (lane : Lane)

namespace Feeds

def offer (feed : List ℕ) (item : ℕ) : List ℕ :=
  if feed.length < feedSize then feed ++ [item] else feed

def fanOutToFeeds (s : Feeds) (item : ℕ) : Feeds :=
  { s with feed := fun lane => offer (s.feed lane) item }

def step (s : Feeds) : FeedEvent → Feeds
  | .put intent => { s with bucket := s.bucket ++ [intent] }
  | .watch skipped =>
    -- The send blocks while the channel is full.
    if s.watched + skipped < s.bucket.length ∧ s.aggregate.length < feedSize then
      { s with
        watched := s.watched + skipped + 1
        aggregate := s.aggregate ++ [s.watched + skipped] }
    else s
  | .fanOut =>
    -- A consumer between the two offers sees only its own feed, so they can be one step.
    match s.aggregate with
    | [] => s
    | item :: rest => { s.fanOutToFeeds item with aggregate := rest, last := some item }
  | .resync => s.last.elim s s.fanOutToFeeds
  | .take lane =>
    match s.feed lane with
    | [] => s
    | item :: rest =>
      { s with
        feed := Function.update s.feed lane rest
        taken := Function.update s.taken lane (s.taken lane ++ [item]) }

/-- In the order of the bucket, and older than entry `n`. -/
def InOrder (n : ℕ) (items : List ℕ) : Prop :=
  items.Pairwise (· ≤ ·) ∧ ∀ item ∈ items, item < n

theorem InOrder.sublist {n : ℕ} {l l' : List ℕ} (h : InOrder n l) (hsub : l'.Sublist l) :
    InOrder n l' :=
  ⟨h.1.sublist hsub, fun item hitem => h.2 item (hsub.subset hitem)⟩

theorem InOrder.concat {n item : ℕ} {l : List ℕ} (h : InOrder n l) (hle : n ≤ item) :
    InOrder (item + 1) (l ++ [item]) := by
  refine ⟨List.pairwise_append.mpr ⟨h.1, List.pairwise_singleton _ _, ?_⟩, ?_⟩
  · intro x hx y hy
    rw [List.mem_singleton.mp hy]
    exact (h.2 x hx).le.trans hle
  · intro x hx
    rcases List.mem_append.mp hx with hx | hx
    · exact (h.2 x hx).trans_le (hle.trans (Nat.le_succ item))
    · exact List.mem_singleton.mp hx ▸ Nat.lt_succ_self item

theorem InOrder.offer {n item : ℕ} {taken feed rest : List ℕ}
    (h : InOrder n (taken ++ (feed ++ item :: rest))) :
    InOrder n (taken ++ (offer feed item ++ item :: rest)) := by
  unfold Feeds.offer
  split_ifs
  · simp only [InOrder, List.pairwise_append, List.mem_append, List.mem_cons, List.append_assoc,
      List.singleton_append, List.pairwise_cons] at h ⊢
    grind
  · exact h

def trail (s : Feeds) (lane : Lane) : List ℕ :=
  s.taken lane ++ (s.feed lane ++ (s.last.toList ++ s.aggregate))

/-- The entries follow each other in the order of the bucket, up to the one that was seen last. -/
structure Ordered (s : Feeds) : Prop where
  trail : ∀ lane, InOrder s.watched (s.trail lane)
  newest : (s.last.toList ++ s.aggregate).getLast?.elim 0 (· + 1) = s.watched
  put : s.watched ≤ s.bucket.length

theorem Ordered.fanOut {s : Feeds} (h : s.Ordered) {item : ℕ} {rest : List ℕ}
    (haggregate : s.aggregate = item :: rest) :
    Ordered { s.fanOutToFeeds item with aggregate := rest, last := some item } := by
  refine ⟨fun lane => InOrder.offer ((h.trail lane).sublist ?_), ?_, h.put⟩
  · rw [Feeds.trail, haggregate]
    exact (((List.sublist_append_right _ _).append_left _).append_left _)
  · refine Eq.trans ?_ h.newest
    simp [haggregate, List.getLast?_append, List.getLast?_cons]

theorem Ordered.step {s : Feeds} (h : s.Ordered) (event : FeedEvent) : (s.step event).Ordered := by
  cases event with
  | put intent =>
    refine ⟨h.trail, h.newest, ?_⟩
    simp only [Feeds.step, List.length_append, List.length_singleton]
    exact Nat.le_succ_of_le h.put
  | watch skipped =>
    unfold Feeds.step
    dsimp only
    split_ifs with hroom
    · refine ⟨fun lane => ?_, by simp, hroom.1⟩
      have htrail := (h.trail lane).concat (Nat.le_add_right s.watched skipped)
      simpa only [Feeds.trail, List.append_assoc] using htrail
    · exact h
  | fanOut =>
    unfold Feeds.step
    dsimp only
    split
    · exact h
    · exact h.fanOut (by assumption)
  | resync =>
    unfold Feeds.step
    cases hlast : s.last with
    | none => exact h
    | some item =>
      refine ⟨fun lane => ?_, h.newest, h.put⟩
      have htrail := h.trail lane
      simp only [Feeds.trail, hlast] at htrail
      simp only [Feeds.trail, Option.elim_some, fanOutToFeeds, hlast]
      exact htrail.offer
  | take lane =>
    unfold Feeds.step
    dsimp only
    split
    · exact h
    · rename_i item rest hfeed
      refine ⟨fun lane' => ?_, h.newest, h.put⟩
      have htrail := h.trail lane'
      by_cases hlane : lane' = lane
      · subst hlane
        simpa [Feeds.trail, hfeed] using htrail
      · simpa [Feeds.trail, hlane] using htrail

theorem taken_replicate (lane : Lane) (n : ℕ) (s : Feeds) :
    ((List.replicate n (.take lane)).foldl step s).taken lane =
      s.taken lane ++ (s.feed lane).take n := by
  induction n generalizing s with
  | zero => simp
  | succ n ih =>
    rw [List.replicate_succ, List.foldl_cons, ih, Feeds.step]
    split
    · rename_i hfeed
      simp [hfeed]
    · rename_i item rest hfeed
      simp [hfeed]

end Feeds

/-- After any interleaving of the steps, the entries that were taken from a feed are entries of the
bucket in its order, so their intents do not get older when those of the bucket do not. When all
entries were seen and none waits before the feeds, a resync with room in the feed makes up for those
that were dropped: the feed then ends in the newest entry. -/
theorem feeds_in_order (events : List FeedEvent) (lane : Lane) :
    let s := events.foldl Feeds.step Feeds.start
    (s.taken lane).Pairwise (· ≤ ·) ∧ (∀ item ∈ s.taken lane, item < s.bucket.length) ∧
      (s.bucket.Pairwise (fun ni ni' => ni.stamp ≤ ni'.stamp) →
        ((s.taken lane).filterMap (s.bucket[·]?)).Pairwise fun ni ni' => ni.stamp ≤ ni'.stamp) ∧
      (s.aggregate = [] → s.watched = s.bucket.length → s.bucket ≠ [] →
        (s.feed lane).length < feedSize →
        ((.resync :: .replicate ((s.feed lane).length + 1) (.take lane)).foldl Feeds.step s).taken
          lane = s.taken lane ++ s.feed lane ++ [s.bucket.length - 1]) := by
  intro s
  have h : s.Ordered := List.foldlRecOn (motive := Feeds.Ordered) events _
    ⟨fun _ => ⟨.nil, List.forall_mem_nil _⟩, rfl, le_rfl⟩ fun s hs event _ => hs.step event
  have htaken := (h.trail lane).sublist (List.sublist_append_left _ _)
  refine ⟨htaken.1, fun item hitem => (htaken.2 item hitem).trans_le h.put, ?_, ?_⟩
  · intro hstamps
    refine List.pairwise_filterMap.mpr (htaken.1.imp ?_)
    intro i j hij ni hni ni' hni'
    obtain ⟨hi, rfl⟩ := List.getElem?_eq_some_iff.mp hni
    obtain ⟨hj, rfl⟩ := List.getElem?_eq_some_iff.mp hni'
    rcases hij.eq_or_lt with rfl | hlt
    · exact le_rfl
    · exact List.pairwise_iff_getElem.mp hstamps i j hi hj hlt
  intro haggregate hwatched hbucket hroom
  have hnewest := h.newest
  rw [haggregate, hwatched, List.append_nil] at hnewest
  cases hlast : s.last with
  | none =>
    rw [hlast] at hnewest
    exact absurd (List.length_eq_zero_iff.mp hnewest.symm) hbucket
  | some item =>
    rw [hlast] at hnewest
    have hitem : s.bucket.length - 1 = item := by
      rw [← hnewest]
      rfl
    rw [List.foldl_cons, Feeds.taken_replicate, Feeds.step, hlast, hitem]
    simp [Feeds.fanOutToFeeds, Feeds.offer, hroom]

def idleIntent : NodeIntent where
  id := "cpe1"
  nodeType := .cpe
  intent := .cpe
    { portalID := "cpe1", tunnelInterfaceID := 0, tunnelPE := "", tunnelPEEndpointAddr := .invalid,
      tenantID := "1", tenantPrefix := .invalid, sitePrefix := .invalid }
  timestamp := 0
  generation := 1
  version := 1

def overflow : List FeedEvent :=
  (List.replicate (feedSize + 1) [.put idleIntent, .watch 0, .fanOut]).flatten ++
    [.take .dataplane]

/-- The last entry was dropped, and the resync makes up for it. -/
theorem overflow_made_up :
    feedSize ∉ (overflow.foldl Feeds.step Feeds.start).feed .dataplane ∧
      ((.resync :: .replicate feedSize (.take .dataplane)).foldl Feeds.step
        (overflow.foldl Feeds.step Feeds.start)).taken .dataplane = List.range (feedSize + 1) := by
  have hfeed : (overflow.foldl Feeds.step Feeds.start).feed .dataplane =
      (List.range 31).map (· + 1) := by
    decide +kernel
  have hlength : ((overflow.foldl Feeds.step Feeds.start).feed .dataplane).length + 1 =
      feedSize := by
    rw [hfeed]
    rfl
  have hresync := (feeds_in_order overflow .dataplane).2.2.2 (by decide +kernel)
    (by decide +kernel) (List.ne_nil_of_length_pos (by decide +kernel)) (by omega)
  rw [hlength] at hresync
  refine ⟨by rw [hfeed]; decide, hresync.trans ?_⟩
  rw [hfeed]
  decide +kernel

end Maeto.Agent
