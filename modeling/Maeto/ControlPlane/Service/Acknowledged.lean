import Maeto.ControlPlane.Service.Forward

/-!
# What a commit without an error has done

`Commit` returns the errors of the mutations and of the puts. A generation that cannot be
stored is logged and the snapshot of its node is passed over, so a commit that returns no
error has changed every node without an error, but it has put the snapshots of just the
nodes whose generations were stored.
-/

namespace Maeto.ControlPlane

open Foundation Nodesync GoMap AList

section Turns

def RegistryTx.before (tx : RegistryTx) (ord : RangeOrder) (now : ℤ) (r : ServiceRegistry)
    (entryKey : String) : CommitState :=
  ((tx.pending.range ord).takeWhile fun e => e.1 ≠ entryKey).foldl (commitRound now)
    { r, snapshots := ∅, collectedErrors := [] }

/-- The mutations of a node returned no error, and the entry that they left was put into the
bucket. -/
structure WentOut (tx : RegistryTx) (ords : CommitOrders) (now : ℤ) (st : Stores)
    (entryKey : String) (ms : List PendingMutation) : Prop where
  applied : (commitRound now (tx.before ords.pending now st.r entryKey)
    (entryKey, ms)).collectedErrors =
      (tx.before ords.pending now st.r entryKey).collectedErrors
  put : ∃ ni, (commitRound now (tx.before ords.pending now st.r entryKey)
    (entryKey, ms)).r.registry.lookup entryKey = some ni ∧
      (publishTargetKey ni.nodeType entryKey, ni) ∈ (Call.commit tx ords now).puts st

/-- The database stores the generation of every node that is pending. The calls that the
mutations make come before. -/
def GenerationsStored (tx : RegistryTx) (ords : CommitOrders) (now : ℤ) (st : Stores) : Prop :=
  ∀ o ∈ (commitLocked tx ords.pending now st.r).r.db.outcomes.take tx.pending.keys.length, o = none

theorem commitRound_collectedErrors (now : ℤ) (st : CommitState)
    (e : String × List PendingMutation) :
    ∃ errs, (commitRound now st e).collectedErrors = st.collectedErrors ++ errs := by
  unfold commitRound
  split
  · exact ⟨[], (List.append_nil _).symm⟩
  · exact ⟨_, rfl⟩

theorem foldl_commitRound_collectedErrors (now : ℤ) (l : List (String × List PendingMutation))
    (st : CommitState) :
    ∃ errs, (l.foldl (commitRound now) st).collectedErrors = st.collectedErrors ++ errs := by
  induction l generalizing st with
  | nil => exact ⟨[], (List.append_nil _).symm⟩
  | cons e l ih =>
    obtain ⟨errs, herrs⟩ := commitRound_collectedErrors now st e
    obtain ⟨errs', herrs'⟩ := ih (commitRound now st e)
    exact ⟨errs ++ errs', by rw [List.foldl_cons, herrs', herrs, List.append_assoc]⟩

theorem foldl_commitRound_lookup (now : ℤ) {l : List (String × List PendingMutation)} {id : String}
    (hid : id ∉ l.map Prod.fst) (st : CommitState) :
    (l.foldl (commitRound now) st).r.registry.lookup id = st.r.registry.lookup id := by
  induction l generalizing st with
  | nil => rfl
  | cons e l ih =>
    obtain ⟨id', ms⟩ := e
    obtain ⟨hne, hid⟩ := not_or.mp (mt List.mem_cons.mpr hid)
    rw [List.foldl_cons, ih hid]
    cases ms with
    | nil => rfl
    | cons m ms =>
      obtain ⟨ni, -, hregistry, -⟩ := commitRound_eq now st id' m ms
      rw [hregistry, lookup_insert_ne hne]

structure Snapped (done : List (String × List PendingMutation)) (st : CommitState) : Prop where
  taken : ∀ e ∈ done, ∃ ni, st.r.registry.lookup e.1 = some ni ∧
    st.snapshots.lookup (publishTargetKey ni.nodeType e.1) = some ni
  only : ∀ k ni, st.snapshots.lookup k = some ni → ∃ e ∈ done,
    st.r.registry.lookup e.1 = some ni ∧ k = publishTargetKey ni.nodeType e.1
  length : st.snapshots.keys.length = done.length

theorem Snapped.commitRound {done : List (String × List PendingMutation)} {st : CommitState}
    (h : Snapped done st) {e : String × List PendingMutation} (hnew : e.1 ∉ done.map Prod.fst)
    (hne : e.2 ≠ []) (now : ℤ) : Snapped (done ++ [e]) (commitRound now st e) := by
  obtain ⟨id, ms⟩ := e
  obtain ⟨m, ms, rfl⟩ := List.exists_cons_of_ne_nil hne
  obtain ⟨ni, -, hregistry, hsnapshots⟩ := commitRound_eq now st id m ms
  have hother : ∀ e ∈ done, e.1 ≠ id := by
    intro e he heq
    exact hnew (List.mem_map.mpr ⟨e, he, heq⟩)
  refine ⟨?_, ?_, ?_⟩
  · intro e he
    rw [hregistry, hsnapshots]
    rcases List.mem_append.mp he with hdone | hlast
    · obtain ⟨ni', hlookup, hsnap⟩ := h.taken e hdone
      refine ⟨ni', ?_, ?_⟩
      · rw [lookup_insert_ne (hother e hdone), hlookup]
      · rw [lookup_insert_ne fun hkey =>
          hother e hdone (publishTargetKey_injective hkey).2, hsnap]
    · rw [List.mem_singleton.mp hlast]
      exact ⟨ni, lookup_insert _, lookup_insert _⟩
  · intro k ni' hsnap
    rw [hsnapshots, lookup_insert_eq] at hsnap
    rw [hregistry]
    split_ifs at hsnap with hk
    · cases hsnap
      exact ⟨(id, m :: ms), by simp, lookup_insert _, hk⟩
    · obtain ⟨e, he, hlookup, hkey⟩ := h.only k ni' hsnap
      refine ⟨e, List.mem_append_left _ he, ?_, hkey⟩
      rw [lookup_insert_ne (hother e he), hlookup]
  · have hfresh : publishTargetKey ni.nodeType id ∉ st.snapshots.keys := by
      intro hmem
      obtain ⟨ni', hsnap⟩ := mem_iff.mp (mem_keys.mp hmem)
      obtain ⟨e, he, -, hkey⟩ := h.only _ ni' hsnap
      exact hother e he (publishTargetKey_injective hkey).2.symm
    rw [hsnapshots, keys_insert, List.erase_of_not_mem hfresh, List.length_cons, h.length,
      List.length_append, List.length_singleton]

theorem snapped_foldl (now : ℤ) (r : ServiceRegistry) {l : List (String × List PendingMutation)}
    (hnodup : (l.map Prod.fst).Nodup) (hne : ∀ e ∈ l, e.2 ≠ []) :
    Snapped l (l.foldl (commitRound now) { r, snapshots := ∅, collectedErrors := [] }) := by
  induction l using List.reverseRecOn with
  | nil =>
    refine ⟨(fun _ he => nomatch he), ?_, rfl⟩
    intro k ni hsnap
    exact absurd hsnap (lookup_empty_ne k ni)
  | append_singleton l e ih =>
    rw [List.map_append, List.map_singleton] at hnodup
    obtain ⟨hl, -, hdisjoint⟩ := List.nodup_append.mp hnodup
    obtain ⟨hnel, hnee⟩ := List.forall_mem_append.mp hne
    rw [List.foldl_append]
    refine (ih hl hnel).commitRound ?_ (hnee e List.mem_cons_self) now
    exact fun hmem => hdisjoint _ hmem _ List.mem_cons_self rfl

end Turns

section Puts

variable {rest : List (String × NodeIntent)} {errs : List String} {st : Stores}

theorem published_sublist (rest : List (String × NodeIntent)) (st : Stores) :
    (published rest st).Sublist rest := by
  induction rest generalizing st with
  | nil => exact List.Sublist.refl _
  | cons e rest ih =>
    rw [published]
    split
    · exact (ih _).cons e
    · split
      · exact (ih _).cons e
      · exact (ih _).cons_cons e

theorem Stores.storeGeneration_outcome (st : Stores) (snapshot : NodeIntent) :
    (st.storeGeneration snapshot).1 = st.r.db.outcomes.head?.join ∧
      (st.storeGeneration snapshot).2.r.db.outcomes = st.r.db.outcomes.tail := by
  obtain ⟨⟨⟨_, _, _, ⟨_, _, _, outcomes⟩⟩, _⟩, _⟩ := st
  cases outcomes with
  | nil => exact ⟨rfl, rfl⟩
  | cons o outcomes =>
    cases o with
    | none => exact ⟨rfl, rfl⟩
    | some err => exact ⟨rfl, rfl⟩

theorem forall_take_succ_iff (outcomes : List (Option String)) (n : ℕ) :
    (∀ o ∈ outcomes.take (n + 1), o = none) ↔
      outcomes.head?.join = none ∧ ∀ o ∈ outcomes.tail.take n, o = none := by
  cases outcomes with
  | nil => simp
  | cons o outcomes => simp

theorem Stores.publish_r (st : Stores) (targetKey : String) (snapshot : NodeIntent) :
    (st.publish targetKey snapshot).2.r = st.r := rfl

theorem published_eq_self_iff (h : (rest.foldl publishRound ([], st)).1 = []) :
    published rest st = rest ↔ ∀ o ∈ st.r.db.outcomes.take rest.length, o = none := by
  induction rest generalizing st with
  | nil => simp [published]
  | cons e rest ih =>
    obtain ⟨herr, hrest⟩ := st.storeGeneration_outcome e.2
    rw [List.length_cons, forall_take_succ_iff, ← herr, ← hrest, published]
    rw [List.foldl_cons, publishRound] at h
    generalize st.storeGeneration e.2 = stored at h ⊢
    obtain ⟨err, st'⟩ := stored
    cases err with
    | some err =>
      refine iff_of_false ?_ fun hstored => Option.some_ne_none _ hstored.1
      intro heq
      have hle := (published_sublist rest st').length_le
      simp only [heq, List.length_cons] at hle
      omega
    | none =>
      have hput := of_foldl_publishRound_eq_nil h
      have hr := st'.publish_r e.1 e.2
      simp only at h hput ⊢
      generalize st'.publish e.1 e.2 = put at h hput hr ⊢
      obtain ⟨err, st''⟩ := put
      cases err with
      | some err => cases hput
      | none =>
        simp only [List.cons.injEq, true_and, ← hr]
        exact ih h

theorem forall_mem_published_iff (hnodup : rest.Nodup)
    (h : (rest.foldl publishRound ([], st)).1 = []) :
    (∀ e ∈ rest, e ∈ published rest st) ↔
      ∀ o ∈ st.r.db.outcomes.take rest.length, o = none := by
  rw [← published_eq_self_iff h]
  constructor
  · intro hall
    exact (published_sublist rest st).eq_of_length_le (List.subperm_of_subset hnodup hall).length_le
  · intro heq e he
    rwa [heq]

end Puts

section Acknowledged

variable {tx : RegistryTx} {ords : CommitOrders} {now : ℤ} {st : Stores} {entryKey : String}
  {ms : List PendingMutation}

theorem exists_commitLocked_eq
    (h : tx.pending.lookup entryKey = some ms) (ord : RangeOrder) (now : ℤ) (r : ServiceRegistry) :
    ∃ after : List (String × List PendingMutation), entryKey ∉ after.map Prod.fst ∧
      commitLocked tx ord now r =
        after.foldl (commitRound now)
          (commitRound now (tx.before ord now r entryKey) (entryKey, ms)) := by
  obtain ⟨after, hsplit, hafter⟩ := range_eq_takeWhile_append ord h
  refine ⟨after, hafter, ?_⟩
  rw [commitLocked, hsplit, List.foldl_append, List.foldl_cons]
  rfl

theorem lookup_commitLocked
    (h : tx.pending.lookup entryKey = some ms) (ord : RangeOrder) (now : ℤ) (r : ServiceRegistry) :
    (commitLocked tx ord now r).r.registry.lookup entryKey =
      (commitRound now (tx.before ord now r entryKey) (entryKey, ms)).r.registry.lookup
        entryKey := by
  obtain ⟨after, hafter, hlocked⟩ := exists_commitLocked_eq h ord now r
  rw [hlocked, foldl_commitRound_lookup now hafter]

theorem applied_of_collectedErrors_eq_nil
    (h : tx.pending.lookup entryKey = some ms) {ord : RangeOrder} {r : ServiceRegistry}
    (hnil : (commitLocked tx ord now r).collectedErrors = []) :
    (commitRound now (tx.before ord now r entryKey) (entryKey, ms)).collectedErrors =
      (tx.before ord now r entryKey).collectedErrors := by
  obtain ⟨after, -, hlocked⟩ := exists_commitLocked_eq h ord now r
  obtain ⟨errs, hround⟩ :=
    commitRound_collectedErrors now (tx.before ord now r entryKey) (entryKey, ms)
  obtain ⟨errs', hafter⟩ := foldl_commitRound_collectedErrors now after
    (commitRound now (tx.before ord now r entryKey) (entryKey, ms))
  rw [hlocked, hafter, hround, List.append_assoc] at hnil
  obtain ⟨hbefore, hrest⟩ := List.append_eq_nil_iff.mp hnil
  rw [hround, hbefore, (List.append_eq_nil_iff.mp hrest).1, List.append_nil]

theorem snapped_commitLocked (tx : RegistryTx) (ord : RangeOrder) (now : ℤ) (r : ServiceRegistry) :
    Snapped (tx.pending.range ord) (commitLocked tx ord now r) :=
  snapped_foldl now r (range_keys_nodup ord tx.pending) fun e he =>
    tx.pending_ne_nil e.1 e.2 ((mem_range ord tx.pending e.1 e.2).mp he)

/-- When a commit returns no error, every node was changed without an error and its snapshot
was put exactly when the generation of every node was stored. -/
theorem wentOut_iff_generationsStored (hnil : (commit tx ords now st).1 = []) :
    (∀ entryKey ms, tx.pending.lookup entryKey = some ms → WentOut tx ords now st entryKey ms) ↔
      GenerationsStored tx ords now st := by
  have herrs := collectedErrors_of_commit hnil
  have hsnapped := snapped_commitLocked tx ords.pending now st.r
  have hlength : ((commitLocked tx ords.pending now st.r).snapshots.range ords.snapshots).length =
      tx.pending.keys.length := by
    rw [length_range, hsnapped.length, length_range]
  rw [commit, herrs] at hnil
  rw [GenerationsStored, ← hlength, ← forall_mem_published_iff (range_nodup _ _) hnil]
  constructor
  · rintro hout ⟨k, ni⟩ hmem
    obtain ⟨⟨id, ms⟩, hpending, hlookup, rfl⟩ :=
      hsnapped.only k ni ((mem_range _ _ _ _).mp hmem)
    have hms := (mem_range _ _ _ _).mp hpending
    obtain ⟨ni', hround, hput⟩ := (hout id ms hms).put
    rw [← lookup_commitLocked hms, hlookup] at hround
    cases hround
    exact hput
  · intro hall entryKey ms hms
    refine ⟨applied_of_collectedErrors_eq_nil hms herrs, ?_⟩
    obtain ⟨ni, hlookup, hsnap⟩ := hsnapped.taken _ ((mem_range ords.pending _ _ _).mpr hms)
    rw [← lookup_commitLocked hms]
    exact ⟨ni, hlookup, hall _ ((mem_range _ _ _ _).mpr hsnap)⟩

def classesOf (outcome : Option String) : RegistryTx × Stores :=
  (stageTrafficClassMappingForPE beginTx "pe1" [],
    { r := newServiceRegistry { Database.empty with outcomes := [outcome] } 0, bucket := .empty })

/-- The generation of the node is stored, and its snapshot is put. -/
theorem wentOut_pe1 :
    (commit (classesOf none).1 ⟨.listed, .listed⟩ 1 (classesOf none).2).1 = [] ∧
      ∀ entryKey ms, (classesOf none).1.pending.lookup entryKey = some ms →
        WentOut (classesOf none).1 ⟨.listed, .listed⟩ 1 (classesOf none).2 entryKey ms := by
  have hnil : (commit (classesOf none).1 ⟨.listed, .listed⟩ 1 (classesOf none).2).1 = [] := by
    decide
  refine ⟨hnil, (wentOut_iff_generationsStored hnil).mpr ?_⟩
  show ∀ o ∈ [none], o = none
  simp

/-- The database fails and the commit returns no error, with nothing in the bucket. -/
theorem nothing_put_for_pe1 :
    (commit (classesOf (some "connection refused")).1 ⟨.listed, .listed⟩ 1
      (classesOf (some "connection refused")).2).1 = [] ∧
      ¬ ∀ entryKey ms,
        (classesOf (some "connection refused")).1.pending.lookup entryKey = some ms →
          WentOut (classesOf (some "connection refused")).1 ⟨.listed, .listed⟩ 1
            (classesOf (some "connection refused")).2 entryKey ms := by
  refine ⟨by decide, fun hout => ?_⟩
  obtain ⟨ni, -, hput⟩ := (hout "pe1" _ rfl).put
  cases hput

end Acknowledged

end Maeto.ControlPlane
