import Maeto.ControlPlane.Service.Registry
import Maeto.Foundation.Run

/-!
# Concurrent publication of intents

Calls that change intents run concurrently. What a call does under the lock of the
registry is one step; after that it stores the generation of each snapshot and puts the
snapshot into the bucket, each in a step of its own, so the steps of different calls
interleave. The lock orders the snapshots of a node by their generation, and nothing
orders their puts: the snapshot of an earlier call may be put after that of a later one.

When the puts of a node do come in the order of their generations, the bucket ends up with
the current entry of every node that was changed.
-/

namespace Maeto.ControlPlane

open Foundation Nodesync GoMap AList

section Calls

inductive Call where
  | commit (tx : RegistryTx) (ords : CommitOrders) (now : ℤ)
  | upsertCPEIntentForSite (portalID : String) (cpe : CPEIntent) (now : ℤ)

def Call.locked : Call → ServiceRegistry → List (String × NodeIntent) × ServiceRegistry
  | .commit tx ords now, r =>
    let st := commitLocked tx ords.pending now r
    (st.snapshots.range ords.snapshots, st.r)
  | .upsertCPEIntentForSite portalID cpe now, r =>
    let (snapshot, r) := upsertCPELocked portalID cpe now r
    ([(publishTargetKey .cpe portalID, snapshot)], r)

inductive CallState where
  | called (call : Call)
  | storing (rest : List (String × NodeIntent))
  | publishing (e : String × NodeIntent) (rest : List (String × NodeIntent))

def CallState.returned : CallState → Bool
  | .storing [] => true
  | _ => false

def CallState.pending : CallState → List (String × NodeIntent)
  | .called _ => []
  | .storing rest => rest
  | .publishing e rest => e :: rest

structure System where
  stores : Stores
  calls : List CallState
  produced : List (String × NodeIntent)
  puts : List (String × NodeIntent)

def System.start (st : Stores) (calls : List Call) : System where
  stores := st
  calls := calls.map .called
  produced := []
  puts := []

def System.step (s : System) (i : ℕ) : System :=
  match s.calls[i]? with
  | some (.called call) =>
    let (snapshots, r) := call.locked s.stores.r
    { s with
      stores := { s.stores with r }
      calls := s.calls.set i (.storing snapshots)
      produced := snapshots ++ s.produced }
  | some (.storing (e :: rest)) =>
    match s.stores.storeGeneration e.2 with
    | (some _, stores) => { s with stores, calls := s.calls.set i (.storing rest) }
    | (none, stores) => { s with stores, calls := s.calls.set i (.publishing e rest) }
  | some (.publishing e rest) =>
    match s.stores.publish e.1 e.2 with
    | (some _, stores) => { s with stores, calls := s.calls.set i (.storing rest) }
    | (none, stores) =>
      { s with stores, calls := s.calls.set i (.storing rest), puts := e :: s.puts }
  | _ => s

end Calls

section Alone

def Call.run : Call → Stores → Stores
  | .commit tx ords now, st => (ControlPlane.commit tx ords now st).2
  | .upsertCPEIntentForSite portalID cpe now, st =>
    (ControlPlane.upsertCPEIntentForSite portalID cpe now st).2

theorem exists_steps_publishRound (e : String × NodeIntent) (rest : List (String × NodeIntent))
    (errs : List String) (st : Stores) (produced puts : List (String × NodeIntent)) :
    ∃ n puts', (List.replicate n 0).foldl System.step
        ⟨st, [.storing (e :: rest)], produced, puts⟩ =
      ⟨(publishRound (errs, st) e).2, [.storing rest], produced, puts'⟩ := by
  cases hstore : st.storeGeneration e.2 with
  | mk err st' =>
    cases err with
    | some err => exact ⟨1, puts, by simp [System.step, publishRound, hstore]⟩
    | none =>
      cases hpublish : st'.publish e.1 e.2 with
      | mk err st'' =>
        cases err with
        | none =>
          exact ⟨2, e :: puts, by simp [System.step, publishRound, hstore, hpublish]⟩
        | some err =>
          exact ⟨2, puts, by simp [System.step, publishRound, hstore, hpublish]⟩

/-- The steps of a call after the lock, with nothing between them, are the second loop
of `Commit`. -/
theorem exists_steps_publish (rest : List (String × NodeIntent)) (acc : List String × Stores)
    (produced puts : List (String × NodeIntent)) :
    ∃ n puts', (List.replicate n 0).foldl System.step
        ⟨acc.2, [.storing rest], produced, puts⟩ =
      ⟨(rest.foldl publishRound acc).2, [.storing []], produced, puts'⟩ := by
  induction rest generalizing acc puts with
  | nil => exact ⟨0, puts, rfl⟩
  | cons e rest ih =>
    obtain ⟨n, puts₁, hround⟩ := exists_steps_publishRound e rest acc.1 acc.2 produced puts
    obtain ⟨m, puts₂, hrest⟩ := ih (publishRound acc e) puts₁
    refine ⟨n + m, puts₂, ?_⟩
    rw [List.replicate_add, List.foldl_append, hround, hrest, List.foldl_cons]

theorem Call.run_eq (call : Call) (st : Stores) :
    ∃ errs, call.run st = ((call.locked st.r).1.foldl publishRound
      (errs, { st with r := (call.locked st.r).2 })).2 := by
  cases call with
  | commit tx ords now => exact ⟨_, rfl⟩
  | upsertCPEIntentForSite portalID cpe now =>
    refine ⟨[], ?_⟩
    simp only [Call.run, ControlPlane.upsertCPEIntentForSite, Call.locked, List.foldl_cons,
      List.foldl_nil, publishRound]
    split <;> rfl

/-- A call with nothing between its steps does what the source does in one piece. -/
theorem exists_steps_run (call : Call) (st : Stores) :
    ∃ n, ((List.replicate n 0).foldl System.step (.start st [call])).stores = call.run st ∧
      ∀ c ∈ ((List.replicate n 0).foldl System.step (.start st [call])).calls, c.returned := by
  obtain ⟨errs, hrun⟩ := call.run_eq st
  obtain ⟨n, puts, hsteps⟩ := exists_steps_publish (call.locked st.r).1
    (errs, { st with r := (call.locked st.r).2 }) ((call.locked st.r).1 ++ []) []
  have hlock : System.step (.start st [call]) 0 =
      ⟨{ st with r := (call.locked st.r).2 }, [.storing (call.locked st.r).1],
        (call.locked st.r).1 ++ [], []⟩ := rfl
  refine ⟨n + 1, ?_, ?_⟩
  · rw [List.replicate_succ, List.foldl_cons, hlock, hsteps, hrun]
  · rw [List.replicate_succ, List.foldl_cons, hlock, hsteps]
    intro c hc
    rw [List.mem_singleton.mp hc]
    rfl

end Alone

section Locked

theorem publishTargetKey_injective {t t' : NodeType} {id id' : String}
    (h : publishTargetKey t id = publishTargetKey t' id') : t = t' ∧ id = id' := by
  have htype : t = t' := by
    have htext := congrArg String.toList h
    simp only [publishTargetKey, key, String.toList_append, List.append_assoc] at htext
    cases t <;> cases t' <;> first | rfl | simp [NodeType.keyPrefix] at htext
  subst htype
  have hid := (String.append_left_inj _).mp ((String.append_left_inj _).mp h)
  exact ⟨rfl, (String.append_right_inj _).mp hid⟩

def Call.nodes : Call → List String
  | .commit tx _ _ => tx.pending.keys
  | .upsertCPEIntentForSite portalID _ _ => [portalID]

/-- No generation that the call counts up is at its last value. -/
def Call.CountersFit (call : Call) (r : ServiceRegistry) : Prop :=
  ∀ id ∈ call.nodes, ∀ ni ∈ r.registry.lookup id, ni.generation.toNat + 1 < 2 ^ 32

instance (call : Call) (r : ServiceRegistry) : Decidable (call.CountersFit r) :=
  inferInstanceAs (Decidable (∀ id ∈ call.nodes, ∀ ni ∈ r.registry.lookup id, _))

def Call.OwnNode : Call → ServiceRegistry → Prop
  | .commit .., _ => True
  | .upsertCPEIntentForSite portalID _ _, r =>
    ∀ ni ∈ r.registry.lookup portalID, ni.nodeType = .cpe

instance (r : ServiceRegistry) : ∀ call : Call, Decidable (call.OwnNode r)
  | .commit .. => isTrue trivial
  | .upsertCPEIntentForSite portalID _ _ =>
    inferInstanceAs (Decidable (∀ ni ∈ r.registry.lookup portalID, _))

structure Taken (r : ServiceRegistry) (snapshots : List (String × NodeIntent))
    (r' : ServiceRegistry) : Prop where
  entry : ∀ e ∈ snapshots, ∃ id, r'.registry.lookup id = some e.2 ∧
    e.1 = publishTargetKey e.2.nodeType id ∧
      ∀ ni, r.registry.lookup id = some ni →
        ni.nodeType = e.2.nodeType ∧ ni.generation < e.2.generation
  kept : ∀ id ni, r.registry.lookup id = some ni → r'.registry.lookup id = some ni ∨
    ∃ ni', r'.registry.lookup id = some ni' ∧ (publishTargetKey ni'.nodeType id, ni') ∈ snapshots

theorem lt_add_one_of_fits {g : UInt32} (h : g.toNat + 1 < 2 ^ 32) : g < g + 1 := by
  rw [UInt32.lt_iff_toNat_lt, UInt32.toNat_add]
  change g.toNat < (g.toNat + 1) % 2 ^ 32
  omega

/-- The state in the middle of the loop of a commit: the nodes that are left have their
entries as before. -/
structure Rounds (r : ServiceRegistry) (left : List String) (st : CommitState) : Prop where
  entry : ∀ k snap, st.snapshots.lookup k = some snap → ∃ id, id ∉ left ∧
    st.r.registry.lookup id = some snap ∧ k = publishTargetKey snap.nodeType id ∧
      ∀ ni, r.registry.lookup id = some ni →
        ni.nodeType = snap.nodeType ∧ ni.generation < snap.generation
  kept : ∀ id, st.r.registry.lookup id = r.registry.lookup id ∨ id ∉ left ∧
    ∃ snap, st.r.registry.lookup id = some snap ∧
      st.snapshots.lookup (publishTargetKey snap.nodeType id) = some snap

theorem commitRound_eq (now : ℤ) (st : CommitState) (id : String) (m : PendingMutation)
    (ms : List PendingMutation) :
    ∃ ni, (∀ old, st.r.registry.lookup id = some old →
        ni.nodeType = old.nodeType ∧ ni.generation = old.generation + 1) ∧
      (commitRound now st (id, m :: ms)).r.registry = st.r.registry.insert id ni ∧
      (commitRound now st (id, m :: ms)).snapshots =
        st.snapshots.insert (publishTargetKey ni.nodeType id) ni := by
  refine ⟨_, ?_, rfl, rfl⟩
  intro old hold
  rw [getOrCreateRegistryEntry_of_lookup hold]
  exact ⟨rfl, rfl⟩

variable {r : ServiceRegistry} {now : ℤ}

theorem Rounds.of_commitRound {id : String}
    {ms : List PendingMutation} {left : List String} {st : CommitState}
    (hfit : ∀ ni ∈ r.registry.lookup id, ni.generation.toNat + 1 < 2 ^ 32) (hid : id ∉ left)
    (h : Rounds r (id :: left) st) :
    Rounds r left (commitRound now st (id, ms)) := by
  have hleft : ∀ {id'}, id' ∉ id :: left → id' ∉ left := fun h h' => h (List.mem_cons_of_mem _ h')
  have hold : st.r.registry.lookup id = r.registry.lookup id := by
    rcases h.kept id with hsame | ⟨hnot, -⟩
    · exact hsame
    · exact absurd List.mem_cons_self hnot
  cases ms with
  | nil =>
    refine ⟨?_, ?_⟩
    · intro k snap hsnap
      obtain ⟨id', hid', hrest⟩ := h.entry k snap hsnap
      exact ⟨id', hleft hid', hrest⟩
    · intro id'
      exact (h.kept id').imp_right fun ⟨hid', hrest⟩ => ⟨hleft hid', hrest⟩
  | cons m ms =>
    obtain ⟨ni, hni, hregistry, hsnapshots⟩ := commitRound_eq now st id m ms
    refine ⟨?_, ?_⟩
    · intro k snap hsnap
      rw [hsnapshots, lookup_insert_eq] at hsnap
      rw [hregistry]
      split_ifs at hsnap with hk
      · cases hsnap
        refine ⟨id, hid, lookup_insert _, hk, ?_⟩
        intro old hlookup
        obtain ⟨htype, hgeneration⟩ := hni old (hold.trans hlookup)
        rw [hgeneration]
        exact ⟨htype.symm, lt_add_one_of_fits (hfit old hlookup)⟩
      · obtain ⟨id', hid', hlookup, hrest⟩ := h.entry k snap hsnap
        have hne : id' ≠ id := fun h => hid' (h ▸ List.mem_cons_self)
        exact ⟨id', hleft hid', (lookup_insert_ne hne).trans hlookup, hrest⟩
    · intro id'
      rw [hregistry, hsnapshots]
      by_cases hne : id' = id
      · subst hne
        exact Or.inr ⟨hid, ni, lookup_insert _, lookup_insert _⟩
      · rw [lookup_insert_ne hne]
        refine (h.kept id').imp_right ?_
        rintro ⟨hid', snap, hlookup, hsnap⟩
        refine ⟨hleft hid', snap, hlookup, ?_⟩
        rw [lookup_insert_ne fun hkey => hne (publishTargetKey_injective hkey).2, hsnap]

theorem Rounds.of_foldl (l : List (String × List PendingMutation))
    (hfit : ∀ e ∈ l, ∀ ni ∈ r.registry.lookup e.1, ni.generation.toNat + 1 < 2 ^ 32)
    (hnodup : (l.map Prod.fst).Nodup) {st : CommitState} (h : Rounds r (l.map Prod.fst) st) :
    Rounds r [] (l.foldl (commitRound now) st) := by
  induction l generalizing st with
  | nil => exact h
  | cons e l ih =>
    obtain ⟨hid, hnodup⟩ := List.nodup_cons.mp hnodup
    obtain ⟨hfirst, hrest⟩ := List.forall_mem_cons.mp hfit
    exact ih hrest hnodup (h.of_commitRound hfirst hid)

theorem taken_commitLocked {tx : RegistryTx} {ords : CommitOrders}
    (hfit : (Call.commit tx ords now).CountersFit r) :
    Taken r ((commitLocked tx ords.pending now r).snapshots.range ords.snapshots)
      (commitLocked tx ords.pending now r).r := by
  have hrounds : Rounds r [] (commitLocked tx ords.pending now r) := by
    refine Rounds.of_foldl _ ?_ (range_keys_nodup _ _) ⟨?_, ?_⟩
    · rintro ⟨id, ms⟩ he
      exact hfit id (mem_iff.mpr ⟨ms, (mem_range _ _ _ _).mp he⟩)
    · intro k snap hsnap
      cases hsnap
    · intro id
      exact Or.inl rfl
  refine ⟨?_, ?_⟩
  · rintro ⟨k, snap⟩ he
    obtain ⟨id, -, hrest⟩ := hrounds.entry k snap ((mem_range _ _ _ _).mp he)
    exact ⟨id, hrest⟩
  · intro id ni hni
    refine (hrounds.kept id).imp (fun hsame => hsame.trans hni) ?_
    rintro ⟨-, snap, hlookup, hsnap⟩
    exact ⟨snap, hlookup, (mem_range _ _ _ _).mpr hsnap⟩

theorem getOrCreateRegistryEntry_cpe {portalID : String}
    (hown : ∀ ni ∈ r.registry.lookup portalID, ni.nodeType = .cpe) (now : ℤ) :
    (getOrCreateRegistryEntry r .cpe portalID now).nodeType = .cpe := by
  cases hlookup : r.registry.lookup portalID with
  | some ni => rw [getOrCreateRegistryEntry_of_lookup hlookup, hown ni hlookup]
  | none =>
    unfold getOrCreateRegistryEntry
    rw [hlookup]
    rfl

theorem Call.locked_taken (call : Call) (hfit : call.CountersFit r)
    (hown : call.OwnNode r) : Taken r (call.locked r).1 (call.locked r).2 := by
  cases call with
  | commit tx ords now => exact taken_commitLocked hfit
  | upsertCPEIntentForSite portalID cpe now =>
    have htype := getOrCreateRegistryEntry_cpe hown now
    refine ⟨?_, ?_⟩
    · intro e he
      rw [List.mem_singleton.mp he]
      refine ⟨portalID, lookup_insert _,
        congrArg (publishTargetKey · portalID) htype.symm, ?_⟩
      intro ni hni
      refine ⟨(hown ni hni).trans htype.symm, ?_⟩
      change ni.generation < (getOrCreateRegistryEntry r .cpe portalID now).generation + 1
      rw [getOrCreateRegistryEntry_of_lookup hni]
      exact lt_add_one_of_fits (hfit portalID List.mem_cons_self ni hni)
    · intro id ni hni
      by_cases hid : id = portalID
      · subst hid
        exact Or.inr ⟨_, lookup_insert _, List.mem_singleton.mpr
          (Prod.ext (congrArg (publishTargetKey · id) htype) rfl)⟩
      · exact Or.inl ((lookup_insert_ne hid).trans hni)

end Locked

section Steps

def CallState.Succeeds (st : Stores) : CallState → Prop
  | .storing (e :: _) => (st.storeGeneration e.2).1 = none
  | .publishing e _ => (st.publish e.1 e.2).1 = none
  | _ => True

instance (st : Stores) : ∀ c : CallState, Decidable (c.Succeeds st)
  | .called _ => isTrue trivial
  | .storing [] => isTrue trivial
  | .storing (e :: _) => inferInstanceAs (Decidable ((st.storeGeneration e.2).1 = none))
  | .publishing e _ => inferInstanceAs (Decidable ((st.publish e.1 e.2).1 = none))

/-- A snapshot is put when no newer one was put under its key, and a call takes the lock
when no generation that it counts up is at its last value and its portal is not a provider
edge. -/
def CallState.InOrder (s : System) : CallState → Prop
  | .called call => call.CountersFit s.stores.r ∧ call.OwnNode s.stores.r
  | .publishing e _ => ∀ e' ∈ s.puts, e'.1 = e.1 → e'.2.generation ≤ e.2.generation
  | .storing _ => True

instance (s : System) : ∀ c : CallState, Decidable (c.InOrder s)
  | .called _ => inferInstanceAs (Decidable (_ ∧ _))
  | .publishing _ _ => inferInstanceAs (Decidable (∀ e' ∈ s.puts, _ → _))
  | .storing _ => isTrue trivial

def NoFailure (s : System) (i : ℕ) : Prop := ∀ c ∈ s.calls[i]?, c.Succeeds s.stores

instance (s : System) (i : ℕ) : Decidable (NoFailure s i) :=
  inferInstanceAs (Decidable (∀ c ∈ s.calls[i]?, _))

def InOrder (s : System) (i : ℕ) : Prop := ∀ c ∈ s.calls[i]?, c.InOrder s

instance (s : System) (i : ℕ) : Decidable (InOrder s i) :=
  inferInstanceAs (Decidable (∀ c ∈ s.calls[i]?, _))

inductive Stepped (s : System) (i : ℕ) : System → Prop
  | idle : Stepped s i s
  | locked (call : Call) (hcall : s.calls[i]? = some (.called call))
      (hfit : call.CountersFit s.stores.r) (hown : call.OwnNode s.stores.r) :
      Stepped s i
        { stores := { s.stores with r := (call.locked s.stores.r).2 }
          calls := s.calls.set i (.storing (call.locked s.stores.r).1)
          produced := (call.locked s.stores.r).1 ++ s.produced
          puts := s.puts }
  | stored (e : String × NodeIntent) (rest : List (String × NodeIntent)) (stores : Stores)
      (hcall : s.calls[i]? = some (.storing (e :: rest)))
      (hregistry : stores.r.registry = s.stores.r.registry)
      (hbucket : stores.bucket = s.stores.bucket) :
      Stepped s i { s with stores, calls := s.calls.set i (.publishing e rest) }
  | put (e : String × NodeIntent) (rest : List (String × NodeIntent)) (stores : Stores)
      (hcall : s.calls[i]? = some (.publishing e rest)) (hregistry : stores.r = s.stores.r)
      (hbucket : stores.bucket.values = s.stores.bucket.values.insert e.1 e.2)
      (horder : ∀ e' ∈ s.puts, e'.1 = e.1 → e'.2.generation ≤ e.2.generation) :
      Stepped s i
        { s with stores, calls := s.calls.set i (.storing rest), puts := e :: s.puts }

theorem publish_eq_none {b : IntentBucket} {k : String} {snap : NodeIntent}
    (h : (publish b k snap).1 = none) :
    (publish b k snap).2.values = b.values.insert k snap := by
  unfold publish at h ⊢
  split at h
  · cases h
  · rfl
  · rfl

variable {s : System} {i : ℕ}

theorem step_stepped (hfail : NoFailure s i) (horder : InOrder s i) :
    Stepped s i (s.step i) := by
  unfold System.step
  split
  · rename_i call hcall
    obtain ⟨hfit, hown⟩ := horder _ hcall
    exact .locked call hcall hfit hown
  · rename_i e rest hcall
    have hok : (s.stores.storeGeneration e.2).1 = none := hfail _ hcall
    split
    · rename_i err stores hstore
      rw [hstore] at hok
      cases hok
    · rename_i stores hstore
      have hstores := congrArg Prod.snd hstore
      refine .stored e rest stores hcall ?_ ?_
      · rw [← show (s.stores.storeGeneration e.2).2 = stores from hstores]
        rfl
      · rw [← show (s.stores.storeGeneration e.2).2 = stores from hstores]
        rfl
  · rename_i e rest hcall
    have hok : (s.stores.publish e.1 e.2).1 = none := hfail _ hcall
    split
    · rename_i err stores hput
      rw [hput] at hok
      cases hok
    · rename_i stores hput
      have hstores := congrArg Prod.snd hput
      refine .put e rest stores hcall ?_ ?_ (horder _ hcall)
      · rw [← show (s.stores.publish e.1 e.2).2 = stores from hstores]
        rfl
      · rw [← show (s.stores.publish e.1 e.2).2 = stores from hstores]
        exact publish_eq_none hok
  · exact .idle

def Waiting (calls : List CallState) (e : String × NodeIntent) : Prop :=
  ∃ (i : ℕ) (c : CallState), calls[i]? = some c ∧ e ∈ c.pending

theorem waiting_set_iff {calls : List CallState} {c : CallState}
    (hcall : calls[i]? = some c) (c' : CallState) (e : String × NodeIntent) :
    Waiting (calls.set i c') e ↔
      e ∈ c'.pending ∨ ∃ (j : ℕ) (d : CallState), j ≠ i ∧ calls[j]? = some d ∧ e ∈ d.pending := by
  have hi : i < calls.length := (List.getElem?_eq_some_iff.mp hcall).1
  constructor
  · rintro ⟨j, d, hd, he⟩
    by_cases hij : j = i
    · subst hij
      rw [List.getElem?_set_self hi] at hd
      cases hd
      exact Or.inl he
    · rw [List.getElem?_set_ne (Ne.symm hij)] at hd
      exact Or.inr ⟨j, d, hij, hd, he⟩
  · rintro (he | ⟨j, d, hij, hd, he⟩)
    · exact ⟨i, c', List.getElem?_set_self hi, he⟩
    · exact ⟨j, d, (List.getElem?_set_ne (Ne.symm hij)).trans hd, he⟩

theorem waiting_iff {calls : List CallState} {c : CallState}
    (hcall : calls[i]? = some c) (e : String × NodeIntent) :
    Waiting calls e ↔
      e ∈ c.pending ∨ ∃ (j : ℕ) (d : CallState), j ≠ i ∧ calls[j]? = some d ∧ e ∈ d.pending := by
  obtain ⟨hi, hc⟩ := List.getElem?_eq_some_iff.mp hcall
  rw [← waiting_set_iff hcall c, ← hc, List.set_getElem_self]

structure Tracked (s : System) : Prop where
  current : ∀ e ∈ s.produced, ∃ id ni, s.stores.r.registry.lookup id = some ni ∧
    e.1 = publishTargetKey ni.nodeType id ∧ (e.2.generation < ni.generation ∨ e.2 = ni) ∧
      (e.1, ni) ∈ s.produced
  accounted : ∀ e ∈ s.produced, e ∈ s.puts ∨ Waiting s.calls e
  taken : ∀ e, e ∈ s.puts ∨ Waiting s.calls e → e ∈ s.produced
  newest : ∀ e ∈ s.puts, ∃ v, s.stores.bucket.values.lookup e.1 = some v ∧ (e.1, v) ∈ s.puts ∧
    ∀ e' ∈ s.puts, e'.1 = e.1 → e'.2.generation ≤ v.generation

theorem Tracked.start (st : Stores) (calls : List Call) : Tracked (.start st calls) := by
  refine ⟨?_, ?_, ?_, ?_⟩
  · intro e he
    cases he
  · intro e he
    cases he
  · rintro e (he | ⟨i, c, hc, he⟩)
    · cases he
    · rw [System.start, List.getElem?_map, Option.map_eq_some_iff] at hc
      obtain ⟨call, -, rfl⟩ := hc
      cases he
  · intro e he
    cases he

theorem Tracked.current_of_taken {snapshots : List (String × NodeIntent)}
    {r' : ServiceRegistry} (h : Tracked s) (htaken : Taken s.stores.r snapshots r') :
    ∀ e ∈ snapshots ++ s.produced, ∃ id ni, r'.registry.lookup id = some ni ∧
      e.1 = publishTargetKey ni.nodeType id ∧ (e.2.generation < ni.generation ∨ e.2 = ni) ∧
        (e.1, ni) ∈ snapshots ++ s.produced := by
  intro e he
  rcases List.mem_append.mp he with hnew | hold
  · obtain ⟨id, hlookup, hkey, -⟩ := htaken.entry e hnew
    exact ⟨id, e.2, hlookup, hkey, Or.inr rfl, he⟩
  · obtain ⟨id, ni, hlookup, hkey, hgeneration, hproduced⟩ := h.current e hold
    rcases htaken.kept id ni hlookup with hkept | ⟨ni', hni', hsnap⟩
    · exact ⟨id, ni, hkept, hkey, hgeneration, List.mem_append_right _ hproduced⟩
    · obtain ⟨id', -, hkey', holder⟩ := htaken.entry _ hsnap
      obtain ⟨-, rfl⟩ := publishTargetKey_injective hkey'
      obtain ⟨htype, hlt⟩ := holder ni hlookup
      rw [htype] at hkey
      refine ⟨id, ni', hni', hkey, Or.inl ?_, ?_⟩
      · rcases hgeneration with hgeneration | heq
        · exact UInt32.lt_trans hgeneration hlt
        · rw [heq]
          exact hlt
      · rw [hkey]
        exact List.mem_append_left _ hsnap

/-- Under each key the bucket has the newest snapshot that was put, also after one more
put that is not older than those before it. -/
theorem Tracked.newest_of_put (h : Tracked s) {e : String × NodeIntent}
    (horder : ∀ e' ∈ s.puts, e'.1 = e.1 → e'.2.generation ≤ e.2.generation) :
    ∀ e' ∈ e :: s.puts, ∃ v, (s.stores.bucket.values.insert e.1 e.2).lookup e'.1 = some v ∧
      (e'.1, v) ∈ e :: s.puts ∧
        ∀ e'' ∈ e :: s.puts, e''.1 = e'.1 → e''.2.generation ≤ v.generation := by
  intro e' he'
  rw [lookup_insert_eq]
  by_cases hkey : e'.1 = e.1
  · refine ⟨e.2, if_pos hkey, by rw [hkey]; exact List.mem_cons_self, ?_⟩
    intro e'' he'' hkey''
    rcases List.mem_cons.mp he'' with rfl | hput
    · exact UInt32.le_refl _
    · exact horder e'' hput (hkey''.trans hkey)
  · have hold : e' ∈ s.puts := (List.mem_cons.mp he').resolve_left fun h => hkey (h ▸ rfl)
    obtain ⟨v, hv, hput, hmax⟩ := h.newest e' hold
    refine ⟨v, (if_neg hkey).trans hv, List.mem_cons_of_mem _ hput, ?_⟩
    intro e'' he'' hkey''
    rcases List.mem_cons.mp he'' with rfl | hput
    · exact absurd hkey''.symm hkey
    · exact hmax e'' hput hkey''

theorem Tracked.produced_iff (h : Tracked s) (e : String × NodeIntent) :
    e ∈ s.produced ↔ e ∈ s.puts ∨ Waiting s.calls e :=
  ⟨h.accounted e, h.taken e⟩

theorem Tracked.produced_iff_of_stepped {s' : System} (h : Tracked s)
    (hstep : Stepped s i s') (e : String × NodeIntent) :
    e ∈ s'.produced ↔ e ∈ s'.puts ∨ Waiting s'.calls e := by
  have hbefore := h.produced_iff e
  cases hstep with
  | idle => exact hbefore
  | locked call hcall hfit hown =>
    simp only [waiting_iff hcall, CallState.pending, List.not_mem_nil, false_or] at hbefore
    simp only [waiting_set_iff hcall, CallState.pending, List.mem_append, hbefore]
    exact or_left_comm
  | stored e' rest stores hcall hregistry hbucket =>
    simp only [waiting_iff hcall, CallState.pending] at hbefore
    simp only [waiting_set_iff hcall, CallState.pending, hbefore]
  | put e' rest stores hcall hregistry hbucket horder =>
    simp only [waiting_iff hcall, CallState.pending, List.mem_cons] at hbefore
    simp only [waiting_set_iff hcall, CallState.pending, List.mem_cons, hbefore]
    rw [or_assoc, or_assoc, or_left_comm]

theorem Tracked.of_stepped {s' : System} (h : Tracked s) (hstep : Stepped s i s') :
    Tracked s' := by
  have haccounted := fun e => (h.produced_iff_of_stepped hstep e).mp
  have htaken := fun e => (h.produced_iff_of_stepped hstep e).mpr
  cases hstep with
  | idle => exact h
  | locked call hcall hfit hown =>
    exact ⟨h.current_of_taken (call.locked_taken hfit hown), haccounted, htaken, h.newest⟩
  | stored e rest stores hcall hregistry hbucket =>
    refine ⟨?_, haccounted, htaken, ?_⟩
    · rw [hregistry]
      exact h.current
    · rw [hbucket]
      exact h.newest
  | put e rest stores hcall hregistry hbucket horder =>
    refine ⟨?_, haccounted, htaken, ?_⟩
    · rw [hregistry]
      exact h.current
    · rw [hbucket]
      exact h.newest_of_put horder

/-- Under the key of every node that was changed, the bucket has the current entry of
the node, which is the snapshot with the highest generation. -/
def NewestPublished (s : System) : Prop :=
  ∀ e ∈ s.produced, ∃ id newest, s.stores.bucket.values.lookup e.1 = some newest ∧
    s.stores.r.registry.lookup id = some newest ∧ e.1 = publishTargetKey newest.nodeType id ∧
    (e.1, newest) ∈ s.produced ∧
    ∀ e' ∈ s.produced, e'.1 = e.1 → e'.2.generation ≤ newest.generation

theorem Tracked.newestPublished (h : Tracked s)
    (hreturned : ∀ c ∈ s.calls, c.returned) : NewestPublished s := by
  have hnone : ∀ e, ¬ Waiting s.calls e := by
    rintro e ⟨i, c, hc, he⟩
    have hdone := hreturned c (List.mem_of_getElem? hc)
    cases c with
    | storing rest =>
      cases rest with
      | nil => cases he
      | cons e' rest => cases hdone
    | _ => cases hdone
  have hput : ∀ e ∈ s.produced, e ∈ s.puts := fun e he =>
    (h.accounted e he).resolve_right (hnone e)
  intro e he
  obtain ⟨id, ni, hlookup, hkey, -, hproduced⟩ := h.current e he
  obtain ⟨v, hv, hvput, hmax⟩ := h.newest e (hput e he)
  -- the value of the bucket is not newer than the entry, and not older
  have heq : v = ni := by
    obtain ⟨id', ni', hlookup', hkey', hgeneration, -⟩ := h.current _ (h.taken _ (Or.inl hvput))
    obtain ⟨-, rfl⟩ := publishTargetKey_injective (hkey.symm.trans hkey')
    cases hlookup.symm.trans hlookup'
    rcases hgeneration with hlt | heq
    · exact absurd hlt (UInt32.not_lt.mpr (hmax (e.1, ni) (hput _ hproduced) rfl))
    · exact heq
  subst heq
  exact ⟨id, v, hv, hlookup, hkey, hproduced, fun e' he' => hmax e' (hput e' he')⟩

/-- When all calls have returned, none has failed, and the snapshots of every node were
put in the order of their generations, the bucket has the newest of them. -/
theorem run_newestPublished (st : Stores) (calls : List Call) (schedule : List ℕ)
    (hrun : Run.EachStep System.step (fun s i => NoFailure s i ∧ InOrder s i) (.start st calls)
      schedule)
    (hreturned : ∀ c ∈ (schedule.foldl System.step (.start st calls)).calls, c.returned) :
    NewestPublished (schedule.foldl System.step (.start st calls)) := by
  refine Tracked.newestPublished (hrun.foldl_induction ?_ (Tracked.start st calls)) hreturned
  intro s i hs hstep
  exact hs.of_stepped (step_stepped hstep.1 hstep.2)

def classCommit (color : UInt64) : Call :=
  .commit (stageTrafficClassMappingForPE beginTx "pe1" [⟨color, [46]⟩]) ⟨.listed, .listed⟩ 0

def twoCommits : System :=
  .start ⟨newServiceRegistry .empty 0, .empty⟩ [classCommit 1, classCommit 2]

theorem newestPublished_one_after_the_other :
    NewestPublished ([0, 0, 0, 1, 1, 1].foldl System.step twoCommits) :=
  run_newestPublished _ _ _ (by decide +kernel) (by decide +kernel)

/-- The first commit takes the lock before the second one and puts its snapshot after it. -/
theorem older_published_last :
    Run.EachStep System.step NoFailure twoCommits [0, 1, 1, 1, 0, 0] ∧
      (∀ c ∈ ([0, 1, 1, 1, 0, 0].foldl System.step twoCommits).calls, c.returned) ∧
      ¬ NewestPublished ([0, 1, 1, 1, 0, 0].foldl System.step twoCommits) := by
  refine ⟨by decide +kernel, by decide +kernel, ?_⟩
  have hbucket : (([0, 1, 1, 1, 0, 0].foldl System.step twoCommits).stores.bucket.values.lookup
      "pop.pe1.intent").map NodeIntent.generation = some 2 := by decide +kernel
  have hproduced : ("pop.pe1.intent", 3) ∈ ([0, 1, 1, 1, 0, 0].foldl System.step
      twoCommits).produced.map fun e => (e.1, e.2.generation) := by decide +kernel
  intro h
  obtain ⟨e, he, heq⟩ := List.mem_map.mp hproduced
  obtain ⟨hkey, hgeneration⟩ := Prod.ext_iff.mp heq
  obtain ⟨id, newest, hnewest, -, -, -, hmax⟩ := h e he
  have hle := hmax e he rfl
  rw [show e.1 = "pop.pe1.intent" from hkey] at hnewest
  rw [hnewest] at hbucket
  rw [show e.2.generation = 3 from hgeneration, Option.some.inj hbucket] at hle
  exact absurd hle (by decide)

end Steps

end Maeto.ControlPlane
