import Maeto.ControlPlane.Service.Allocations
import Maeto.ControlPlane.Service.Publication

/-!
# What a node is told over the restarts of the controller

The pairs of version and generation that are published for a node move forward as long as the
controller runs, since they are those of the entry in memory. After a restart the entry
begins again with the version after the recorded one, so they keep moving forward if nothing
was published that the database does not bound: `Commit` and `UpsertCPEIntentForSite` record a
pair before they publish it, and `Restore` does not.

The history of a run keeps what was put into the bucket. The invariant has a part for the
database (`Behind`), which survives a crash, and a part for the memory (`Ahead`).
-/

namespace Maeto.ControlPlane

open Foundation Netip Nodesync GoMap AList

section Staging

inductive Change where
  | sidSegs (tenantID : String) (localNodeID : NodeID) (locatorPrefix : Prefix)
      (pathsInstallIntents : List PESIDInstallIntent)
  | portal (nodeID : NodeID) (tenantID portalID : String) (portal : PEPortalIntent)
      (locatorPrefix : Prefix)
  | trafficClassMapping (nodeID : NodeID) (mapping : List PETrafficClassIntent)
  | peers (nodeID : NodeID)

def stagePeersForPE (tx : RegistryTx) (nodeID : NodeID) : RegistryTx :=
  tx.mutatePE nodeID fun pe s => (none, pe, s)

def Change.stage (tx : RegistryTx) : Change → RegistryTx
  | .sidSegs tenantID localNodeID locatorPrefix pathsInstallIntents =>
    stageSIDSegsForTenantOnNode tx tenantID localNodeID locatorPrefix pathsInstallIntents
  | .portal nodeID tenantID portalID intent locatorPrefix =>
    stagePortalIntentForNode tx nodeID tenantID portalID intent locatorPrefix
  | .trafficClassMapping nodeID mapping => stageTrafficClassMappingForPE tx nodeID mapping
  | .peers nodeID => stagePeersForPE tx nodeID

def stageAll (changes : List Change) : RegistryTx := changes.foldl Change.stage beginTx

def RegistryTx.LeavesGenerations (tx : RegistryTx) : Prop :=
  ∀ entryKey ms, tx.pending.lookup entryKey = some ms → ∀ m ∈ ms, ∀ intent s,
    (m.mutate intent s).2.2.db.nodeGenerations = s.db.nodeGenerations

theorem beginTx_leavesGenerations : beginTx.LeavesGenerations := by
  intro entryKey ms h
  cases h

variable {tx : RegistryTx}

theorem RegistryTx.LeavesGenerations.mutatePE (h : tx.LeavesGenerations)
    (nodeID : NodeID) {mutate : PEIntent → SIDState → Option String × PEIntent × SIDState}
    (hmutate : ∀ pe s, (mutate pe s).2.2.db.nodeGenerations = s.db.nodeGenerations) :
    (tx.mutatePE nodeID mutate).LeavesGenerations := by
  intro entryKey ms hlookup m hm intent s
  rw [RegistryTx.mutatePE, lookup_insert_eq] at hlookup
  split_ifs at hlookup with hkey
  · cases hlookup
    rw [List.mem_append, List.mem_singleton] at hm
    rcases hm with hm | rfl
    · cases hpending : tx.pending.lookup nodeID with
      | none => simp [GoMap.getD, hpending] at hm
      | some ms =>
        rw [GoMap.getD, hpending] at hm
        exact h nodeID ms hpending m hm intent s
    · cases intent with
      | pe pe => exact hmutate pe s
      | cpe i => rfl
  · exact h entryKey ms hlookup m hm intent s

theorem getOrCreateTenantIntentForPE_nodeGenerations (tenantID : String) (locatorPrefix : Prefix)
    (pe : PEIntent) (s : SIDState) :
    (getOrCreateTenantIntentForPE tenantID locatorPrefix pe s).2.db.nodeGenerations =
      s.db.nodeGenerations := by
  unfold getOrCreateTenantIntentForPE
  have hserved := (getOrGenerateSID_served ⟨locatorPrefix, tenantID, .dt46⟩ s).nodeGenerations
  split
  · rfl
  · generalize getOrGenerateSID locatorPrefix tenantID .dt46 s = out at hserved ⊢
    obtain ⟨res, s'⟩ := out
    cases res with
    | error err => exact hserved
    | ok sid => exact hserved

theorem RegistryTx.LeavesGenerations.stageTenant (h : tx.LeavesGenerations)
    (nodeID : NodeID) (tenantID : String) (locatorPrefix : Prefix)
    (change : TenantIntent → TenantIntent) :
    (ControlPlane.stageTenant tx nodeID tenantID locatorPrefix change).LeavesGenerations := by
  refine h.mutatePE nodeID ?_
  intro pe s
  have htenant := getOrCreateTenantIntentForPE_nodeGenerations tenantID locatorPrefix pe s
  generalize getOrCreateTenantIntentForPE tenantID locatorPrefix pe s = out at htenant ⊢
  obtain ⟨res, s'⟩ := out
  cases res with
  | error err => exact htenant
  | ok t => exact htenant

theorem RegistryTx.LeavesGenerations.stage (h : tx.LeavesGenerations)
    (c : Change) : (c.stage tx).LeavesGenerations := by
  cases c with
  | sidSegs tenantID localNodeID locatorPrefix paths => exact h.stageTenant _ _ _ _
  | portal nodeID tenantID portalID intent locatorPrefix => exact h.stageTenant _ _ _ _
  | trafficClassMapping nodeID mapping => exact h.mutatePE nodeID fun pe s => rfl
  | peers nodeID => exact h.mutatePE nodeID fun pe s => rfl

theorem stageAll_leavesGenerations (changes : List Change) :
    (stageAll changes).LeavesGenerations := by
  induction changes using List.reverseRecOn with
  | nil => exact beginTx_leavesGenerations
  | append_singleton changes c ih =>
    rw [stageAll, List.foldl_append]
    exact ih.stage c

end Staging

section Locked

def Named (m : GoMap String NodeIntent) : Prop := ∀ id ni, m.lookup id = some ni → ni.id = id

/-- What a locked section leaves: no generation is recorded, no entry is lost, and every entry
keeps its type and its version. -/
structure Moved (r r' : ServiceRegistry) : Prop where
  generations : r'.db.nodeGenerations = r.db.nodeGenerations
  entry : ∀ id ni, r.registry.lookup id = some ni → ∃ ni', r'.registry.lookup id = some ni' ∧
    ni'.nodeType = ni.nodeType ∧ ni'.version = ni.version
  named : Named r.registry → Named r'.registry

theorem Moved.refl (r : ServiceRegistry) : Moved r r :=
  ⟨rfl, fun _ ni h => ⟨ni, h, rfl, rfl⟩, fun h => h⟩

variable {r : ServiceRegistry} {id : String} {ni : NodeIntent}

theorem Moved.trans {r' r'' : ServiceRegistry} (h : Moved r r') (h' : Moved r' r'') :
    Moved r r'' := by
  refine ⟨h'.generations.trans h.generations, ?_, fun hr => h'.named (h.named hr)⟩
  intro id ni hni
  obtain ⟨ni', hni', htype, hversion⟩ := h.entry id ni hni
  obtain ⟨ni'', hni'', htype', hversion'⟩ := h'.entry id ni' hni'
  exact ⟨ni'', hni'', htype'.trans htype, hversion'.trans hversion⟩

theorem Named.insert {m : GoMap String NodeIntent} (h : Named m)
    (hid : ni.id = id) : Named (m.insert id ni) := by
  intro id' ni' hni'
  rw [lookup_insert_eq] at hni'
  split_ifs at hni' with heq
  · cases hni'
    rw [hid, heq]
  · exact h id' ni' hni'

theorem getOrCreateRegistryEntry_id (h : Named r.registry)
    (nodeType : NodeType) (id : String) (now : ℤ) :
    (getOrCreateRegistryEntry r nodeType id now).id = id := by
  cases hlookup : r.registry.lookup id with
  | some old => rw [getOrCreateRegistryEntry_of_lookup hlookup, h id old hlookup]
  | none =>
    unfold getOrCreateRegistryEntry
    rw [hlookup]
    cases nodeType <;> rfl

theorem Moved.of_insert {r' : ServiceRegistry} {nodeType : NodeType} {now : ℤ}
    (hregistry : r'.registry = r.registry.insert id ni)
    (hgenerations : r'.db.nodeGenerations = r.db.nodeGenerations)
    (hid : ni.id = (getOrCreateRegistryEntry r nodeType id now).id)
    (htype : ni.nodeType = (getOrCreateRegistryEntry r nodeType id now).nodeType)
    (hversion : ni.version = (getOrCreateRegistryEntry r nodeType id now).version) :
    Moved r r' := by
  refine ⟨hgenerations, ?_, ?_⟩
  · intro id' old hold
    rw [hregistry, lookup_insert_eq]
    split_ifs with heq
    · subst heq
      rw [getOrCreateRegistryEntry_of_lookup hold] at htype hversion
      exact ⟨ni, rfl, htype, hversion⟩
    · exact ⟨old, hold, rfl, rfl⟩
  · intro hnamed
    rw [hregistry]
    exact hnamed.insert (hid.trans (getOrCreateRegistryEntry_id hnamed _ _ _))

theorem foldl_mutateRound_nodeGenerations {ms : List PendingMutation}
    (h : ∀ m ∈ ms, ∀ intent s, (m.mutate intent s).2.2.db.nodeGenerations = s.db.nodeGenerations)
    (acc : List String × Intent × SIDState) :
    (ms.foldl mutateRound acc).2.2.db.nodeGenerations = acc.2.2.db.nodeGenerations := by
  induction ms generalizing acc with
  | nil => rfl
  | cons m ms ih =>
    rw [List.foldl_cons, ih fun m' hm' => h m' (List.mem_cons_of_mem m hm')]
    exact h m List.mem_cons_self acc.2.1 acc.2.2

theorem commitRound_moved (now : ℤ) (st : CommitState) {e : String × List PendingMutation}
    (h : ∀ m ∈ e.2, ∀ intent s,
      (m.mutate intent s).2.2.db.nodeGenerations = s.db.nodeGenerations) :
    Moved st.r (commitRound now st e).r := by
  obtain ⟨id, ms⟩ := e
  cases ms with
  | nil => exact Moved.refl st.r
  | cons m ms =>
    exact Moved.of_insert rfl (foldl_mutateRound_nodeGenerations h _) rfl rfl rfl

theorem foldl_commitRound_moved (now : ℤ) {l : List (String × List PendingMutation)}
    (h : ∀ e ∈ l, ∀ m ∈ e.2, ∀ intent s,
      (m.mutate intent s).2.2.db.nodeGenerations = s.db.nodeGenerations) (st : CommitState) :
    Moved st.r (l.foldl (commitRound now) st).r := by
  induction l generalizing st with
  | nil => exact Moved.refl st.r
  | cons e l ih =>
    exact (commitRound_moved now st (h e List.mem_cons_self)).trans
      (ih (fun e' he' => h e' (List.mem_cons_of_mem e he')) _)

def Call.LeavesGenerations : Call → Prop
  | .commit tx _ _ => tx.LeavesGenerations
  | .upsertCPEIntentForSite _ _ _ => True

theorem Call.locked_moved {call : Call} (h : call.LeavesGenerations) (r : ServiceRegistry) :
    Moved r (call.locked r).2 := by
  cases call with
  | commit tx ords now =>
    have hpending : ∀ e ∈ tx.pending.range ords.pending, ∀ m ∈ e.2, ∀ intent s,
        (m.mutate intent s).2.2.db.nodeGenerations = s.db.nodeGenerations := by
      rintro ⟨id, ms⟩ he
      exact h id ms ((mem_range _ _ _ _).mp he)
    exact foldl_commitRound_moved now hpending { r, snapshots := ∅, collectedErrors := [] }
  | upsertCPEIntentForSite portalID cpe now => exact Moved.of_insert rfl rfl rfl rfl rfl

theorem Call.locked_current (call : Call) (hfit : call.CountersFit r) :
    ∀ e ∈ (call.locked r).1, ∃ t id, e.1 = publishTargetKey t id ∧
      (call.locked r).2.registry.lookup id = some e.2 := by
  intro e he
  cases call with
  | commit tx ords now =>
    obtain ⟨id, hlookup, hkey, -⟩ := (taken_commitLocked hfit).entry e he
    exact ⟨_, id, hkey, hlookup⟩
  | upsertCPEIntentForSite portalID cpe now =>
    rw [List.mem_singleton.mp he]
    exact ⟨.cpe, portalID, rfl, lookup_insert _⟩

theorem Call.locked_generation (call : Call) (hfit : call.CountersFit r)
    {ni' : NodeIntent} (hni : r.registry.lookup id = some ni)
    (hni' : (call.locked r).2.registry.lookup id = some ni') : ni.generation ≤ ni'.generation := by
  cases call with
  | commit tx ords now =>
    have htaken := taken_commitLocked hfit
    rcases htaken.kept id ni hni with hsame | ⟨snap, hlookup, hsnap⟩
    · rw [Call.locked, hsame] at hni'
      cases hni'
      exact UInt32.le_refl _
    · rw [Call.locked, hlookup] at hni'
      cases hni'
      obtain ⟨id', -, hkey, hgeneration⟩ := htaken.entry _ hsnap
      obtain ⟨-, rfl⟩ := publishTargetKey_injective hkey
      exact UInt32.le_of_lt (hgeneration ni hni).2
  | upsertCPEIntentForSite portalID cpe now =>
    rw [Call.locked, upsertCPELocked] at hni'
    dsimp only at hni'
    rw [lookup_insert_eq] at hni'
    split_ifs at hni' with hid
    · cases hni'
      rw [hid] at hni
      dsimp only
      rw [getOrCreateRegistryEntry_of_lookup hni]
      exact UInt32.le_of_lt (lt_add_one_of_fits (hfit portalID List.mem_cons_self ni hni))
    · rw [hni] at hni'
      cases hni'
      exact UInt32.le_refl _

end Locked

section Invariant

/-- The values under one key have rising versions and, within a version, rising generations. The
last put comes first. -/
def Forward (puts : List (String × NodeIntent)) : Prop :=
  puts.Pairwise fun later earlier => later.1 = earlier.1 → earlier.2.stamp ≤ later.2.stamp

instance (puts : List (String × NodeIntent)) : Decidable (Forward puts) :=
  inferInstanceAs (Decidable (puts.Pairwise _))

structure Behind (generations : GoMap (NodeType × String) NodeGeneration)
    (puts : List (String × NodeIntent)) : Prop where
  forward : Forward puts
  recorded : ∀ e ∈ puts, ∀ t id, e.1 = publishTargetKey t id →
    ∃ t' g, generations.lookup (t', id) = some g ∧ e.2.stamp ≤ toLex (g.version.toNat + 1, 0)
  oneType : ∀ t t' id g g', generations.lookup (t, id) = some g →
    generations.lookup (t', id) = some g' → t = t'
  nonneg : ∀ k g, generations.lookup k = some g → 0 ≤ g.version

structure Ahead (registry : GoMap String NodeIntent)
    (generations : GoMap (NodeType × String) NodeGeneration)
    (puts : List (String × NodeIntent)) : Prop extends Behind generations puts where
  named : Named registry
  current : ∀ e ∈ puts, ∀ t id ni, e.1 = publishTargetKey t id →
    registry.lookup id = some ni → e.2.stamp ≤ ni.stamp
  entry : ∀ t id g, generations.lookup (t, id) = some g →
    ∃ ni, registry.lookup id = some ni ∧ ni.nodeType = t ∧ g.version ≤ ni.version.toNat ∧
      (ni.version.toNat : ℤ) ≤ g.version + 1

variable {registry registry' : GoMap String NodeIntent}
  {generations : GoMap (NodeType × String) NodeGeneration} {puts : List (String × NodeIntent)}
  {id : String} {ni : NodeIntent}

theorem Ahead.put (h : Ahead registry generations puts) {t t' : NodeType}
    {g : NodeGeneration} (hni : registry.lookup id = some ni)
    (hg : generations.lookup (t', id) = some g)
    (hbound : ni.stamp ≤ toLex (g.version.toNat + 1, 0)) :
    Ahead registry generations ((publishTargetKey t id, ni) :: puts) := by
  refine ⟨⟨?_, ?_, h.oneType, h.nonneg⟩, h.named, ?_, h.entry⟩
  · refine List.pairwise_cons.mpr ⟨?_, h.forward⟩
    intro e he hkey
    exact h.current e he t id ni hkey.symm hni
  · refine List.forall_mem_cons.mpr ⟨?_, h.recorded⟩
    intro t₁ id₁ hkey
    obtain ⟨-, rfl⟩ := publishTargetKey_injective hkey
    exact ⟨t', g, hg, hbound⟩
  · refine List.forall_mem_cons.mpr ⟨?_, h.current⟩
    intro t₁ id₁ ni₁ hkey hni₁
    obtain ⟨-, rfl⟩ := publishTargetKey_injective hkey
    rw [hni] at hni₁
    cases hni₁
    exact le_rfl

theorem stamp_le_iff (ni : NodeIntent) (v g : ℕ) :
    ni.stamp ≤ toLex (v, g) ↔
      ni.version.toNat < v ∨ ni.version.toNat = v ∧ ni.generation.toNat ≤ g :=
  Prod.Lex.toLex_le_toLex

/-- The record of a node is of its type and of no later version. -/
theorem Ahead.of_lookup (h : Ahead registry generations puts)
    (hni : registry.lookup id = some ni) {t : NodeType} {g : NodeGeneration}
    (hg : generations.lookup (t, id) = some g) :
    ni.nodeType = t ∧ g.version ≤ ni.version.toNat := by
  obtain ⟨ni', hni', htype, hversion, -⟩ := h.entry t id g hg
  rw [hni] at hni'
  cases hni'
  exact ⟨htype, hversion⟩

theorem Ahead.record (h : Ahead registry generations puts)
    (hni : registry.lookup id = some ni) (generation : ℤ) :
    Ahead registry
      (generations.insert (ni.nodeType, id) { version := ni.version.toNat, generation }) puts := by
  refine ⟨⟨h.forward, ?_, ?_, ?_⟩, h.named, h.current, ?_⟩
  · intro e he t id' hkey
    obtain ⟨t', g, hg, hbound⟩ := h.recorded e he t id' hkey
    by_cases hid : id' = id
    · subst hid
      obtain ⟨-, hversion⟩ := h.of_lookup hni hg
      refine ⟨ni.nodeType, _, lookup_insert _, ?_⟩
      rw [stamp_le_iff] at hbound ⊢
      simp only [Int.toNat_natCast]
      omega
    · refine ⟨t', g, (lookup_insert_ne ?_).trans hg, hbound⟩
      exact fun heq => hid (Prod.mk.inj heq).2
  · intro t t' id' g g' hg hg'
    rw [lookup_insert_eq] at hg hg'
    split_ifs at hg hg' with hk hk' hk'
    · exact (Prod.mk.inj hk).1.trans (Prod.mk.inj hk').1.symm
    · obtain ⟨htype, rfl⟩ := Prod.mk.inj hk
      exact htype.trans (h.of_lookup hni hg').1
    · obtain ⟨htype, rfl⟩ := Prod.mk.inj hk'
      exact ((h.of_lookup hni hg).1.symm).trans htype.symm
    · exact h.oneType t t' id' g g' hg hg'
  · intro k g hg
    rw [lookup_insert_eq] at hg
    split_ifs at hg
    · cases hg
      exact Int.natCast_nonneg _
    · exact h.nonneg k g hg
  · intro t id' g hg
    rw [lookup_insert_eq] at hg
    split_ifs at hg with hk
    · cases hg
      obtain ⟨htype, hid⟩ := Prod.mk.inj hk
      rw [hid]
      exact ⟨ni, hni, htype.symm, le_rfl, Int.le_add_one le_rfl⟩
    · exact h.entry t id' g hg

theorem Ahead.of_moved {r r' : ServiceRegistry} (h : Ahead r.registry r.db.nodeGenerations puts)
    (hmoved : Moved r r')
    (hgeneration : ∀ id ni ni', r.registry.lookup id = some ni →
      r'.registry.lookup id = some ni' → ni.generation ≤ ni'.generation) :
    Ahead r'.registry r'.db.nodeGenerations puts := by
  rw [hmoved.generations]
  refine ⟨h.toBehind, hmoved.named h.named, ?_, ?_⟩
  · intro e he t id ni' hkey hni'
    -- The node was told something, so it had an entry.
    obtain ⟨t', g, hg, -⟩ := h.recorded e he t id hkey
    obtain ⟨ni, hni, -⟩ := h.entry t' id g hg
    obtain ⟨ni₁, hni₁, -, hversion⟩ := hmoved.entry id ni hni
    rw [hni'] at hni₁
    cases hni₁
    refine (h.current e he t id ni hkey hni).trans ((stamp_le_iff _ _ _).mpr (Or.inr ⟨?_, ?_⟩))
    · rw [hversion]
    · exact UInt32.le_iff_toNat_le.mp (hgeneration id ni ni' hni hni')
  · intro t id g hg
    obtain ⟨ni, hni, htype, hversion, hversion'⟩ := h.entry t id g hg
    obtain ⟨ni', hni', htype', heq⟩ := hmoved.entry id ni hni
    rw [← heq] at hversion hversion'
    exact ⟨ni', hni', htype'.trans htype, hversion, hversion'⟩

theorem of_lookup_loadedRegistry {now : ℤ} {db : Database}
    (h : (loadedRegistry now db).registry.lookup id = some ni) :
    ∃ t g, db.nodeGenerations.lookup (t, id) = some g ∧ ni = loadedEntry now ((t, id), g) := by
  rcases of_lookup_storeEach h with ⟨⟨⟨t, id'⟩, g⟩, hmem, rfl, rfl⟩ | hempty
  · exact ⟨t, g, Database.mem_listNodeGenerations.mp hmem, rfl⟩
  · cases hempty

theorem loadedRegistry_named (now : ℤ) (db : Database) :
    Named (loadedRegistry now db).registry := by
  intro id ni hni
  obtain ⟨t, g, -, rfl⟩ := of_lookup_loadedRegistry hni
  rfl

theorem Behind.loaded {db : Database} (h : Behind db.nodeGenerations puts) (now : ℤ)
    (hfit : ∀ e ∈ db.nodeGenerations.entries, e.2.version + 1 < 2 ^ 32) :
    Ahead (loadedRegistry now db).registry db.nodeGenerations puts := by
  have hversion : ∀ k g, db.nodeGenerations.lookup k = some g →
      ((UInt32.ofInt (g.version + 1)).toNat : ℤ) = g.version + 1 := by
    intro k g hg
    have hnonneg := h.nonneg k g hg
    have hlt : g.version + 1 < 2 ^ 32 := hfit ⟨k, g⟩ (mem_lookup_iff.mp hg)
    rw [UInt32.ofInt, UInt32.toNat_ofNat']
    omega
  refine ⟨h, loadedRegistry_named now db, ?_, ?_⟩
  · intro e he t id ni hkey hni
    obtain ⟨t', g, hg, hbound⟩ := h.recorded e he t id hkey
    obtain ⟨t'', g', hg', rfl⟩ := of_lookup_loadedRegistry hni
    obtain rfl := h.oneType t' t'' id g g' hg hg'
    rw [hg] at hg'
    cases hg'
    have hnat := hversion _ g hg
    have hnonneg := h.nonneg _ g hg
    have hstamp : (loadedEntry now ((t', id), g)).stamp = toLex (g.version.toNat + 1, 0) := by
      change toLex ((UInt32.ofInt (g.version + 1)).toNat, 0) = _
      congr 2
      omega
    exact hbound.trans (le_of_eq hstamp.symm)
  · intro t id g hg
    obtain ⟨⟨⟨t', id'⟩, g'⟩, hmem, hid, hlookup⟩ := exists_lookup_storeEach
      (fun g => g.1.2) (loadedEntry now) ∅ (Database.mem_listNodeGenerations.mpr hg)
    obtain rfl : id' = id := hid
    have hg' := Database.mem_listNodeGenerations.mp hmem
    obtain rfl := h.oneType t t' id' g g' hg hg'
    rw [hg] at hg'
    cases hg'
    have hnat := hversion _ g hg
    refine ⟨_, hlookup, rfl, ?_, le_of_eq hnat⟩
    change g.version ≤ ((UInt32.ofInt (g.version + 1)).toNat : ℤ)
    omega

end Invariant

section Runs

def published : List (String × NodeIntent) → Stores → List (String × NodeIntent)
  | [], _ => []
  | e :: rest, st =>
    match st.storeGeneration e.2 with
    | (some _, st) => published rest st
    | (none, st) =>
      match st.publish e.1 e.2 with
      | (some _, st) => published rest st
      | (none, st) => e :: published rest st

def Call.puts (call : Call) (st : Stores) : List (String × NodeIntent) :=
  published (call.locked st.r).1 { st with r := (call.locked st.r).2 }

inductive Action where
  | commit (changes : List Change) (ords : CommitOrders) (now : ℤ)
  | upsertCPEIntentForSite (portalID : String) (cpe : CPEIntent) (now : ℤ)
  | restore (ord : RangeOrder)
  | restart (now : ℤ)

structure History where
  process : Process
  bucket : IntentBucket
  puts : List (String × NodeIntent)

def History.start (outcomes bucketOutcomes : List (Option String)) : History where
  process := .down { Database.empty with outcomes }
  bucket := { IntentBucket.empty with outcomes := bucketOutcomes }
  puts := []

def History.serve (h : History) (call : Call) : History :=
  match h.process with
  | .down _ => h
  | .up r =>
    let st := call.run ⟨r, h.bucket⟩
    { process := .up st.r, bucket := st.bucket,
      puts := (call.puts ⟨r, h.bucket⟩).reverse ++ h.puts }

def History.step (h : History) : Action → History
  | .commit changes ords now => h.serve (.commit (stageAll changes) ords now)
  | .upsertCPEIntentForSite portalID cpe now => h.serve (.upsertCPEIntentForSite portalID cpe now)
  | .restore ord =>
    match h.process with
    | .down _ => h
    | .up r =>
      let (_, st) := ControlPlane.restore ord ⟨r, h.bucket⟩
      { process := .up st.r, bucket := st.bucket,
        puts := (restorePuts ord ⟨r, h.bucket⟩).reverse ++ h.puts }
  | .restart now => { h with process := h.process.restart now }

def Recorded (db : Database) (id : String) (ni : NodeIntent) : Prop :=
  ∃ g ∈ db.nodeGenerations.lookup (ni.nodeType, id),
    g.version = ni.version.toNat ∨ ni.generation = 0

instance (db : Database) (id : String) (ni : NodeIntent) : Decidable (Recorded db id ni) :=
  inferInstanceAs (Decidable (∃ g ∈ _, _))

def Restorable (r : ServiceRegistry) : Prop :=
  ∀ e ∈ r.registry.entries, innerID e.2.intent = e.1 ∧ Recorded r.db e.1 e.2

instance (r : ServiceRegistry) : Decidable (Restorable r) :=
  inferInstanceAs (Decidable (∀ e ∈ r.registry.entries, _))

def Process.IfUp (P : ServiceRegistry → Prop) : Process → Prop
  | .down _ => True
  | .up r => P r

instance (P : ServiceRegistry → Prop) [DecidablePred P] :
    ∀ p : Process, Decidable (p.IfUp P)
  | .down _ => isTrue trivial
  | .up r => inferInstanceAs (Decidable (P r))

/-- What a step needs: an entry that is published again carries its own id and is recorded, and
no counter is at its last value. -/
def History.Allowed (h : History) : Action → Prop
  | .commit changes ords now =>
    h.process.IfUp (Call.commit (stageAll changes) ords now).CountersFit
  | .upsertCPEIntentForSite portalID cpe now =>
    h.process.IfUp (Call.upsertCPEIntentForSite portalID cpe now).CountersFit
  | .restore _ => h.process.IfUp Restorable
  | .restart _ => ∀ e ∈ h.process.db.nodeGenerations.entries, e.2.version + 1 < 2 ^ 32

instance (h : History) : ∀ a, Decidable (h.Allowed a)
  | .commit _ _ _ => inferInstanceAs (Decidable (h.process.IfUp _))
  | .upsertCPEIntentForSite _ _ _ => inferInstanceAs (Decidable (h.process.IfUp _))
  | .restore _ => inferInstanceAs (Decidable (h.process.IfUp Restorable))
  | .restart _ => inferInstanceAs (Decidable (∀ e ∈ h.process.db.nodeGenerations.entries, _))

def History.OnTrack (h : History) : Prop :=
  match h.process with
  | .down db => Behind db.nodeGenerations h.puts
  | .up r => Ahead r.registry r.db.nodeGenerations h.puts

theorem Stores.storeGeneration_cases (st : Stores) (snapshot : NodeIntent) :
    ∃ outcomes,
      (∃ err, st.storeGeneration snapshot =
        (some err, { st with r := { st.r with db := { st.r.db with outcomes } } })) ∨
      st.storeGeneration snapshot =
        (none, { st with r := { st.r with db :=
          { st.r.db with
            outcomes
            nodeGenerations := st.r.db.nodeGenerations.insert (snapshot.nodeType, snapshot.id)
              { version := snapshot.version.toNat
                generation := snapshot.generation.toNat } } } }) := by
  obtain ⟨outcomes, ⟨err, hcall⟩ | hcall⟩ := st.r.db.call_cases
  · refine ⟨outcomes, Or.inl ⟨err, ?_⟩⟩
    simp only [Stores.storeGeneration, Database.upsertNodeGeneration, hcall]
  · refine ⟨outcomes, Or.inr ?_⟩
    simp only [Stores.storeGeneration, Database.upsertNodeGeneration, hcall]

theorem foldl_publishRound_values (rest : List (String × NodeIntent)) (acc : List String × Stores) :
    (rest.foldl publishRound acc).2.bucket.values =
      GoMap.storeEach Prod.fst Prod.snd (published rest acc.2) acc.2.bucket.values := by
  induction rest generalizing acc with
  | nil => rfl
  | cons e rest ih =>
    obtain ⟨errs, st⟩ := acc
    rw [List.foldl_cons, ih]
    obtain ⟨outcomes, ⟨err, hstore⟩ | hstore⟩ := st.storeGeneration_cases e.2
    · simp only [publishRound, published, hstore]
    · obtain ⟨outcomes', ⟨err, hpublish⟩ | hpublish⟩ :=
        (st.storeGeneration e.2).2.publish_cases e.1 e.2
      · rw [hstore] at hpublish
        simp only [publishRound, published, hstore, hpublish]
      · rw [hstore] at hpublish
        simp only [publishRound, published, hstore, hpublish]
        rfl

theorem Call.run_values (call : Call) (st : Stores) :
    (call.run st).bucket.values =
      GoMap.storeEach Prod.fst Prod.snd (call.puts st) st.bucket.values := by
  obtain ⟨errs, hrun⟩ := call.run_eq st
  rw [hrun, foldl_publishRound_values]
  rfl

variable {puts : List (String × NodeIntent)}

theorem ahead_published (rest : List (String × NodeIntent)) {acc : List String × Stores}
    (h : Ahead acc.2.r.registry acc.2.r.db.nodeGenerations puts)
    (hrest : ∀ e ∈ rest, ∃ t id, e.1 = publishTargetKey t id ∧
      acc.2.r.registry.lookup id = some e.2) :
    Ahead (rest.foldl publishRound acc).2.r.registry
      (rest.foldl publishRound acc).2.r.db.nodeGenerations
      ((published rest acc.2).reverse ++ puts) := by
  induction rest generalizing acc puts with
  | nil => exact h
  | cons e rest ih =>
    obtain ⟨errs, st⟩ := acc
    obtain ⟨k, snapshot⟩ := e
    obtain ⟨⟨t, id, hkey, hlookup⟩, htail⟩ := List.forall_mem_cons.mp hrest
    obtain rfl : k = publishTargetKey t id := hkey
    rw [List.foldl_cons]
    obtain ⟨outcomes, ⟨err, hstore⟩ | hstore⟩ := st.storeGeneration_cases snapshot
    · simp only [publishRound, published, hstore]
      exact ih h htail
    · have hrecord := h.record hlookup snapshot.generation.toNat
      obtain ⟨outcomes', ⟨err, hpublish⟩ | hpublish⟩ :=
        (st.storeGeneration snapshot).2.publish_cases (publishTargetKey t id) snapshot
      · rw [hstore, h.named id snapshot hlookup] at hpublish
        rw [h.named id snapshot hlookup] at hstore
        simp only [publishRound, published, hstore, hpublish]
        exact ih hrecord htail
      · rw [hstore, h.named id snapshot hlookup] at hpublish
        rw [h.named id snapshot hlookup] at hstore
        simp only [publishRound, published, hstore, hpublish, List.reverse_cons,
          List.append_assoc, List.singleton_append]
        have hbound : snapshot.stamp ≤ toLex ((snapshot.version.toNat : ℤ).toNat + 1, 0) :=
          (stamp_le_iff _ _ _).mpr (Or.inl (by simp))
        exact ih (hrecord.put hlookup (lookup_insert _) hbound) htail

theorem Ahead.call {r : ServiceRegistry}
    (h : Ahead r.registry r.db.nodeGenerations puts) {call : Call} (hfit : call.CountersFit r)
    (hcall : call.LeavesGenerations) (bucket : IntentBucket) :
    Ahead (call.run ⟨r, bucket⟩).r.registry (call.run ⟨r, bucket⟩).r.db.nodeGenerations
      ((call.puts ⟨r, bucket⟩).reverse ++ puts) := by
  obtain ⟨errs, hrun⟩ := call.run_eq ⟨r, bucket⟩
  rw [hrun]
  have hlocked := h.of_moved (call.locked_moved hcall r)
    fun _ _ _ hni hni' => call.locked_generation hfit hni hni'
  exact ahead_published (call.locked r).1 hlocked (call.locked_current hfit)

theorem ahead_republished (intents : List NodeIntent) {st : Stores}
    (h : Ahead st.r.registry st.r.db.nodeGenerations puts)
    (hintents : ∀ ni ∈ intents, ∃ id, st.r.registry.lookup id = some ni ∧
      innerID ni.intent = id ∧ Recorded st.r.db id ni) :
    Ahead (republish intents st).2.r.registry (republish intents st).2.r.db.nodeGenerations
      ((republished intents st).reverse ++ puts) := by
  induction intents generalizing st puts with
  | nil => exact h
  | cons ni intents ih =>
    obtain ⟨⟨id, hlookup, hinner, g, hg, hrecorded⟩, hintents⟩ := List.forall_mem_cons.mp hintents
    obtain ⟨outcomes, ⟨err, hpublish⟩ | hpublish⟩ := st.publish_cases (restoreKey ni) ni
    · simp only [republish, republished, hpublish]
      exact h
    · simp only [republish, republished, hpublish, List.reverse_cons, List.append_assoc,
        List.singleton_append]
      refine ih ?_ hintents
      rw [restoreKey_eq, hinner]
      refine h.put hlookup hg ((stamp_le_iff _ _ _).mpr ?_)
      rcases hrecorded with hversion | hgeneration
      · rw [hversion]
        exact Or.inl (by simp)
      · obtain ⟨ni', hni', -, -, hversion⟩ := h.entry _ id g hg
        rw [hlookup] at hni'
        cases hni'
        have hzero : ni.generation.toNat = 0 := by
          rw [hgeneration]
          rfl
        omega

theorem History.OnTrack.step {h : History} (hh : h.OnTrack) {a : Action} (ha : h.Allowed a) :
    (h.step a).OnTrack := by
  obtain ⟨process, bucket, puts⟩ := h
  cases a with
  | commit changes ords now =>
    cases process with
    | down db => exact hh
    | up r => exact Ahead.call hh ha (stageAll_leavesGenerations changes) bucket
  | upsertCPEIntentForSite portalID cpe now =>
    cases process with
    | down db => exact hh
    | up r => exact Ahead.call hh ha trivial bucket
  | restart now =>
    have hbehind : Behind process.db.nodeGenerations puts := by
      cases process with
      | down db => exact hh
      | up r => exact Ahead.toBehind hh
    obtain ⟨outcomes, hdown | hup⟩ := process.restart_cases now
    · rw [History.step, hdown]
      exact hbehind
    · rw [History.step, hup]
      exact (show Behind { process.db with outcomes }.nodeGenerations puts from hbehind).loaded
        now ha
  | restore ord =>
    cases process with
    | down db => exact hh
    | up r =>
      obtain ⟨err, bucket', hensure⟩ := Stores.ensure_cases ⟨r, bucket⟩
      cases err with
      | some err =>
        simp only [History.step, ControlPlane.restore, restorePuts, hensure]
        exact hh
      | none =>
        simp only [History.step, ControlPlane.restore, restorePuts, hensure]
        refine ahead_republished _ hh ?_
        intro ni hni
        obtain ⟨⟨id, ni'⟩, hmem, rfl⟩ := List.mem_map.mp hni
        have hlookup := (mem_range _ _ _ _).mp hmem
        exact ⟨id, hlookup, ha ⟨id, ni'⟩ (mem_lookup_iff.mp hlookup)⟩

theorem History.step_values {h : History}
    (hh : h.bucket.values = GoMap.storeEach Prod.fst Prod.snd h.puts.reverse ∅) (a : Action) :
    (h.step a).bucket.values =
      GoMap.storeEach Prod.fst Prod.snd (h.step a).puts.reverse ∅ := by
  obtain ⟨process, bucket, puts⟩ := h
  cases process with
  | down db =>
    cases a with
    | _ => exact hh
  | up r =>
    have hserve : ∀ call : Call, (History.serve ⟨.up r, bucket, puts⟩ call).bucket.values =
        GoMap.storeEach Prod.fst Prod.snd
          (History.serve ⟨.up r, bucket, puts⟩ call).puts.reverse ∅ := by
      intro call
      simp only [History.serve, List.reverse_append, List.reverse_reverse,
        storeEach_append, Call.run_values, ← hh]
    cases a with
    | commit changes ords now => exact hserve _
    | upsertCPEIntentForSite portalID cpe now => exact hserve _
    | restart now => exact hh
    | restore ord =>
      simp only [History.step, List.reverse_append, List.reverse_reverse,
        storeEach_append, restore_values, ← hh]

theorem History.OnTrack.start (outcomes bucketOutcomes : List (Option String)) :
    (History.start outcomes bucketOutcomes).OnTrack := by
  refine ⟨List.Pairwise.nil, ?_, ?_, ?_⟩
  · intro e he
    cases he
  · intro t t' id g g' hg
    cases hg
  · intro k g hg
    cases hg

/-- The bucket has the last value that was put under each key. -/
theorem run_values (outcomes bucketOutcomes : List (Option String)) (actions : List Action) :
    (actions.foldl History.step (.start outcomes bucketOutcomes)).bucket.values =
      GoMap.storeEach Prod.fst Prod.snd
        (actions.foldl History.step (.start outcomes bucketOutcomes)).puts.reverse ∅ := by
  induction actions using List.reverseRecOn with
  | nil => rfl
  | append_singleton actions a ih =>
    rw [List.foldl_append]
    generalize actions.foldl History.step (.start outcomes bucketOutcomes) = s at ih ⊢
    exact History.step_values ih a

/-- In every run whose steps meet the condition, the pairs that are published for a node only
move forward. -/
theorem run_forward (outcomes bucketOutcomes : List (Option String)) (actions : List Action)
    (h : Run.EachStep History.step History.Allowed (.start outcomes bucketOutcomes) actions) :
    Forward (actions.foldl History.step (.start outcomes bucketOutcomes)).puts := by
  have hontrack := h.foldl_induction (fun _ _ hh ha => hh.step ha)
    (History.OnTrack.start outcomes bucketOutcomes)
  generalize actions.foldl History.step (.start outcomes bucketOutcomes) = s at hontrack ⊢
  obtain ⟨process, bucket, puts⟩ := s
  cases process with
  | down db => exact Behind.forward hontrack
  | up r => exact hontrack.toBehind.forward

def touchPE1 : Action := .commit [.trafficClassMapping "pe1" []] ⟨.listed, .listed⟩ 0

/-- A change is recorded and published, and published again after a restart. -/
theorem forward_recorded :
    Forward ([.restart 0, touchPE1, .restore .listed, .restart 1, .restore .listed].foldl
      History.step (.start [] [])).puts :=
  run_forward [] [] _ (by decide +kernel)

/-- A change that is not recorded is published by `Restore`, and lost in a crash. -/
theorem restored_then_lost :
    ¬ Forward ([.restart 0, touchPE1, .restart 1, touchPE1, .restore .listed, .restart 2,
      .restore .listed].foldl History.step
        (.start (List.replicate 7 none ++ [some "connection refused"]) [])).puts := by
  decide +kernel

end Runs

end Maeto.ControlPlane
