import Maeto.ControlPlane.Service.Sids

/-!
# The service registry

The registry holds the intent of every node. A transaction collects mutations by node;
its commit applies them under the lock, moves the generation of every node it touches
by one and takes a snapshot of each, and after the lock is released stores the
generations and puts the snapshots into the intent bucket. The intent of a customer edge
is replaced in the same two parts.

A mutation changes the intent in place and may fail after it has changed it, so it
returns its error beside the intent. It may allocate a SID.
-/

namespace Maeto.ControlPlane

open Foundation Netip Nodesync

structure ServiceRegistry extends SIDState where
  registry : GoMap String NodeIntent

def newServiceRegistry (db : Database) (sidCursor : UInt16) : ServiceRegistry where
  sidAllocationMap := ∅
  sidTenantMap := ∅
  sidCursor
  db
  registry := ∅

section Entries

def newRegistryEntryForPE (nodeID : String) (now : ℤ) : NodeIntent where
  id := nodeID
  nodeType := .pe
  intent := .pe { nodeID, tenants := ∅, trafficClassIntent := [] }
  timestamp := now
  generation := 1
  version := 1

def newRegistryEntryForCPE (portalID : String) (now : ℤ) : NodeIntent where
  id := portalID
  nodeType := .cpe
  intent := .cpe
    { portalID, tunnelInterfaceID := 0, tunnelPE := "", tunnelPEEndpointAddr := .invalid,
      tenantID := "", tenantPrefix := .invalid, sitePrefix := .invalid }
  timestamp := now
  generation := 0
  version := 1

def getOrCreateRegistryEntry (r : ServiceRegistry) (nodeType : NodeType) (id : String) (now : ℤ) :
    NodeIntent :=
  (r.registry.lookup id).getD
    (match nodeType with
    | .pe => newRegistryEntryForPE id now
    | .cpe => newRegistryEntryForCPE id now)

theorem getOrCreateRegistryEntry_of_lookup {r : ServiceRegistry} {id : String} {ni : NodeIntent}
    (h : r.registry.lookup id = some ni) (nodeType : NodeType) (now : ℤ) :
    getOrCreateRegistryEntry r nodeType id now = ni := by
  unfold getOrCreateRegistryEntry
  rw [h, Option.getD_some]

def publishTargetKey (nodeType : NodeType) (id : String) : String :=
  key nodeType.keyPrefix id laneIntent

end Entries

section Transactions

abbrev Mutation := Intent → SIDState → Option String × Intent × SIDState

structure PendingMutation where
  nodeType : NodeType
  entryKey : String
  mutate : Mutation

structure RegistryTx where
  pending : GoMap String (List PendingMutation)
  pending_ne_nil : ∀ entryKey ms, pending.lookup entryKey = some ms → ms ≠ []

def beginTx : RegistryTx where
  pending := ∅
  pending_ne_nil := by
    intro entryKey ms h
    cases h

def pendingPE (nodeID : NodeID)
    (mutate : PEIntent → SIDState → Option String × PEIntent × SIDState) : PendingMutation where
  nodeType := .pe
  entryKey := nodeID
  mutate := fun intent s =>
    match intent with
    | .pe pe =>
      let (err, pe, s) := mutate pe s
      (err, .pe pe, s)
    | .cpe i => (some ("intent for pe " ++ nodeID ++ " is *nodesync.CPEIntent"), .cpe i, s)

def RegistryTx.mutatePE (tx : RegistryTx) (nodeID : NodeID)
    (mutate : PEIntent → SIDState → Option String × PEIntent × SIDState) : RegistryTx where
  pending := tx.pending.insert nodeID (tx.pending.getD nodeID [] ++ [pendingPE nodeID mutate])
  pending_ne_nil := by
    intro entryKey ms h
    rw [GoMap.lookup_insert_eq] at h
    split_ifs at h
    · cases h
      simp
    · exact tx.pending_ne_nil entryKey ms h

def getOrCreateTenantIntentForPE (tenantID : String) (locatorPrefix : Prefix) (pe : PEIntent)
    (s : SIDState) : Except String TenantIntent × SIDState :=
  match pe.tenants.lookup tenantID with
  | some tenantIntent => (.ok tenantIntent, s)
  | none =>
    match getOrGenerateSID locatorPrefix tenantID .dt46 s with
    | (.error err, s) => (.error ("failed to generate random SID: " ++ err), s)
    | (.ok dt46SID, s) => (.ok { TenantIntent.empty with dt46SID }, s)

def stageTenant (tx : RegistryTx) (nodeID : NodeID) (tenantID : String) (locatorPrefix : Prefix)
    (change : TenantIntent → TenantIntent) : RegistryTx :=
  tx.mutatePE nodeID fun pe s =>
    match getOrCreateTenantIntentForPE tenantID locatorPrefix pe s with
    | (.error err, s) =>
      (some ("failed to get or create tenant intent for pe " ++ nodeID ++ ": " ++ err), pe, s)
    | (.ok tenantIntent, s) =>
      (none, { pe with tenants := pe.tenants.insert tenantID (change tenantIntent) }, s)

def stageSIDSegsForTenantOnNode (tx : RegistryTx) (tenantID : String) (localNodeID : NodeID)
    (locatorPrefix : Prefix) (pathsInstallIntents : List PESIDInstallIntent) : RegistryTx :=
  stageTenant tx localNodeID tenantID locatorPrefix fun t =>
    { t with installPaths := pathsInstallIntents }

def stagePortalIntentForNode (tx : RegistryTx) (nodeID : NodeID) (tenantID portalID : String)
    (portal : PEPortalIntent) (locatorPrefix : Prefix) : RegistryTx :=
  stageTenant tx nodeID tenantID locatorPrefix fun t =>
    { t with portalIntents := t.portalIntents.insert portalID portal }

def stageTrafficClassMappingForPE (tx : RegistryTx) (nodeID : NodeID)
    (mapping : List PETrafficClassIntent) : RegistryTx :=
  tx.mutatePE nodeID fun pe s => (none, { pe with trafficClassIntent := mapping }, s)

end Transactions

section Locked

structure CommitState where
  r : ServiceRegistry
  snapshots : GoMap String NodeIntent
  collectedErrors : List String

def mutateRound (st : List String × Intent × SIDState) (m : PendingMutation) :
    List String × Intent × SIDState :=
  let (err, intent, s) := m.mutate st.2.1 st.2.2
  (st.1 ++ err.toList, intent, s)

def commitRound (now : ℤ) (st : CommitState) (e : String × List PendingMutation) : CommitState :=
  match e.2 with
  | [] => st
  | m :: _ =>
    let entry := getOrCreateRegistryEntry st.r m.nodeType e.1 now
    let (errs, intent, s) := e.2.foldl mutateRound ([], entry.intent, st.r.toSIDState)
    let entry := { entry with intent, timestamp := now, generation := entry.generation + 1 }
    { r := { s with registry := st.r.registry.insert e.1 entry }
      snapshots := st.snapshots.insert (publishTargetKey entry.nodeType e.1) entry
      collectedErrors := st.collectedErrors ++ errs }

def commitLocked (tx : RegistryTx) (ord : RangeOrder) (now : ℤ) (r : ServiceRegistry) :
    CommitState :=
  (tx.pending.range ord).foldl (commitRound now) { r, snapshots := ∅, collectedErrors := [] }

def upsertCPELocked (portalID : String) (cpe : CPEIntent) (now : ℤ) (r : ServiceRegistry) :
    NodeIntent × ServiceRegistry :=
  let current := getOrCreateRegistryEntry r .cpe portalID now
  let current :=
    { current with intent := .cpe cpe, generation := current.generation + 1, timestamp := now }
  (current, { r with registry := r.registry.insert portalID current })

end Locked

section Publishing

def Database.upsertNodeGeneration (db : Database) (snapshot : NodeIntent) :
    Option String × Database :=
  match db.call with
  | (some err, db) => (some err, db)
  | (none, db) =>
    (none,
      { db with
        nodeGenerations := db.nodeGenerations.insert (snapshot.nodeType, snapshot.id)
          { version := snapshot.version.toNat, generation := snapshot.generation.toNat } })

structure IntentBucket where
  values : GoMap String NodeIntent
  outcomes : List (Option String)

def IntentBucket.empty : IntentBucket where
  values := ∅
  outcomes := []

def publish (b : IntentBucket) (targetKey : String) (snapshot : NodeIntent) :
    Option String × IntentBucket :=
  match b.outcomes with
  | some err :: outcomes =>
    (some ("failed to publish maeto-intents for " ++ targetKey ++ ": " ++ err), { b with outcomes })
  | none :: outcomes => (none, { values := b.values.insert targetKey snapshot, outcomes })
  | [] => (none, { b with values := b.values.insert targetKey snapshot })

structure Stores where
  r : ServiceRegistry
  bucket : IntentBucket

def Stores.storeGeneration (st : Stores) (snapshot : NodeIntent) : Option String × Stores :=
  let (err, db) := st.r.db.upsertNodeGeneration snapshot
  (err, { st with r := { st.r with db } })

def Stores.publish (st : Stores) (targetKey : String) (snapshot : NodeIntent) :
    Option String × Stores :=
  let (err, bucket) := ControlPlane.publish st.bucket targetKey snapshot
  (err, { st with bucket })

def publishRound (st : List String × Stores) (e : String × NodeIntent) : List String × Stores :=
  match st.2.storeGeneration e.2 with
  | (some _, stores) => (st.1, stores)
  | (none, stores) =>
    let (err, stores) := stores.publish e.1 e.2
    (st.1 ++ err.toList, stores)

structure CommitOrders where
  pending : RangeOrder
  snapshots : RangeOrder

def commit (tx : RegistryTx) (ords : CommitOrders) (now : ℤ) (st : Stores) :
    List String × Stores :=
  let locked := commitLocked tx ords.pending now st.r
  (locked.snapshots.range ords.snapshots).foldl publishRound
    (locked.collectedErrors, { st with r := locked.r })

def upsertCPEIntentForSite (portalID : String) (cpe : CPEIntent) (now : ℤ) (st : Stores) :
    Option String × Stores :=
  let (snapshot, r) := upsertCPELocked portalID cpe now st.r
  match { st with r }.storeGeneration snapshot with
  | (some err, stores) => (some err, stores)
  | (none, stores) =>
    let (err, stores) := stores.publish (publishTargetKey .cpe portalID) snapshot
    (err.map fun err => "failed to publish intent for portalID: " ++ portalID ++ ", err = " ++ err,
      stores)

end Publishing

section Frames

theorem publishRound_registry (st : List String × Stores) (e : String × NodeIntent) :
    (publishRound st e).2.r.registry = st.2.r.registry := by
  have hstored : (st.2.storeGeneration e.2).2.r.registry = st.2.r.registry := rfl
  unfold publishRound
  split
  · rename_i err stores h
    rw [← hstored, h]
  · rename_i stores h
    rw [← hstored, h]
    rfl

theorem foldl_publishRound_registry (l : List (String × NodeIntent)) (st : List String × Stores) :
    (l.foldl publishRound st).2.r.registry = st.2.r.registry := by
  induction l generalizing st with
  | nil => rfl
  | cons e l ih => rw [List.foldl_cons, ih, publishRound_registry]

theorem of_foldl_publishRound_eq_nil {l : List (String × NodeIntent)} {st : List String × Stores}
    (h : (l.foldl publishRound st).1 = []) : st.1 = [] := by
  induction l generalizing st with
  | nil => exact h
  | cons e l ih =>
    have hround := ih h
    unfold publishRound at hround
    split at hround
    · exact hround
    · exact (List.append_eq_nil_iff.mp hround).1

theorem commit_registry (tx : RegistryTx) (ords : CommitOrders) (now : ℤ) (st : Stores) :
    (commit tx ords now st).2.r.registry = (commitLocked tx ords.pending now st.r).r.registry :=
  foldl_publishRound_registry _ _

theorem collectedErrors_of_commit {tx : RegistryTx} {ords : CommitOrders} {now : ℤ} {st : Stores}
    (h : (commit tx ords now st).1 = []) :
    (commitLocked tx ords.pending now st.r).collectedErrors = [] :=
  of_foldl_publishRound_eq_nil h

theorem getOrCreateTenantIntentForPE_eq_ok {tenantID : String} {locatorPrefix : Prefix}
    {pe : PEIntent} {s s' : SIDState} {t : TenantIntent}
    (h : getOrCreateTenantIntentForPE tenantID locatorPrefix pe s = (.ok t, s')) :
    pe.tenants.lookup tenantID = some t ∨
      pe.tenants.lookup tenantID = none ∧ ∃ dt46SID, t = { TenantIntent.empty with dt46SID } := by
  unfold getOrCreateTenantIntentForPE at h
  split at h
  · rename_i t' ht'
    cases h
    exact Or.inl ht'
  · rename_i hnone
    split at h
    · cases h
    · cases h
      exact Or.inr ⟨hnone, _, rfl⟩

theorem commitLocked_mutatePE (nodeID : NodeID)
    (mutate : PEIntent → SIDState → Option String × PEIntent × SIDState) (ord : RangeOrder)
    (now : ℤ) (r : ServiceRegistry) :
    commitLocked (beginTx.mutatePE nodeID mutate) ord now r =
      commitRound now { r, snapshots := ∅, collectedErrors := [] }
        (nodeID, [pendingPE nodeID mutate]) := by
  have hpending : (beginTx.mutatePE nodeID mutate).pending =
      (∅ : GoMap String (List PendingMutation)).insert nodeID [pendingPE nodeID mutate] := rfl
  rw [commitLocked, hpending, GoMap.range_insert_empty, List.foldl_cons, List.foldl_nil]

theorem commit_stageTenant {nodeID : NodeID} {tenantID : String} {locatorPrefix : Prefix}
    {change : TenantIntent → TenantIntent} {ords : CommitOrders} {now : ℤ} {st : Stores}
    (h : (commit (stageTenant beginTx nodeID tenantID locatorPrefix change) ords now st).1 = []) :
    ∃ pe t ni, (getOrCreateRegistryEntry st.r .pe nodeID now).intent = .pe pe ∧
      (pe.tenants.lookup tenantID = some t ∨
        pe.tenants.lookup tenantID = none ∧ ∃ dt46SID, t = { TenantIntent.empty with dt46SID }) ∧
      ni.intent = .pe { pe with tenants := pe.tenants.insert tenantID (change t) } ∧
      (commit (stageTenant beginTx nodeID tenantID locatorPrefix change) ords now st).2.r.registry =
        st.r.registry.insert nodeID ni := by
  have herrs := collectedErrors_of_commit h
  rw [commit_registry]
  rw [stageTenant, commitLocked_mutatePE] at herrs ⊢
  cases hintent : (getOrCreateRegistryEntry st.r .pe nodeID now).intent with
  | cpe i =>
    simp [commitRound, pendingPE, mutateRound, hintent] at herrs
  | pe pe =>
    cases htenant : getOrCreateTenantIntentForPE tenantID locatorPrefix pe st.r.toSIDState with
    | mk res s =>
      cases res with
      | error err =>
        simp [commitRound, pendingPE, mutateRound, hintent, htenant] at herrs
      | ok t =>
        refine ⟨pe, t, _, rfl, getOrCreateTenantIntentForPE_eq_ok htenant, ?_, rfl⟩
        simp [pendingPE, hintent, htenant]

end Frames

end Maeto.ControlPlane
