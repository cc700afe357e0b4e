import Maeto.ControlPlane.Service.Registry

/-!
# Restarts of the controller

What the registry holds in memory is lost in a crash. The next controller makes a new
registry with the cursor that is stored, and loads the rest from the tables: an entry
without an intent for every node with a recorded generation, in the version after the
recorded one, and the allocated SIDs.

After it has lost the connection to the bucket, the controller restores what is in there:
it publishes every entry again, as it is in memory, and stops at the first that fails.
-/

namespace Maeto.ControlPlane

open Foundation Netip Nodesync

section Load

def Database.listNodeGenerations (db : Database) : List ((NodeType × String) × NodeGeneration) :=
  let rows := db.nodeGenerations.entries.map fun e => (e.1, e.2)
  (rows.filter fun g => g.1.1 = .cpe) ++ rows.filter fun g => g.1.1 = .pe

theorem Database.mem_listNodeGenerations {db : Database} {k : NodeType × String}
    {g : NodeGeneration} :
    (k, g) ∈ db.listNodeGenerations ↔ db.nodeGenerations.lookup k = some g := by
  have hrows : (k, g) ∈ db.nodeGenerations.entries.map (fun e => (e.1, e.2)) ↔
      db.nodeGenerations.lookup k = some g := GoMap.mem_range .listed db.nodeGenerations k g
  rw [listNodeGenerations, List.mem_append, List.mem_filter, List.mem_filter, hrows]
  obtain ⟨nodeType, nodeID⟩ := k
  cases nodeType <;> simp

def loadedEntry (now : ℤ) (g : (NodeType × String) × NodeGeneration) : NodeIntent where
  id := g.1.2
  nodeType := g.1.1
  intent :=
    match g.1.1 with
    | .pe => .pe { nodeID := g.1.2, tenants := ∅, trafficClassIntent := [] }
    | .cpe => .cpe
        { portalID := g.1.2, tunnelInterfaceID := 0, tunnelPE := "",
          tunnelPEEndpointAddr := .invalid, tenantID := "", tenantPrefix := .invalid,
          sitePrefix := .invalid }
  timestamp := now
  generation := 0
  version := UInt32.ofInt (g.2.version + 1)

def SIDAllocation.tenantMapKey (al : SIDAllocation) : String :=
  al.locator.ip.toString ++ "." ++ al.tenantID ++ "." ++ al.sidType

def loadPreviousStateFromDB (now : ℤ) (r : ServiceRegistry) : Option String × ServiceRegistry :=
  match r.db.call with
  | (some err, db) => (some err, { r with db })
  | (none, db) =>
    let generations := db.listNodeGenerations
    match db.call with
    | (some err, db) => (some ("failed to get allocation: " ++ err), { r with db })
    | (none, db) =>
      let allocations := db.sidAllocations
      (none,
        { r with
          db
          registry := GoMap.storeEach (fun g => g.1.2) (loadedEntry now) generations r.registry
          sidAllocationMap :=
            GoMap.storeEach SIDAllocation.sid (fun _ => true) allocations r.sidAllocationMap
          sidTenantMap := GoMap.storeEach SIDAllocation.tenantMapKey SIDAllocation.sid allocations
            r.sidTenantMap })

def newControllerRegistry (now : ℤ) (db : Database) : Except String ServiceRegistry × Database :=
  match db.call with
  | (some err, db) => (.error ("failed to get control state: " ++ err), db)
  | (none, db) =>
    let sidCursor := UInt16.ofInt db.sidCursor
    match loadPreviousStateFromDB now (newServiceRegistry db sidCursor) with
    | (some err, r) => (.error ("failed to load previous service registry state: " ++ err), r.db)
    | (none, r) => (.ok r, r.db)

inductive Process where
  | up (r : ServiceRegistry)
  | down (db : Database)

def Process.db : Process → Database
  | up r => r.db
  | down db => db

def Process.isUp : Process → Bool
  | up _ => true
  | down _ => false

def Process.restart (now : ℤ) (p : Process) : Process :=
  match newControllerRegistry now p.db with
  | (.error _, db) => .down db
  | (.ok r, _) => .up r

def loadedRegistry (now : ℤ) (db : Database) : ServiceRegistry where
  sidAllocationMap := GoMap.storeEach SIDAllocation.sid (fun _ => true) db.sidAllocations ∅
  sidTenantMap :=
    GoMap.storeEach SIDAllocation.tenantMapKey SIDAllocation.sid db.sidAllocations ∅
  sidCursor := UInt16.ofInt db.sidCursor
  db
  registry := GoMap.storeEach (fun g => g.1.2) (loadedEntry now) db.listNodeGenerations ∅

theorem Database.call_cases (db : Database) :
    ∃ outcomes, (∃ err, db.call = (some err, { db with outcomes })) ∨
      db.call = (none, { db with outcomes }) := by
  obtain ⟨sidAllocations, sidCursor, nodeGenerations, outcomes⟩ := db
  cases outcomes with
  | nil => exact ⟨[], Or.inr rfl⟩
  | cons o outcomes =>
    cases o with
    | none => exact ⟨outcomes, Or.inr rfl⟩
    | some err => exact ⟨outcomes, Or.inl ⟨err, rfl⟩⟩

/-- A restart does not change the tables, and a controller that runs after it has loaded
them. -/
theorem Process.restart_cases (now : ℤ) (p : Process) :
    ∃ outcomes, p.restart now = .down { p.db with outcomes } ∨
      p.restart now = .up (loadedRegistry now { p.db with outcomes }) := by
  obtain ⟨o, ⟨err, hstate⟩ | hstate⟩ := p.db.call_cases
  · exact ⟨o, Or.inl (by simp only [restart, newControllerRegistry, hstate])⟩
  · obtain ⟨o, ⟨err, hgenerations⟩ | hgenerations⟩ := { p.db with outcomes := o }.call_cases
    · exact ⟨o, Or.inl (by simp only [restart, newControllerRegistry, hstate,
        loadPreviousStateFromDB, newServiceRegistry, hgenerations])⟩
    · obtain ⟨o, ⟨err, hallocations⟩ | hallocations⟩ := { p.db with outcomes := o }.call_cases
      · exact ⟨o, Or.inl (by simp only [restart, newControllerRegistry, hstate,
          loadPreviousStateFromDB, newServiceRegistry, hgenerations, hallocations])⟩
      · exact ⟨o, Or.inr (by simp only [restart, newControllerRegistry, hstate,
          loadPreviousStateFromDB, newServiceRegistry, hgenerations, hallocations]; rfl)⟩

end Load

section Restore

def innerID : Intent → String
  | .cpe i => i.portalID
  | .pe i => i.nodeID

def restoreKey (ni : NodeIntent) : String :=
  match ni.intent with
  | .cpe i => key NodeType.cpe.keyPrefix i.portalID laneIntent
  | .pe i => key NodeType.pe.keyPrefix i.nodeID laneIntent

def intentType : Intent → NodeType
  | .cpe _ => .cpe
  | .pe _ => .pe

theorem restoreKey_eq (ni : NodeIntent) :
    restoreKey ni = publishTargetKey (intentType ni.intent) (innerID ni.intent) := by
  unfold restoreKey
  cases ni.intent <;> rfl

def Stores.ensure (st : Stores) : Option String × Stores :=
  match st.bucket.outcomes with
  | some err :: outcomes =>
    (some ("failed to create kv bucket maeto-intents: " ++ err),
      { st with bucket := { st.bucket with outcomes } })
  | none :: outcomes => (none, { st with bucket := { st.bucket with outcomes } })
  | [] => (none, st)

theorem Stores.ensure_cases (st : Stores) :
    ∃ err outcomes, st.ensure = (err, { st with bucket := { st.bucket with outcomes } }) := by
  unfold Stores.ensure
  split
  · exact ⟨_, _, rfl⟩
  · exact ⟨_, _, rfl⟩
  · exact ⟨none, st.bucket.outcomes, rfl⟩

def republish : List NodeIntent → Stores → Option String × Stores
  | [], st => (none, st)
  | ni :: intents, st =>
    match st.publish (restoreKey ni) ni with
    | (some err, st) => (some ("republish intent for " ++ innerID ni.intent ++ ": " ++ err), st)
    | (none, st) => republish intents st

def restore (ord : RangeOrder) (st : Stores) : Option String × Stores :=
  match st.ensure with
  | (some err, st) => (some err, st)
  | (none, st) => republish ((st.r.registry.range ord).map Prod.snd) st

def republished : List NodeIntent → Stores → List (String × NodeIntent)
  | [], _ => []
  | ni :: intents, st =>
    match st.publish (restoreKey ni) ni with
    | (some _, _) => []
    | (none, st) => (restoreKey ni, ni) :: republished intents st

def restorePuts (ord : RangeOrder) (st : Stores) : List (String × NodeIntent) :=
  match st.ensure with
  | (some _, _) => []
  | (none, st) => republished ((st.r.registry.range ord).map Prod.snd) st

theorem Stores.publish_cases (st : Stores) (targetKey : String) (snapshot : NodeIntent) :
    ∃ outcomes,
      (∃ err, st.publish targetKey snapshot =
        (some err, { st with bucket := { st.bucket with outcomes } })) ∨
      st.publish targetKey snapshot =
        (none, { st with bucket :=
          { values := st.bucket.values.insert targetKey snapshot, outcomes } }) := by
  obtain ⟨r, ⟨values, outcomes⟩⟩ := st
  cases outcomes with
  | nil => exact ⟨[], Or.inr rfl⟩
  | cons o outcomes =>
    cases o with
    | none => exact ⟨outcomes, Or.inr rfl⟩
    | some err => exact ⟨outcomes, Or.inl ⟨_, rfl⟩⟩

theorem republish_values (intents : List NodeIntent) (st : Stores) :
    (republish intents st).2.bucket.values =
      GoMap.storeEach Prod.fst Prod.snd (republished intents st) st.bucket.values := by
  induction intents generalizing st with
  | nil => rfl
  | cons ni intents ih =>
    obtain ⟨outcomes, ⟨err, hpublish⟩ | hpublish⟩ := st.publish_cases (restoreKey ni) ni
    · simp only [republish, republished, hpublish]
      rfl
    · simp only [republish, republished, hpublish, ih]
      rfl

theorem restore_values (ord : RangeOrder) (st : Stores) :
    (restore ord st).2.bucket.values =
      GoMap.storeEach Prod.fst Prod.snd (restorePuts ord st) st.bucket.values := by
  obtain ⟨err, outcomes, hensure⟩ := st.ensure_cases
  cases err with
  | some err =>
    simp only [restore, restorePuts, hensure]
    rfl
  | none => simp only [restore, restorePuts, hensure, republish_values]

end Restore

end Maeto.ControlPlane
