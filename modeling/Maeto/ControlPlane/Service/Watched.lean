import Maeto.ControlPlane.Service.Forward
import Maeto.ControlPlane.Service.Tunnels

/-!
# Where `Restore` publishes

Every writer but one publishes an entry under the key of the registry, with the type of the
entry, and that is where the node watches. `Restore` makes the key of the id that the typed
intent carries. It writes every entry where it is watched exactly when every typed intent is
of the type of its entry and carries the id of its entry (`WellLabelled`).

The entries are created by the endpoint for portals, by a tunnel update of a customer or a
provider edge, by a commit and when the registry is loaded. The endpoint for portals leaves
the portal out of the intent.
-/

namespace Maeto.ControlPlane

open Foundation Netip Nodesync GoMap
open Agent (PETunnelUpdateRequest)

section Endpoints

structure PortalAuthEndpointResponse where
  localSwanIdentity : String
  remoteSwanIdentity : String
  attachNode : String
  sitePrefix : String
  attachNodeAddr : String
  deriving DecidableEq

structure CPETunnelUpdateRequest where
  portalID : String
  ifID : UInt32
  deriving DecidableEq

def handlePortalAuth (c : Controller) (portalID : String) (respondErr : Option String) (now : ℤ)
    (r : ServiceRegistry) : Option String × Option PortalAuthEndpointResponse × ServiceRegistry :=
  match c.tenants.siteByPortalID portalID with
  | none => (some "portal identity not found", none, r)
  | some site =>
    match c.inventory.node site.attach with
    | none => (some "attach node not found in inventory", none, r)
    | some attachNode =>
      match attachNode.access with
      | none => (some "attach node has no access side", none, r)
      | some access =>
        match respondErr with
        | some _ => (some "failed to send reply", none, r)
        | none =>
          let response : PortalAuthEndpointResponse :=
            { localSwanIdentity := site.identity
              remoteSwanIdentity := attachNode.name ++ ".maeto.net"
              attachNode := site.attachNode
              sitePrefix := String.ofList site.sitePrefix.text
              attachNodeAddr := access.address.ip.toString }
          match c.tenants.tenant site.tenantID with
          | none => (some "couldn't find tenant before assinging CPEIntent", some response, r)
          | some tenant =>
            match r.registry.lookup portalID with
            | some _ => (none, some response, r)
            | none =>
              let ni : NodeIntent :=
                { id := portalID
                  nodeType := .cpe
                  -- The portal id of the intent is not set.
                  intent := .cpe
                    { portalID := "", tunnelInterfaceID := 0, tunnelPE := site.attachNode,
                      tunnelPEEndpointAddr := access.address.ip,
                      tenantID := String.ofList (Text.decimal site.tenantID),
                      tenantPrefix := tenant.allocation, sitePrefix := site.sitePrefix }
                  timestamp := now
                  generation := 1
                  version := 1 }
              (none, some response, { r with registry := r.registry.insert portalID ni })

def handleCPETunnelUpdate (c : Controller) (req : CPETunnelUpdateRequest) (now : ℤ) (st : Stores) :
    Option (Option String × Stores) :=
  match c.tenants.siteByPortalID req.portalID with
  | none => some (some "portal identity not found", st)
  | some site =>
    match c.tenants.tenant site.tenantID with
    | none => some (some "tenant identity not found", st)
    | some tenant =>
      match c.inventory.node site.attach with
      | none => some (some "attach node not found in inventory", st)
      | some attachNode =>
        match attachNode.access with
        | none => none
        | some access =>
          some (upsertCPEIntentForSite req.portalID
            { portalID := req.portalID
              tunnelInterfaceID := req.ifID
              tunnelPE := site.attachNode
              tunnelPEEndpointAddr := access.address.ip
              tenantID := String.ofList (Text.decimal site.tenantID)
              tenantPrefix := tenant.allocation
              sitePrefix := site.sitePrefix } now st)

end Endpoints

section Runs

inductive RegistryEvent where
  | portalAuth (portalID : String) (respondErr : Option String) (now : ℤ)
  | cpeTunnelUpdate (req : CPETunnelUpdateRequest) (now : ℤ)
  | peTunnelUpdate (req : PETunnelUpdateRequest) (ords : CommitOrders) (now : ℤ)
  | commit (tx : RegistryTx) (ords : CommitOrders) (now : ℤ)
  | restart (now : ℤ)

structure ControllerState where
  process : Process
  bucket : IntentBucket

def ControllerState.start (outcomes bucketOutcomes : List (Option String)) : ControllerState where
  process := .down { Database.empty with outcomes }
  bucket := { IntentBucket.empty with outcomes := bucketOutcomes }

def ControllerState.step (c : Controller) (s : ControllerState) : RegistryEvent → ControllerState
  | .portalAuth portalID respondErr now =>
    match s.process with
    | .down _ => s
    | .up r => { s with process := .up (handlePortalAuth c portalID respondErr now r).2.2 }
  | .cpeTunnelUpdate req now =>
    match s.process with
    | .down _ => s
    | .up r =>
      match handleCPETunnelUpdate c req now ⟨r, s.bucket⟩ with
      | none => { s with process := .down r.db }
      | some (_, st) => { process := .up st.r, bucket := st.bucket }
  | .peTunnelUpdate req ords now =>
    match s.process with
    | .down _ => s
    | .up r =>
      let (_, st) := handlePETunnelUpdate c ords now req ⟨r, s.bucket⟩
      { process := .up st.r, bucket := st.bucket }
  | .commit tx ords now =>
    match s.process with
    | .down _ => s
    | .up r =>
      let (_, st) := ControlPlane.commit tx ords now ⟨r, s.bucket⟩
      { process := .up st.r, bucket := st.bucket }
  | .restart now => { s with process := s.process.restart now }

variable {c : Controller}

theorem foldl_commitRound_named (now : ℤ) (l : List (String × List PendingMutation))
    {st : CommitState} (h : Named st.r.registry) :
    Named (l.foldl (commitRound now) st).r.registry := by
  induction l generalizing st with
  | nil => exact h
  | cons e l ih =>
    obtain ⟨id, ms⟩ := e
    cases ms with
    | nil => exact ih h
    | cons m ms => exact ih (h.insert (getOrCreateRegistryEntry_id h m.nodeType id now))

theorem commit_named {st : Stores} (h : Named st.r.registry) (tx : RegistryTx)
    (ords : CommitOrders) (now : ℤ) : Named (commit tx ords now st).2.r.registry := by
  rw [commit_registry]
  exact foldl_commitRound_named now (tx.pending.range ords.pending) h

theorem upsertCPEIntentForSite_named {st : Stores} (h : Named st.r.registry) (portalID : String)
    (cpe : CPEIntent) (now : ℤ) :
    Named (upsertCPEIntentForSite portalID cpe now st).2.r.registry := by
  obtain ⟨errs, hrun⟩ := Call.run_eq (.upsertCPEIntentForSite portalID cpe now) st
  rw [Call.run] at hrun
  rw [hrun, foldl_publishRound_registry]
  exact h.insert (getOrCreateRegistryEntry_id h .cpe portalID now)

theorem handlePortalAuth_named {r : ServiceRegistry} (h : Named r.registry) (portalID : String)
    (respondErr : Option String) (now : ℤ) :
    Named (handlePortalAuth c portalID respondErr now r).2.2.registry := by
  unfold handlePortalAuth
  split
  · exact h
  · split
    · exact h
    · split
      · exact h
      · split
        · exact h
        · dsimp only
          split
          · exact h
          · split
            · exact h
            · exact h.insert rfl

theorem handlePETunnelUpdate_named {st : Stores} (h : Named st.r.registry) (ords : CommitOrders)
    (now : ℤ) (req : PETunnelUpdateRequest) :
    Named (handlePETunnelUpdate c ords now req st).2.r.registry := by
  unfold handlePETunnelUpdate
  split
  · exact h
  · rename_i a ha
    have hcommit := commit_named h (a.portalTx req) ords now
    split
    · rename_i st' heq
      rw [heq] at hcommit
      exact hcommit
    · rename_i errs st' hne heq
      rw [heq] at hcommit
      exact hcommit

theorem handleCPETunnelUpdate_named {st st' : Stores} {err : Option String}
    (h : Named st.r.registry) {req : CPETunnelUpdateRequest} {now : ℤ}
    (heq : handleCPETunnelUpdate c req now st = some (err, st')) : Named st'.r.registry := by
  unfold handleCPETunnelUpdate at heq
  split at heq
  · cases heq
    exact h
  · split at heq
    · cases heq
      exact h
    · split at heq
      · cases heq
        exact h
      · split at heq
        · cases heq
        · obtain ⟨-, rfl⟩ := Prod.ext_iff.mp (Option.some.inj heq)
          exact upsertCPEIntentForSite_named h _ _ _

theorem ControllerState.step_named {s : ControllerState}
    (h : s.process.IfUp fun r => Named r.registry) (e : RegistryEvent) :
    (s.step c e).process.IfUp fun r => Named r.registry := by
  obtain ⟨process, bucket⟩ := s
  cases e with
  | restart now =>
    obtain ⟨outcomes, hdown | hup⟩ := process.restart_cases now
    · rw [ControllerState.step, hdown]
      trivial
    · rw [ControllerState.step, hup]
      exact loadedRegistry_named now _
  | portalAuth portalID respondErr now =>
    cases process with
    | down db => trivial
    | up r => exact handlePortalAuth_named h portalID respondErr now
  | cpeTunnelUpdate req now =>
    cases process with
    | down db => trivial
    | up r =>
      have hr : Named (Stores.mk r bucket).r.registry := h
      cases hupdate : handleCPETunnelUpdate c req now ⟨r, bucket⟩ with
      | none =>
        simp only [ControllerState.step, hupdate]
        trivial
      | some out =>
        simp only [ControllerState.step, hupdate]
        exact handleCPETunnelUpdate_named hr hupdate
  | peTunnelUpdate req ords now =>
    cases process with
    | down db => trivial
    | up r =>
      have hr : Named (Stores.mk r bucket).r.registry := h
      exact handlePETunnelUpdate_named hr ords now req
  | commit tx ords now =>
    cases process with
    | down db => trivial
    | up r =>
      have hr : Named (Stores.mk r bucket).r.registry := h
      exact commit_named hr tx ords now

theorem run_named (c : Controller) (outcomes bucketOutcomes : List (Option String))
    (events : List RegistryEvent) :
    (events.foldl (ControllerState.step c) (.start outcomes bucketOutcomes)).process.IfUp
      fun r => Named r.registry := by
  induction events using List.reverseRecOn with
  | nil => trivial
  | append_singleton events e ih =>
    rw [List.foldl_append]
    exact ControllerState.step_named ih e

end Runs

section Watched

/-- Every typed intent is of the type of its entry and carries the id of its entry. -/
def WellLabelled (r : ServiceRegistry) : Prop :=
  ∀ id ni, r.registry.lookup id = some ni →
    intentType ni.intent = ni.nodeType ∧ innerID ni.intent = id

instance (r : ServiceRegistry) : Decidable (WellLabelled r) :=
  decidable_of_iff (∀ e ∈ r.registry.entries,
      intentType e.2.intent = e.2.nodeType ∧ innerID e.2.intent = e.1)
    ⟨fun h id ni hni => h ⟨id, ni⟩ (AList.mem_lookup_iff.mp hni),
      fun h e he => h e.1 e.2 (AList.mem_lookup_iff.mpr he)⟩

/-- `Restore` puts every entry under the key at which its node watches, and nothing else. -/
def RestoresWatched (ord : RangeOrder) (st : Stores) : Prop :=
  ∀ k snapshot, (k, snapshot) ∈ restorePuts ord st ↔
    ∃ id, st.r.registry.lookup id = some snapshot ∧ k = publishTargetKey snapshot.nodeType id

def IntentBucket.Available (b : IntentBucket) : Prop := ∀ o ∈ b.outcomes, o = none

variable {st : Stores}

theorem republished_of_available (intents : List NodeIntent) (h : st.bucket.Available) :
    republished intents st = intents.map fun ni => (restoreKey ni, ni) := by
  induction intents generalizing st with
  | nil => rfl
  | cons ni intents ih =>
    obtain ⟨r, ⟨values, outcomes⟩⟩ := st
    cases outcomes with
    | nil => exact congrArg _ (@ih ⟨r, ⟨values.insert (restoreKey ni) ni, []⟩⟩ h)
    | cons o outcomes =>
      obtain ⟨rfl, hrest⟩ := List.forall_mem_cons.mp h
      exact congrArg _ (@ih ⟨r, ⟨values.insert (restoreKey ni) ni, outcomes⟩⟩ hrest)

theorem restorePuts_of_available (ord : RangeOrder) (h : st.bucket.Available) :
    restorePuts ord st =
      (st.r.registry.range ord).map fun e => (restoreKey e.2, e.2) := by
  obtain ⟨r, ⟨values, outcomes⟩⟩ := st
  have hmap : ∀ outcomes', (∀ o ∈ outcomes', o = none) →
      republished ((r.registry.range ord).map Prod.snd) ⟨r, ⟨values, outcomes'⟩⟩ =
        (r.registry.range ord).map fun e => (restoreKey e.2, e.2) := by
    intro outcomes' h'
    have havailable : (Stores.mk r ⟨values, outcomes'⟩).bucket.Available := h'
    rw [republished_of_available _ havailable, List.map_map]
    rfl
  cases outcomes with
  | nil => exact hmap [] h
  | cons o outcomes =>
    obtain ⟨rfl, hrest⟩ := List.forall_mem_cons.mp h
    exact hmap outcomes hrest

theorem restoresWatched_iff {ord : RangeOrder} (hnamed : Named st.r.registry)
    (hok : st.bucket.Available) : RestoresWatched ord st ↔ WellLabelled st.r := by
  have hputs : ∀ k snapshot, (k, snapshot) ∈ restorePuts ord st ↔
      ∃ id, st.r.registry.lookup id = some snapshot ∧ k = restoreKey snapshot := by
    intro k snapshot
    rw [restorePuts_of_available ord hok, List.mem_map]
    constructor
    · rintro ⟨⟨id, ni⟩, hmem, heq⟩
      cases heq
      exact ⟨id, (mem_range _ _ _ _).mp hmem, rfl⟩
    · rintro ⟨id, hlookup, rfl⟩
      exact ⟨(id, snapshot), (mem_range _ _ _ _).mpr hlookup, rfl⟩
  constructor
  · intro hwatched id ni hni
    -- The entry is put somewhere, and it is there on its own account: its id is its name.
    obtain ⟨id', hni', hkey⟩ := (hwatched _ _).mp ((hputs _ _).mpr ⟨id, hni, rfl⟩)
    rw [restoreKey_eq] at hkey
    obtain ⟨htype, hinner⟩ := publishTargetKey_injective hkey
    rw [← hnamed id ni hni, hnamed id' ni hni']
    exact ⟨htype, hinner⟩
  · intro hlabelled k snapshot
    rw [hputs]
    constructor
    · rintro ⟨id, hlookup, rfl⟩
      obtain ⟨htype, hinner⟩ := hlabelled id snapshot hlookup
      exact ⟨id, hlookup, by rw [restoreKey_eq, htype, hinner]⟩
    · rintro ⟨id, hlookup, rfl⟩
      obtain ⟨htype, hinner⟩ := hlabelled id snapshot hlookup
      exact ⟨id, hlookup, by rw [restoreKey_eq, htype, hinner]⟩

/-- In every state that is reached, `Restore` writes every node where it watches exactly when
every intent carries the type and the id of its entry. -/
theorem restore_watched_iff (c : Controller) (outcomes bucketOutcomes : List (Option String))
    (events : List RegistryEvent) {r : ServiceRegistry}
    (hrun : (events.foldl (ControllerState.step c) (.start outcomes bucketOutcomes)).process =
      .up r) (ord : RangeOrder) {bucket : IntentBucket} (hok : bucket.Available) :
    RestoresWatched ord ⟨r, bucket⟩ ↔ WellLabelled r := by
  have hnamed := run_named c outcomes bucketOutcomes events
  rw [hrun] at hnamed
  exact restoresWatched_iff hnamed hok

def accessSites : Controller where
  tenants := twoSites.tenants
  inventory :=
    { byID := (∅ : GoMap NodeID InventoryNode).insert "pe1"
        { id := "pe1", name := "pe1",
          access := some ⟨.prefixFrom (.v6 0xfd010000000000000000000000000001) 64⟩ }
      byID_id := by
        intro id n h
        rw [lookup_insert_eq] at h
        split_ifs at h with hid
        · cases h
          exact hid.symm
        · cases h }
  topology := twoSites.topology

def authenticated : List RegistryEvent := [.restart 0, .portalAuth "a" none 1]

def tunnelled : List RegistryEvent := authenticated ++ [.cpeTunnelUpdate ⟨"a", 7⟩ 2]

def accessRun (events : List RegistryEvent) : ControllerState :=
  events.foldl (ControllerState.step accessSites) (.start [] [])

theorem restore_watched_tunnelled :
    ∃ r, (accessRun tunnelled).process = .up r ∧ RestoresWatched .listed ⟨r, .empty⟩ := by
  have hlabelled : (accessRun tunnelled).process.IfUp WellLabelled := by decide +kernel
  have hup : (accessRun tunnelled).process.isUp := by decide +kernel
  cases hprocess : (accessRun tunnelled).process with
  | down db =>
    rw [hprocess] at hup
    cases hup
  | up r =>
    rw [hprocess] at hlabelled
    refine ⟨r, rfl, ?_⟩
    have hok : IntentBucket.empty.Available := by
      intro o ho
      cases ho
    exact (restore_watched_iff accessSites [] [] tunnelled hprocess .listed hok).mpr hlabelled

/-- The entry of a portal that has authenticated is put under a key without an id. -/
theorem restored_without_id :
    ∃ r, (accessRun authenticated).process = .up r ∧
      ¬ RestoresWatched .listed ⟨r, .empty⟩ := by
  have hkeys : (accessRun authenticated).process.IfUp fun r =>
      (restorePuts .listed ⟨r, .empty⟩).map Prod.fst = ["cpe..intent"] ∧
        (r.registry.lookup "a").isSome := by decide +kernel
  have hup : (accessRun authenticated).process.isUp := by decide +kernel
  cases hprocess : (accessRun authenticated).process with
  | down db =>
    rw [hprocess] at hup
    cases hup
  | up r =>
    rw [hprocess] at hkeys
    obtain ⟨hputs, hsome⟩ := hkeys
    refine ⟨r, rfl, ?_⟩
    intro hwatched
    obtain ⟨ni, hni⟩ := Option.isSome_iff_exists.mp hsome
    have hmem := List.mem_map_of_mem (f := Prod.fst) ((hwatched _ ni).mpr ⟨"a", hni, rfl⟩)
    rw [hputs] at hmem
    have hkey : ∀ t, publishTargetKey t "a" ∉ ["cpe..intent"] := by
      intro t
      cases t <;> decide
    exact hkey ni.nodeType hmem

end Watched

end Maeto.ControlPlane
