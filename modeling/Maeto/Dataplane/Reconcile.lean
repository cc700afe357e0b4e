import Mathlib.Logic.Relation
import Maeto.Foundation.Result
import Maeto.Dataplane.Render

/-!
# The reconciler

`Reconcile` drives a dataplane to an intent in at most three passes. A pass reads
the dataplane, renders what it found and what the intent asks for (`Plan`), takes
the resources that only one of the two sides has, by key (`Diff`), and makes one
call for each of them (`Apply`). A call that fails is logged and the next one is
made; only the next pass can tell. `Reconcile` returns without an error when a
pass finds no difference, and only then is the intent remembered.

The maps of a pass are looped over in orders that are part of the input.
-/

namespace Maeto.Dataplane

open Foundation Netip Nodesync GoMap Result

structure Reconciler where
  nodeType : NodeType
  current : Option NodeIntent

structure PassOrders where
  render : RenderOrders
  remove : RangeOrder
  add : RangeOrder

def PassOrders.listed : PassOrders where
  render := .listed
  remove := .listed
  add := .listed

section Plan

variable {σ : Type}

def admitIntent (r : Reconciler) (desired : NodeIntent) : Except String Unit :=
  if desired.nodeType ≠ r.nodeType then
    .error ("intent for node type \"" ++ desired.nodeType.text ++ "\" delivered to a \"" ++
      r.nodeType.text ++ "\"")
  else match r.current with
  | none => .ok ()
  | some current =>
    if desired.version < current.version ∨
        (desired.version = current.version ∧ desired.generation < current.generation) then
      .error ("stale desired intent, current: v" ++ toString current.version ++ " " ++
        toString current.generation ++ ", got: v" ++ toString desired.version ++ " " ++
        toString desired.generation)
    else .ok ()

def asVRF : DataplaneLink → Except String DataplaneVRF
  | .vrf v => .ok v
  | .xfrm _ => .error "failed to parse DataplaneLink as DataplaneVRF"

def asXFRM : DataplaneLink → Except String DataplaneXFRM
  | .vrf _ => .error "failed to parse DataplaneLink as DataplaneXFRM"
  | .xfrm x => .ok x

def couldNotRetrieve (what : String) {α : Type} : Except String α → Except String α :=
  Except.mapError fun err => "dataplane failure: couldn't retrieve " ++ what ++ ": " ++ err

def readFIB (dp : Dataplane σ) (s : σ) : Except String FIB := do
  let rVrfs ← (dp.getLinksByType "vrf" s).mapError fun _ =>
    "dataplane failure: couldn't retrieve vrf links"
  let vrfLinks ← rVrfs.mapM asVRF
  let rXfrms ← (dp.getLinksByType "xfrm" s).mapError fun _ =>
    "dataplane failure: couldn't retrieve xfrm links"
  let xfrmLinks ← rXfrms.mapM asXFRM
  let routes ← couldNotRetrieve "prefix routes" (dp.getPrefixRoutes s)
  let rules ← couldNotRetrieve "rules" (dp.getRules s)
  let sids ← couldNotRetrieve "sids" (dp.getSIDs s)
  let srRoutes ← couldNotRetrieve "sr routes" (dp.getSRRoutes s)
  let classifications ← couldNotRetrieve "classifications" (dp.getClassifications s)
  return { vrfLinks, xfrmLinks, routes, sids, rules, srRoutes, classifications }

def plan (dp : Dataplane σ) (ords : PassOrders) (r : Reconciler) (desired : NodeIntent) (s : σ) :
    Except String (ResourceMap × ResourceMap) := do
  admitIntent r desired
  let fib ← readFIB dp s
  let resources ← (renderIntent ords.render desired.intent).mapError fun err =>
    "failed to render " ++ desired.nodeType.text ++ " intent: " ++ err
  return (renderFIB fib, resources)

end Plan

section Diff

structure DiffResult where
  remove : List Resource
  add : List Resource

def keyDifference (ord : RangeOrder) (m m' : ResourceMap) : List String :=
  ((m.range ord).map Prod.fst).filter fun k => k ∉ m'

def diff (ords : PassOrders) (curr desired : ResourceMap) : DiffResult where
  remove := (keyDifference ords.remove curr desired).filterMap curr.lookup
  add := (keyDifference ords.add desired curr).filterMap desired.lookup

variable {ords : PassOrders} {curr desired : ResourceMap}

theorem mem_filterMap_keyDifference (ord : RangeOrder) (m m' : ResourceMap) (r : Resource) :
    r ∈ (keyDifference ord m m').filterMap m.lookup ↔ ∃ k, m.lookup k = some r ∧ k ∉ m' := by
  simp only [keyDifference, List.mem_filterMap, List.mem_filter, List.mem_map, Prod.exists,
    mem_range, decide_eq_true_eq]
  constructor
  · rintro ⟨k, ⟨-, hk⟩, hr⟩
    exact ⟨k, hr, hk⟩
  · rintro ⟨k, hr, hk⟩
    exact ⟨k, ⟨⟨k, r, hr, rfl⟩, hk⟩, hr⟩

theorem mem_diff_add {r : Resource} :
    r ∈ (diff ords curr desired).add ↔ ∃ k, desired.lookup k = some r ∧ k ∉ curr :=
  mem_filterMap_keyDifference _ _ _ _

theorem mem_diff_remove {r : Resource} :
    r ∈ (diff ords curr desired).remove ↔ ∃ k, curr.lookup k = some r ∧ k ∉ desired :=
  mem_filterMap_keyDifference _ _ _ _

theorem keys_eq_of_diff_nil (hadd : (diff ords curr desired).add = [])
    (hremove : (diff ords curr desired).remove = []) (k : String) : k ∈ curr ↔ k ∈ desired := by
  constructor
  · intro hk
    by_contra hnot
    obtain ⟨r, hr⟩ := mem_iff.mp hk
    exact List.eq_nil_iff_forall_not_mem.mp hremove r (mem_diff_remove.mpr ⟨k, hr, hnot⟩)
  · intro hk
    by_contra hnot
    obtain ⟨r, hr⟩ := mem_iff.mp hk
    exact List.eq_nil_iff_forall_not_mem.mp hadd r (mem_diff_add.mpr ⟨k, hr, hnot⟩)

end Diff

section Apply

variable {σ : Type}

structure Failure where
  message : String
  err : String
  deriving DecidableEq

def removeCall (dp : Dataplane σ) : Resource → String × Call σ
  | .route r => ("failed to remove route", dp.removePrefixRoute r.dst r.table)
  | .xfrm x => ("failed to remove xfrm interface", dp.removeXFRMInterface x.index)
  | .vrf v => ("failed to remove vrf", dp.removeVRF v.index)
  | .rule r => ("failed to remove rule", dp.removeRule r.priority r.src r.table r.mark r.iif)
  | .sid s => ("failed to remove sid", dp.removeSID s.sid)
  | .srRoute s => ("failed to remove SR Route", dp.removeSRRouteForPrefix s.routePrefix s.table)
  | .classification c => ("failed to remove classifier", dp.removeClassification c.classifier)

def addCall (dp : Dataplane σ) : Resource → String × Call σ
  | .vrf v => ("failed to upsert VRF", dp.upsertVRF v.name v.tableID.toNat)
  | .xfrm x =>
    ("failed to insert XFRM",
      dp.insertXFRMInterface x.name (if x.parent = "" then "lo" else x.parent) x.ifID
        (if x.masterVRF = "" then none else some x.masterVRF))
  | .route r => ("failed to insert Route", dp.insertPrefixRoute r.dev r.table r.dst r.via)
  | .srRoute s =>
    ("failed to insert SR Route", dp.insertSRRouteForPrefix s.routePrefix s.table s.segments)
  | .rule r => ("failed to upsert rule", dp.upsertRule r.priority r.src r.table r.mark r.iif)
  | .sid s => ("failed to upsert DT46 SID", dp.upsertDT46SID s.sid s.tableID)
  | .classification c =>
    ("failed to insert Classification", dp.insertClassification c.classifier c.mark)

def perform (st : σ × List Failure) (call : String × Call σ) : σ × List Failure :=
  match call.2 st.1 with
  | (none, s) => (s, st.2)
  | (some err, s) => (s, st.2 ++ [⟨call.1, err⟩])

def byKinds (kinds : List Kind) (rs : List Resource) : List Resource :=
  kinds.flatMap fun k => rs.filter fun r => r.kind = k

def removalOrder : List Kind := [.classification, .rule, .srRoute, .sid, .route, .xfrm, .vrf]

def additionOrder : List Kind := [.vrf, .xfrm, .route, .sid, .srRoute, .rule, .classification]

def applyCalls (dp : Dataplane σ) (d : DiffResult) : List (String × Call σ) :=
  (byKinds removalOrder d.remove).map (removeCall dp) ++
    (byKinds additionOrder d.add).map (addCall dp)

structure ApplyResult (σ : Type) where
  err : Option String
  state : σ
  logged : List Failure

def apply (dp : Dataplane σ) (d : DiffResult) (s : σ) : ApplyResult σ :=
  match dp.ensureClassificationBase s with
  | (some err, s) => ⟨some err, s, []⟩
  | (none, s) =>
    let st := (applyCalls dp d).foldl perform (s, [])
    ⟨none, st.1, st.2⟩

theorem perform_silent {st : σ × List Failure} {call : String × Call σ}
    (h : (perform st call).2 = []) :
    st.2 = [] ∧ (call.2 st.1).1 = none ∧ (perform st call).1 = (call.2 st.1).2 := by
  unfold perform at h ⊢
  split at h
  · rename_i s hs
    rw [hs]
    exact ⟨h, rfl, rfl⟩
  · exact absurd h (by simp)

theorem subset_foldl_perform (calls : List (String × Call σ)) (st : σ × List Failure) :
    st.2 ⊆ (calls.foldl perform st).2 := by
  induction calls generalizing st with
  | nil => exact List.Subset.refl _
  | cons call calls ih =>
    refine List.Subset.trans ?_ (ih (perform st call))
    unfold perform
    split
    · exact List.Subset.refl _
    · exact List.subset_append_left _ _

theorem nil_of_foldl_perform {calls : List (String × Call σ)} {st : σ × List Failure}
    (h : (calls.foldl perform st).2 = []) : st.2 = [] := by
  have hsubset := subset_foldl_perform calls st
  rw [h] at hsubset
  exact List.subset_nil.mp hsubset

theorem foldl_perform_fst (calls : List (String × Call σ)) (st : σ × List Failure) :
    (calls.foldl perform st).1 = calls.foldl (fun s call => (call.2 s).2) st.1 := by
  induction calls generalizing st with
  | nil => rfl
  | cons call calls ih =>
    rw [List.foldl_cons, List.foldl_cons, ih]
    congr 1
    unfold perform
    split <;> rename_i hcall <;> rw [hcall]

def removeAll (dp : Dataplane σ) (rs : List Resource) (s : σ) : σ :=
  rs.foldl (fun s x => ((removeCall dp x).2 s).2) s

def addAll (dp : Dataplane σ) (rs : List Resource) (s : σ) : σ :=
  rs.foldl (fun s y => ((addCall dp y).2 s).2) s

/-- `Apply` sets up the base, removes and adds. -/
theorem apply_state {dp : Dataplane σ} {d : DiffResult} {s : σ} (h : (apply dp d s).err = none) :
    ∃ s₀, dp.ensureClassificationBase s = (none, s₀) ∧ (apply dp d s).state =
      addAll dp (byKinds additionOrder d.add)
        (removeAll dp (byKinds removalOrder d.remove) s₀) := by
  unfold apply at h ⊢
  cases hbase : dp.ensureClassificationBase s with
  | mk err s₀ =>
    rw [hbase] at h
    cases err with
    | some err => cases h
    | none =>
      refine ⟨s₀, rfl, ?_⟩
      simp only [applyCalls, List.foldl_append]
      rw [foldl_perform_fst, foldl_perform_fst, List.foldl_map, List.foldl_map]
      rfl

variable {rs : List Resource}

theorem mem_of_mem_byKinds {kinds : List Kind} {r : Resource}
    (h : r ∈ byKinds kinds rs) : r ∈ rs := by
  obtain ⟨kind, -, h⟩ := List.mem_flatMap.mp h
  exact List.mem_of_mem_filter h

theorem mem_byKinds_removalOrder {x : Resource} :
    x ∈ byKinds removalOrder rs ↔ x ∈ rs := by
  refine ⟨mem_of_mem_byKinds, fun hx => List.mem_flatMap.mpr ⟨x.kind, ?_, ?_⟩⟩
  · cases x.kind <;> decide
  · exact List.mem_filter.mpr ⟨hx, decide_eq_true rfl⟩

theorem mem_byKinds_additionOrder {x : Resource} :
    x ∈ byKinds additionOrder rs ↔ x ∈ rs := by
  refine ⟨mem_of_mem_byKinds, fun hx => List.mem_flatMap.mpr ⟨x.kind, ?_, ?_⟩⟩
  · cases x.kind <;> decide
  · exact List.mem_filter.mpr ⟨hx, decide_eq_true rfl⟩

end Apply

section Reconcile

variable {σ : Type}

def maxPasses : ℕ := 3

structure Outcome (σ : Type) where
  err : Option String
  reconciler : Reconciler
  state : σ
  applied : Bool
  logged : List Failure

def reconcilePasses (dp : Dataplane σ) (ords : ℕ → PassOrders) (ni : NodeIntent) (r : Reconciler) :
    ℕ → σ → Outcome σ
  | 0, s => ⟨some "dataplane could not converged after 3 passes", r, s, false, []⟩
  | n + 1, s =>
    match plan dp (ords n) r ni s with
    | .error err => ⟨some err, r, s, false, []⟩
    | .ok (current, desired) =>
      let result := diff (ords n) current desired
      if result.add = [] ∧ result.remove = [] then
        ⟨none, { r with current := some ni }, s, false, []⟩
      else
        let applied := apply dp result s
        match applied.err with
        | some err => ⟨some err, r, applied.state, true, applied.logged⟩
        | none =>
          let rest := reconcilePasses dp ords ni r n applied.state
          { rest with applied := true, logged := applied.logged ++ rest.logged }

def reconcile (dp : Dataplane σ) (ords : ℕ → PassOrders) (r : Reconciler) (ni : NodeIntent)
    (s : σ) : Outcome σ :=
  reconcilePasses dp ords ni r maxPasses s

end Reconcile

section Outcomes

variable {σ : Type} {dp : Dataplane σ} {ords : ℕ → PassOrders} {ni : NodeIntent} {r : Reconciler}

/-- `Plan` goes on with an intent of the own node type that is not older than the
remembered one. -/
theorem of_admitIntent_eq_ok (h : admitIntent r ni = .ok ()) :
    ni.nodeType = r.nodeType ∧ ∀ current ∈ r.current, current.stamp ≤ ni.stamp := by
  unfold admitIntent at h
  split_ifs at h with htype
  refine ⟨not_not.mp htype, ?_⟩
  intro current hcurrent
  rw [Option.mem_def] at hcurrent
  simp only [hcurrent] at h
  split_ifs at h with hstale
  rw [NodeIntent.stamp, NodeIntent.stamp, Prod.Lex.toLex_le_toLex]
  simp only [UInt32.lt_iff_toNat_lt, ← UInt32.toNat_inj] at hstale
  dsimp only
  omega

theorem plan_eq_ok {ord : PassOrders} {s : σ} {current desired : ResourceMap}
    (h : plan dp ord r ni s = .ok (current, desired)) :
    admitIntent r ni = .ok () ∧ renderIntent ord.render ni.intent = .ok desired ∧
      ∃ fib, readFIB dp s = .ok fib ∧ current = renderFIB fib := by
  obtain ⟨u, hnotOlder, h⟩ := bind_eq_ok.mp h
  obtain ⟨fib, hread, h⟩ := bind_eq_ok.mp h
  obtain ⟨resources, hrender, h⟩ := bind_eq_ok.mp h
  cases h
  exact ⟨hnotOlder, mapError_eq_ok.mp hrender, fib, hread, rfl⟩

/-- The result of a `Plan` and a `Diff` without a difference, in one of the passes. -/
def Converged (dp : Dataplane σ) (ords : ℕ → PassOrders) (ni : NodeIntent) (r : Reconciler)
    (s : σ) : Prop :=
  ∃ n < maxPasses, ∃ current desired, plan dp (ords n) r ni s = .ok (current, desired) ∧
    (diff (ords n) current desired).add = [] ∧ (diff (ords n) current desired).remove = []

def PassStep (dp : Dataplane σ) (ords : ℕ → PassOrders) (ni : NodeIntent) (r : Reconciler)
    (s s' : σ) : Prop :=
  ∃ n < maxPasses, ∃ current desired, plan dp (ords n) r ni s = .ok (current, desired) ∧
    (apply dp (diff (ords n) current desired) s).err = none ∧
    (apply dp (diff (ords n) current desired) s).state = s'

/-- A `Reconcile` that returns no error took passes to a state in which the next
one found no difference, and remembers the intent. -/
theorem reconcilePasses_converged {n : ℕ} (hn : n ≤ maxPasses) {s : σ}
    (herr : (reconcilePasses dp ords ni r n s).err = none) :
    Relation.ReflTransGen (PassStep dp ords ni r) s (reconcilePasses dp ords ni r n s).state ∧
      Converged dp ords ni r (reconcilePasses dp ords ni r n s).state ∧
      (reconcilePasses dp ords ni r n s).reconciler = { r with current := some ni } := by
  induction n generalizing s with
  | zero => cases herr
  | succ n ih =>
    rw [reconcilePasses] at herr ⊢
    cases hplan : plan dp (ords n) r ni s with
    | error err =>
      rw [hplan] at herr
      cases herr
    | ok resources =>
      obtain ⟨current, desired⟩ := resources
      simp only [hplan] at herr ⊢
      split_ifs at herr ⊢ with hdiff
      · exact ⟨.refl, ⟨n, hn, current, desired, hplan, hdiff⟩, rfl⟩
      · cases happly : (apply dp (diff (ords n) current desired) s).err with
        | some err =>
          simp only [happly] at herr
          cases herr
        | none =>
          simp only [happly] at herr ⊢
          obtain ⟨hsteps, hfinal⟩ := ih (Nat.le_of_succ_le hn) herr
          exact ⟨.head ⟨n, hn, current, desired, hplan, happly, rfl⟩ hsteps, hfinal⟩

theorem reconcilePasses_applied {n : ℕ} {s : σ}
    (h : (reconcilePasses dp ords ni r n s).applied = true) : admitIntent r ni = .ok () := by
  cases n with
  | zero => cases h
  | succ n =>
    rw [reconcilePasses] at h
    cases hplan : plan dp (ords n) r ni s with
    | error err =>
      rw [hplan] at h
      cases h
    | ok resources => exact (plan_eq_ok hplan).1

end Outcomes

end Maeto.Dataplane
