import Maeto.ControlPlane.Service.Restart
import Maeto.Foundation.Result

/-!
# The allocated SIDs over a run

The rows of `sid_allocations` relate the keys of the tenants to SIDs, one to one: a row is
only added for a key that has none and with a SID that no row has. The map in memory says
the same as the table (`Tracks`), after every call and after every restart, and whatever a
call returned is a row. So two calls return one SID exactly when they have one key.

The key is a text of the address of the locator, the tenant and the type. It leaves out the
length of the locator, so that two locators of one address share their SIDs.
-/

namespace Maeto.ControlPlane

open Foundation Netip GoMap
open Dataplane (EncapType)

section Calls

namespace Database

theorem inTx_cases (db : Database) (fn : Database → Except String Database) :
    (∃ err outcomes, db.inTx fn = (some err, { db with outcomes })) ∨
      ∃ outcomes db', fn { db with outcomes } = .ok db' ∧ db.inTx fn = (none, db') := by
  unfold inTx
  obtain ⟨outcomes, ⟨err, hcall⟩ | hcall⟩ := db.call_cases
  · rw [hcall]
    exact Or.inl ⟨err, outcomes, rfl⟩
  · rw [hcall]
    cases hfn : fn { db with outcomes } with
    | error err => exact Or.inl ⟨err, outcomes, by simp [hfn]⟩
    | ok db' => exact Or.inr ⟨outcomes, db', hfn, by simp [hfn]⟩

theorem of_createSIDAllocation_eq_ok {db db' : Database} {row : SIDAllocation}
    (h : db.createSIDAllocation row = .ok db') :
    db' = { db with sidAllocations := db.sidAllocations ++ [row] } ∧
      ∀ r ∈ db.sidAllocations, r.sid ≠ row.sid := by
  unfold createSIDAllocation at h
  split_ifs at h with hvalid hmasked hany
  cases h
  refine ⟨rfl, ?_⟩
  intro r hr hsid
  exact hany (List.any_eq_true.mpr ⟨r, hr, by simp [hsid]⟩)

end Database

structure SIDKey where
  locatorPrefix : Prefix
  tenantID : String
  sidType : EncapType
  deriving DecidableEq

def SIDKey.text (k : SIDKey) : String := tenantMapKey k.locatorPrefix k.tenantID k.sidType

def SIDKey.row (k : SIDKey) (sid : Addr) : SIDAllocation where
  sid
  locator := k.locatorPrefix
  tenantID := k.tenantID
  sidType := k.sidType.text

theorem SIDKey.tenantMapKey_row (k : SIDKey) (sid : Addr) : (k.row sid).tenantMapKey = k.text := rfl

theorem SIDKey.text_eq_iff {k k' : SIDKey} (h : ∀ a, k.locatorPrefix.ip = .v6 a → ¬ Addr.is4In6 a)
    (h' : ∀ a, k'.locatorPrefix.ip = .v6 a → ¬ Addr.is4In6 a) :
    k.text = k'.text ↔ k.locatorPrefix.ip = k'.locatorPrefix.ip ∧ k.tenantID = k'.tenantID ∧
      k.sidType = k'.sidType := by
  have hlist : ∀ k : SIDKey, k.text.toList =
      (k.locatorPrefix.ip.text ++ '.' :: k.tenantID.toList) ++ '.' :: k.sidType.text.toList := by
    intro k
    simp [text, tenantMapKey, Addr.toString, String.toList_append]
  rw [← String.toList_inj, hlist, hlist, Text.append_sep_inj_last k.sidType.dot_notMem_text
    k'.sidType.dot_notMem_text]
  constructor
  · rintro ⟨hinit, htype⟩
    obtain ⟨hip, htenant⟩ := Addr.text_append_inj h h' hinit
    exact ⟨hip, String.toList_inj.mp htenant, EncapType.text_injective htype⟩
  · rintro ⟨hip, htenant, htype⟩
    rw [hip, htenant, htype]
    exact ⟨rfl, rfl⟩

inductive Served (k : SIDKey) (sids : GoMap String Addr) (db : Database) :
    Except String Addr → SIDState → Prop where
  | failed (err : String) {s' : SIDState} {outcomes : List (Option String)}
      (hmap : s'.sidTenantMap = sids) (hdb : s'.db = { db with outcomes }) :
      Served k sids db (.error err) s'
  | found {sid : Addr} {s' : SIDState} (hlookup : sids.lookup k.text = some sid)
      (hmap : s'.sidTenantMap = sids) (hdb : s'.db = db) : Served k sids db (.ok sid) s'
  | allocated {sid : Addr} {s' : SIDState} {sidCursor : ℤ} {outcomes : List (Option String)}
      (hlookup : sids.lookup k.text = none) (hfresh : ∀ r ∈ db.sidAllocations, r.sid ≠ sid)
      (hmap : s'.sidTenantMap = sids.insert k.text sid)
      (hdb : s'.db =
        { db with sidAllocations := db.sidAllocations ++ [k.row sid], sidCursor, outcomes }) :
      Served k sids db (.ok sid) s'

theorem generateSID_served (k : SIDKey) (rounds : ℕ) {s : SIDState}
    (hlookup : s.sidTenantMap.lookup k.text = none) :
    Served k s.sidTenantMap s.db
      (generateSID k.locatorPrefix k.tenantID k.sidType rounds s).1
      (generateSID k.locatorPrefix k.tenantID k.sidType rounds s).2 := by
  induction rounds generalizing s with
  | zero => exact .failed _ rfl rfl
  | succ rounds ih =>
    rw [generateSID]
    split_ifs
    · -- The cursor moves past a SID that is taken, and nothing else changes.
      exact @ih { s with sidCursor := s.sidCursor + 1 } hlookup
    · rcases s.db.inTx_cases fun db =>
          (db.createSIDAllocation
            (k.row (withHextets k.locatorPrefix 48 (permute s.sidCursor)))).map
            (Database.setSIDCursor (s.sidCursor + 1).toNat) with
        ⟨err, outcomes, htx⟩ | ⟨outcomes, db', hfn, htx⟩
      · rw [SIDKey.row] at htx
        rw [htx]
        exact .failed err rfl rfl
      · obtain ⟨db₁, hcreate, rfl⟩ := Result.map_eq_ok.mp hfn
        obtain ⟨rfl, hfresh⟩ := Database.of_createSIDAllocation_eq_ok hcreate
        rw [SIDKey.row] at htx
        rw [htx]
        exact .allocated hlookup hfresh rfl rfl

theorem getOrGenerateSID_served (k : SIDKey) (s : SIDState) :
    Served k s.sidTenantMap s.db
      (getOrGenerateSID k.locatorPrefix k.tenantID k.sidType s).1
      (getOrGenerateSID k.locatorPrefix k.tenantID k.sidType s).2 := by
  unfold getOrGenerateSID
  cases hlookup : s.sidTenantMap.lookup (tenantMapKey k.locatorPrefix k.tenantID k.sidType) with
  | some existingSID => exact .found hlookup rfl rfl
  | none => exact generateSID_served k maxSIDCollisionChecks hlookup

theorem Served.nodeGenerations {k : SIDKey} {sids : GoMap String Addr} {db : Database}
    {res : Except String Addr} {s' : SIDState} (h : Served k sids db res s') :
    s'.db.nodeGenerations = db.nodeGenerations := by
  cases h with
  | failed err hmap hdb => rw [hdb]
  | found hlookup hmap hdb => rw [hdb]
  | allocated hlookup hfresh hmap hdb => rw [hdb]

end Calls

section Tables

def OneToOne (rows : List SIDAllocation) : Prop :=
  ∀ r ∈ rows, ∀ r' ∈ rows, r.sid = r'.sid ↔ r.tenantMapKey = r'.tenantMapKey

/-- The map in memory says what the rows say. -/
def Tracks (sids : GoMap String Addr) (rows : List SIDAllocation) : Prop :=
  ∀ key sid, sids.lookup key = some sid ↔ ∃ r ∈ rows, r.tenantMapKey = key ∧ r.sid = sid

variable {rows : List SIDAllocation}

theorem OneToOne.append (h : OneToOne rows) {row : SIDAllocation}
    (hsid : ∀ r ∈ rows, r.sid ≠ row.sid) (hkey : ∀ r ∈ rows, r.tenantMapKey ≠ row.tenantMapKey) :
    OneToOne (rows ++ [row]) := by
  intro r hr r' hr'
  rw [List.mem_append, List.mem_singleton] at hr hr'
  rcases hr with hr | rfl
  · rcases hr' with hr' | rfl
    · exact h r hr r' hr'
    · exact iff_of_false (hsid r hr) (hkey r hr)
  · rcases hr' with hr' | rfl
    · exact iff_of_false (fun heq => hsid r' hr' heq.symm) fun heq => hkey r' hr' heq.symm
    · exact iff_of_true rfl rfl

theorem Tracks.notMem_of_lookup_eq_none {sids : GoMap String Addr}
    (h : Tracks sids rows) {key : String} (hlookup : sids.lookup key = none) :
    ∀ r ∈ rows, r.tenantMapKey ≠ key := by
  intro r hr hkey
  have hsome := (h key r.sid).mpr ⟨r, hr, hkey, rfl⟩
  rw [hlookup] at hsome
  cases hsome

theorem Tracks.append {sids : GoMap String Addr}
    (h : Tracks sids rows) {row : SIDAllocation} {key : String} (hrow : row.tenantMapKey = key)
    (hlookup : sids.lookup key = none) : Tracks (sids.insert key row.sid) (rows ++ [row]) := by
  have hnew := h.notMem_of_lookup_eq_none hlookup
  intro key' sid
  rw [lookup_insert_eq]
  split_ifs with hkey
  · subst hkey
    constructor
    · intro hsid
      cases hsid
      exact ⟨row, by simp, hrow, rfl⟩
    · rintro ⟨r, hr, hkey, rfl⟩
      rw [List.mem_append, List.mem_singleton] at hr
      rcases hr with hr | rfl
      · exact absurd hkey (hnew r hr)
      · rfl
  · rw [h key' sid]
    constructor
    · rintro ⟨r, hr, hr'⟩
      exact ⟨r, List.mem_append_left _ hr, hr'⟩
    · rintro ⟨r, hr, hrkey, hsid⟩
      rw [List.mem_append, List.mem_singleton] at hr
      rcases hr with hr | rfl
      · exact ⟨r, hr, hrkey, hsid⟩
      · exact absurd (hrkey.symm.trans hrow) hkey

theorem OneToOne.tracks (h : OneToOne rows) :
    Tracks (GoMap.storeEach SIDAllocation.tenantMapKey SIDAllocation.sid rows ∅) rows := by
  intro key sid
  constructor
  · intro hlookup
    rcases of_lookup_storeEach hlookup with hrow | hstart
    · exact hrow
    · cases hstart
  · rintro ⟨r, hr, rfl, rfl⟩
    obtain ⟨r', hr', hkey, hlookup⟩ :=
      exists_lookup_storeEach SIDAllocation.tenantMapKey SIDAllocation.sid ∅ hr
    rw [hlookup, (h r' hr' r hr).mpr hkey]

/-- The state is consistent: the rows are one to one, and a controller that runs has them
in memory. -/
def Process.Consistent (p : Process) : Prop :=
  OneToOne p.db.sidAllocations ∧
    match p with
    | .up r => Tracks r.sidTenantMap r.db.sidAllocations
    | .down _ => True

end Tables

section Runs

structure Grant where
  key : SIDKey
  sid : Addr
  deriving DecidableEq

inductive SIDEvent where
  | call (k : SIDKey)
  | interrupted (k : SIDKey)
  | restart (now : ℤ)

structure SIDRun where
  process : Process
  grants : List Grant

def SIDRun.step (s : SIDRun) : SIDEvent → SIDRun
  | .call k =>
    match s.process with
    | .down _ => s
    | .up r =>
      match getOrGenerateSID k.locatorPrefix k.tenantID k.sidType r.toSIDState with
      | (.error _, s') => { s with process := .up { r with toSIDState := s' } }
      | (.ok sid, s') =>
        { process := .up { r with toSIDState := s' }, grants := ⟨k, sid⟩ :: s.grants }
  | .interrupted k =>
    match s.process with
    | .down _ => s
    | .up r =>
      let (_, s') := getOrGenerateSID k.locatorPrefix k.tenantID k.sidType r.toSIDState
      { s with process := .down s'.db }
  | .restart now => { s with process := s.process.restart now }

def SIDRun.start (outcomes : List (Option String)) : SIDRun where
  process := .down { Database.empty with outcomes }
  grants := []

/-- Different keys never get one SID, a key gets one SID only, and every SID that was handed
out is in the table. -/
def SIDRun.UniqueAndSticky (s : SIDRun) : Prop :=
  (∀ g ∈ s.grants, ∀ g' ∈ s.grants, g.key ≠ g'.key → g.sid ≠ g'.sid) ∧
    (∀ g ∈ s.grants, ∀ g' ∈ s.grants, g.key = g'.key → g.sid = g'.sid) ∧
    ∀ g ∈ s.grants, ∃ row ∈ s.process.db.sidAllocations, row.sid = g.sid

structure SIDRun.Accounted (s : SIDRun) : Prop where
  consistent : s.process.Consistent
  row : ∀ g ∈ s.grants, ∃ row ∈ s.process.db.sidAllocations,
    row.sid = g.sid ∧ row.tenantMapKey = g.key.text

theorem restart_consistent {p : Process} (h : p.Consistent) (now : ℤ) :
    (p.restart now).Consistent := by
  rcases p.restart_cases now with ⟨outcomes, hdown | hup⟩
  · rw [hdown]
    exact ⟨h.1, trivial⟩
  · rw [hup]
    exact ⟨h.1, h.1.tracks⟩

theorem restart_sidAllocations (now : ℤ) (p : Process) :
    (p.restart now).db.sidAllocations = p.db.sidAllocations := by
  rcases p.restart_cases now with ⟨outcomes, hdown | hup⟩
  · rw [hdown]
    rfl
  · rw [hup]
    rfl

/-- A call keeps the table one to one and the map in step with it, and the table only grows.
What it returns is a row. -/
theorem Served.keeps {k : SIDKey} {sids : GoMap String Addr} {db : Database}
    {res : Except String Addr} {s' : SIDState} (hserved : Served k sids db res s')
    (hone : OneToOne db.sidAllocations) (htracks : Tracks sids db.sidAllocations) :
    OneToOne s'.db.sidAllocations ∧ Tracks s'.sidTenantMap s'.db.sidAllocations ∧
      (∀ row ∈ db.sidAllocations, row ∈ s'.db.sidAllocations) ∧
      ∀ sid, res = .ok sid →
        ∃ row ∈ s'.db.sidAllocations, row.sid = sid ∧ row.tenantMapKey = k.text := by
  cases hserved with
  | failed err hmap hdb =>
    rw [hmap, hdb]
    exact ⟨hone, htracks, fun _ hrow => hrow, fun _ hsid => nomatch hsid⟩
  | found hlookup hmap hdb =>
    rw [hmap, hdb]
    refine ⟨hone, htracks, fun _ hrow => hrow, ?_⟩
    intro sid hsid
    cases hsid
    obtain ⟨row, hrow, hkey, hsid⟩ := (htracks _ _).mp hlookup
    exact ⟨row, hrow, hsid, hkey⟩
  | allocated hlookup hfresh hmap hdb =>
    rw [hmap, hdb]
    have hnew := htracks.notMem_of_lookup_eq_none hlookup
    refine ⟨hone.append hfresh hnew, htracks.append (k.tenantMapKey_row _) hlookup,
      fun _ hrow => List.mem_append_left _ hrow, ?_⟩
    intro sid hsid
    cases hsid
    exact ⟨k.row _, List.mem_append_right _ List.mem_cons_self, rfl, rfl⟩

theorem SIDRun.Accounted.start (outcomes : List (Option String)) :
    (SIDRun.start outcomes).Accounted := by
  refine ⟨⟨?_, trivial⟩, ?_⟩
  · intro r hr
    cases hr
  · intro g hg
    cases hg

theorem SIDRun.Accounted.step {s : SIDRun} (h : s.Accounted) (e : SIDEvent) :
    (s.step e).Accounted := by
  obtain ⟨process, grants⟩ := s
  obtain ⟨hconsistent, hrow⟩ := h
  cases e with
  | restart now =>
    refine ⟨restart_consistent hconsistent now, ?_⟩
    intro g hg
    rw [SIDRun.step, restart_sidAllocations]
    exact hrow g hg
  | call k =>
    cases process with
    | down db => exact ⟨hconsistent, hrow⟩
    | up r =>
      have hkeeps := (getOrGenerateSID_served k r.toSIDState).keeps hconsistent.1 hconsistent.2
      simp only [SIDRun.step]
      generalize getOrGenerateSID k.locatorPrefix k.tenantID k.sidType r.toSIDState = out
        at hkeeps ⊢
      obtain ⟨res, s'⟩ := out
      obtain ⟨hone, htracks, hgrow, hres⟩ := hkeeps
      have hold : ∀ g ∈ grants, ∃ row ∈ s'.db.sidAllocations,
          row.sid = g.sid ∧ row.tenantMapKey = g.key.text := by
        intro g hg
        obtain ⟨row, hmem, hg'⟩ := hrow g hg
        exact ⟨row, hgrow row hmem, hg'⟩
      cases res with
      | error err => exact ⟨⟨hone, htracks⟩, hold⟩
      | ok sid => exact ⟨⟨hone, htracks⟩, List.forall_mem_cons.mpr ⟨hres sid rfl, hold⟩⟩
  | interrupted k =>
    cases process with
    | down db => exact ⟨hconsistent, hrow⟩
    | up r =>
      -- The row may have been written, though nobody was told.
      obtain ⟨hone, -, hgrow, -⟩ :=
        (getOrGenerateSID_served k r.toSIDState).keeps hconsistent.1 hconsistent.2
      refine ⟨⟨hone, trivial⟩, ?_⟩
      intro g hg
      obtain ⟨row, hmem, hg'⟩ := hrow g hg
      exact ⟨row, hgrow row hmem, hg'⟩

theorem SIDRun.Accounted.run (outcomes : List (Option String)) (events : List SIDEvent) :
    (events.foldl SIDRun.step (.start outcomes)).Accounted := by
  induction events using List.reverseRecOn with
  | nil => exact .start outcomes
  | append_singleton events e ih =>
    rw [List.foldl_append]
    exact ih.step e

theorem SIDRun.Accounted.sid_eq_iff {s : SIDRun} (h : s.Accounted) {g g' : Grant}
    (hg : g ∈ s.grants) (hg' : g' ∈ s.grants) : g.sid = g'.sid ↔ g.key.text = g'.key.text := by
  obtain ⟨row, hrow, hsid, hkey⟩ := h.row g hg
  obtain ⟨row', hrow', hsid', hkey'⟩ := h.row g' hg'
  rw [← hsid, ← hsid', ← hkey, ← hkey']
  exact h.consistent.1 row hrow row' hrow'

/-- SIDs are unique and sticky in exactly the runs in which no two calls that are served have
different keys with one text. -/
theorem uniqueAndSticky_iff (outcomes : List (Option String)) (events : List SIDEvent) :
    (events.foldl SIDRun.step (.start outcomes)).UniqueAndSticky ↔
      ∀ g ∈ (events.foldl SIDRun.step (.start outcomes)).grants,
        ∀ g' ∈ (events.foldl SIDRun.step (.start outcomes)).grants,
          g.key.text = g'.key.text → g.key = g'.key := by
  have haccounted := SIDRun.Accounted.run outcomes events
  generalize events.foldl SIDRun.step (.start outcomes) = s at haccounted ⊢
  constructor
  · rintro ⟨hunique, -, -⟩ g hg g' hg' htext
    by_contra hne
    exact hunique g hg g' hg' hne ((haccounted.sid_eq_iff hg hg').mpr htext)
  · intro htexts
    refine ⟨?_, ?_, ?_⟩
    · intro g hg g' hg' hne hsid
      exact hne (htexts g hg g' hg' ((haccounted.sid_eq_iff hg hg').mp hsid))
    · intro g hg g' hg' hkey
      exact (haccounted.sid_eq_iff hg hg').mpr (congrArg SIDKey.text hkey)
    · intro g hg
      obtain ⟨row, hrow, hsid, -⟩ := haccounted.row g hg
      exact ⟨row, hrow, hsid⟩

def lengthKey (bits : ℕ) : SIDKey where
  locatorPrefix := .prefixFrom (.v6 0xfc000000000100000000000000000000) bits
  tenantID := "1"
  sidType := .dt46

/-- The locators `fc00:0:1::/48` and `fc00:0:1::/64` get one SID. -/
theorem sid_shared_by_lengths :
    ¬ ([.restart 0, .call (lengthKey 48), .call (lengthKey 64)].foldl SIDRun.step
      (.start [])).UniqueAndSticky := by
  have hgrants : ([.restart 0, .call (lengthKey 48), .call (lengthKey 64)].foldl SIDRun.step
      (.start [])).grants =
        [⟨lengthKey 64, .v6 0xfc0000000001f4e00000000000000000⟩,
          ⟨lengthKey 48, .v6 0xfc0000000001f4e00000000000000000⟩] := by decide +kernel
  rintro ⟨hunique, -, -⟩
  rw [hgrants] at hunique
  exact hunique _ List.mem_cons_self _ (List.mem_cons_of_mem _ List.mem_cons_self) (by decide) rfl

end Runs

end Maeto.ControlPlane
