import Maeto.Foundation.Run
import Maeto.Simulator.Control

/-!
# A visitor's faults are few, bounded and temporary

In every state there are at most four faults of a visitor and at most two of them are
cuts (`Few`). A fault that is accepted is within the limits and ends by itself, except
when one of the numbers it was read from is not a number: such a value passes the range
tests, and a time to live that is not a number gives a fault the reaper never selects.
-/

namespace Maeto.Simulator

open Foundation

structure Few (faults : Faults) : Prop where
  faults_le : (manual faults).length ≤ Limits.manualFaults
  cuts_le : ((manual faults).filter (·.kind = .down)).length ≤ Limits.manualDown

theorem manual_insert (m : Faults) (link : String) (fault : Fault) :
    manual (m.insert link fault) =
      if fault.source = .manual then fault :: manual (m.erase link) else manual (m.erase link) := by
  unfold manual
  rw [GoMap.range_listed_insert, List.map_cons, List.filter_cons]
  simp only [decide_eq_true_eq]

theorem manual_erase_sublist (m : Faults) (link : String) :
    (manual (m.erase link)).Sublist (manual m) :=
  ((GoMap.range_listed_erase_sublist m link).map _).filter _

namespace Few

variable {m : Faults}

theorem empty : Few ∅ := ⟨Nat.zero_le _, Nat.zero_le _⟩

theorem erase (h : Few m) (link : String) : Few (m.erase link) where
  faults_le := (manual_erase_sublist m link).length_le.trans h.faults_le
  cuts_le := ((manual_erase_sublist m link).filter _).length_le.trans h.cuts_le

theorem insert_story (h : Few m) {link : String} {fault : Fault}
    (hsource : fault.source ≠ .manual) : Few (m.insert link fault) := by
  have herase := h.erase link
  constructor <;> rw [manual_insert, if_neg hsource]
  · exact herase.faults_le
  · exact herase.cuts_le

theorem insert_manual (h : Few m) {lab : Lab} {link : String} {fault : Fault}
    (hcheck : checkManual lab m link fault.kind = .ok ()) : Few (m.insert link fault) := by
  obtain ⟨hfaults, hcuts⟩ := checkManual_eq_ok hcheck
  by_cases hsource : fault.source = .manual
  · constructor <;> rw [manual_insert, if_pos hsource]
    · exact hfaults
    · rw [List.filter_cons]
      cases hkind : fault.kind with
      | impair => simpa using (h.erase link).cuts_le
      | down => simpa [Nat.succ_le_iff] using (hcuts hkind).1
  · exact h.insert_story hsource

end Few

/-- The fault ends by itself: its time is a number that is at most `bound`, and a reaper
pass from then on selects it wherever it is still recorded. -/
def Fault.EndsBy (fault : Fault) (bound : ℚ) : Prop :=
  ∃ t, fault.expiresAt = .finite t ∧ t ≤ bound ∧ ∀ (s : Sim) (now : ℚ),
    s.faults.lookup fault.link = some fault → t ≤ now → fault.link ∈ s.expired now

def numberKeys : Kind → List String
  | .down => ["ttl_s"]
  | .impair => "ttl_s" :: impairmentKeys

namespace Sim

variable {float : String → Option PyFloat} {build : Build} {s : Sim}

theorem step_few (s : Sim) (event : Event) (h : Few s.faults) :
    Few (step float build s event).faults := by
  refine @step_keeps float build s (fun _ m => Few m) (fun _ m link hm => hm.erase link) Few.empty
    Few.empty event h ?_ ?_
  · intro now request kind lab link fault _ hcheck hfault
    obtain ⟨rfl, rfl, -⟩ := manualFault_eq_ok hfault
    exact h.insert_manual hcheck
  · intro now traffic answers task next rest _ _ _ _
    refine @storyStep_induction float s (fun s => Few s.faults) _ _ _ _ _ h ?_
    intro lab ref link kind fault _ _ _ _ hfault s hs
    obtain ⟨-, -, hsource, -⟩ := storyFault_eq_ok hfault
    exact @apply_keeps s (fun _ m => Few m) (fun _ m link hm => hm.erase link) _ _ hs
      (hs.insert_story (by simp [hsource]))

theorem run_few {events : List Event} (h : Few s.faults) :
    ∀ s' ∈ events.scanl (step float build) s, Few s'.faults :=
  Run.forall_scanl (fun s event => step_few s event) h

/-- The request is for a fault and is granted, and the fault is the one recorded then. -/
def Accepts (float : String → Option PyFloat) (s : Sim) (now : ℚ) (answers : Answers)
    (request : Params) (fault : Fault) : Prop :=
  (request.lookup "action" = some (.str "impair") ∨ request.lookup "action" = some (.str "down")) ∧
    request.lookup "link" = some (.str fault.link) ∧
    (command float now answers request s).1 = none ∧
    (command float now answers request s).2.faults.lookup fault.link = some fault

theorem fault_eq_none {now : ℚ} {answers : Answers} {request : Params} {kind : Kind}
    {link : String} (hlink : request.lookup "link" = some (.str link))
    (h : (Sim.fault float now answers request kind s).1 = none) :
    ∃ fault, manualFault float now request link kind = .ok fault ∧
      (Sim.fault float now answers request kind s).2.faults.lookup link = some fault := by
  simp only [Sim.fault, hlink, Option.getD_some] at h ⊢
  split at h
  · cases h
  · cases h
  · next found lab hfound hlab =>
      have hid : found.id = link := by
        simp only [Sim.link, hlab, Json.key, Result.ok_bind, Option.bind_some] at hfound
        split at hfound
        · cases hfound
        · next hlookup =>
            cases hfound
            exact lab.links_id _ _ hlookup
      rw [hid] at h ⊢
      split at h
      · cases h
      · next fault hfault =>
          obtain ⟨_, -, hparse⟩ := Result.bind_eq_ok.mp hfault
          obtain ⟨rfl, -⟩ := manualFault_eq_ok hparse
          refine ⟨fault, hparse, ?_⟩
          rcases apply_faults answers fault s with ⟨-, heq⟩ | ⟨⟨raised, hraised⟩, -⟩
          · rw [heq, AList.lookup_insert]
          · rw [hraised] at h
            cases h

theorem Accepts.manualFault_eq_ok {now : ℚ} {answers : Answers} {request : Params} {fault : Fault}
    (h : s.Accepts float now answers request fault) :
    manualFault float now request fault.link fault.kind = .ok fault := by
  obtain ⟨haction, hlink, hnone, hlookup⟩ := h
  have hkind : ∃ kind, command float now answers request s =
      Sim.fault float now answers request kind s := by
    rcases haction with haction | haction
    · exact ⟨.impair, by simp [command, haction]⟩
    · exact ⟨.down, by simp [command, haction]⟩
  obtain ⟨kind, hcommand⟩ := hkind
  rw [hcommand] at hnone hlookup
  obtain ⟨fault', hparse, hlookup'⟩ := fault_eq_none hlink hnone
  obtain rfl : fault' = fault := Option.some.inj (hlookup'.symm.trans hlookup)
  rwa [(Simulator.manualFault_eq_ok hparse).2.1]

end Sim

/-- A fault that is read from a request ends by itself unless its time to live is not a
number. -/
theorem endsBy_iff {float : String → Option PyFloat} {now : ℚ} {request : Params} {fault : Fault}
    {x : PyFloat} (httl : ttl float request = .ok x)
    (hexpires : fault.expiresAt = (PyFloat.finite now).add x) :
    fault.EndsBy (now + Limits.ttlMaxS) ↔ ¬ GivesNan float request "ttl_s" := by
  constructor
  · rintro ⟨t, ht, -⟩ hnan
    rw [hexpires, ttl_eq_nan httl hnan, PyFloat.add_nan] at ht
    cases ht
  · intro hnan
    obtain ⟨q, rfl, -, hq⟩ := (ttl_between httl hnan).exists_finite
    refine ⟨now + q, hexpires, by gcongr, ?_⟩
    intro s later hlookup hlater
    refine Sim.mem_expired.mpr ⟨fault, hlookup, ?_⟩
    rw [hexpires]
    exact decide_eq_true hlater

/-- Whatever happens, a visitor has at most four faults and at most two cuts recorded.
A fault that is then accepted is within the limits and ends by itself within ten minutes
exactly when none of its numbers is not a number. -/
theorem manualFaults_bounded_iff (float : String → Option PyFloat) (build : Build) (world : World)
    (events : List Event) :
    ∀ s ∈ events.scanl (Sim.step float build) { world := world },
      (manual s.faults).length ≤ 4 ∧ ((manual s.faults).filter (·.kind = .down)).length ≤ 2 ∧
        ∀ now answers request fault, s.Accepts float now answers request fault →
          ((fault.impairment.Bounded ∧ fault.EndsBy (now + 600)) ↔
            ∀ key ∈ numberKeys fault.kind, ¬ GivesNan float request key) := by
  intro s hs
  have hfew := Sim.run_few Few.empty s hs
  refine ⟨hfew.faults_le, hfew.cuts_le, ?_⟩
  intro now answers request fault haccepts
  obtain ⟨-, -, -, ⟨x, httl, hexpires⟩, hkind⟩ := manualFault_eq_ok haccepts.manualFault_eq_ok
  have hends := endsBy_iff httl hexpires
  rw [show (600 : ℚ) = (Limits.ttlMaxS : ℕ) from rfl, hends]
  rcases hkind with ⟨hkind, himp⟩ | ⟨hkind, himp⟩
  · have hbounded : Impairment.Bounded {} := by decide
    simp [hkind, numberKeys, himp, hbounded]
  · rw [impairment_bounded_iff himp, hkind, numberKeys, List.forall_mem_cons, and_comm]

def twoMembers : Build where
  lab := .load
    [ { id := "AB1", a := ⟨"A", "eth1", "clab-lab-a", {}⟩, b := ⟨"B", "eth1", "clab-lab-b", {}⟩ },
      { id := "AB2", a := ⟨"A", "eth2", "clab-lab-a", {}⟩, b := ⟨"B", "eth2", "clab-lab-b", {}⟩ } ]
    ["A", "B"]
  stories := ∅

def cut (link : String) (ttl : PyFloat) : Params :=
  ((AList.insert "action" (.str "down") ∅).insert "link" (.str link)).insert "ttl_s" (.float ttl)

def twoMembersReset : Sim :=
  Sim.step (fun _ => none) twoMembers { world := fun _ => ⟨true, []⟩ }
    (.reset none fun _ _ _ => .done)

/-- A cut with a time to live that is not a number is accepted, and no reaper pass ever
selects it. -/
theorem cut_nan_accepted :
    ∃ fault, twoMembersReset.Accepts (fun _ => none) 0 (fun _ _ _ => .done) (cut "AB1" .nan) fault ∧
      ∀ later, fault.link ∉ (twoMembersReset.command (fun _ => none) 0 (fun _ _ _ => .done)
        (cut "AB1" .nan)).2.expired later := by
  have haccepts : twoMembersReset.Accepts (fun _ => none) 0 (fun _ _ _ => .done) (cut "AB1" .nan)
      { link := "AB1", kind := .down, source := .manual, expiresAt := .nan } :=
    ⟨Or.inr rfl, rfl, rfl, rfl⟩
  refine ⟨_, haccepts, fun later hmem => ?_⟩
  obtain ⟨fault, hlookup, hle⟩ := Sim.mem_expired.mp hmem
  rw [haccepts.2.2.2] at hlookup
  cases hlookup
  cases hle

/-- The same cut for a minute ends by itself. -/
theorem cut_minute_endsBy :
    ∃ fault, twoMembersReset.Accepts (fun _ => none) 0 (fun _ _ _ => .done) (cut "AB1" 60) fault ∧
      fault.impairment.Bounded ∧ fault.EndsBy (0 + 600) := by
  have haccepts : twoMembersReset.Accepts (fun _ => none) 0 (fun _ _ _ => .done) (cut "AB1" 60)
      { link := "AB1", kind := .down, source := .manual, expiresAt := .finite (0 + 60) } :=
    ⟨Or.inr rfl, rfl, rfl, rfl⟩
  have hbounds := manualFaults_bounded_iff (fun _ => none) twoMembers (fun _ => ⟨true, []⟩)
    [.reset none fun _ _ _ => .done] twoMembersReset (List.mem_cons_of_mem _ List.mem_cons_self)
  refine ⟨_, haccepts, (hbounds.2.2 0 _ _ _ haccepts).mpr ?_⟩
  intro key hkey
  rw [List.mem_singleton.mp hkey]
  rintro ⟨value, hgiven, hnan⟩
  cases hgiven
  cases hnan

end Maeto.Simulator
