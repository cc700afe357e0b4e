import Maeto.Simulator.Bounds

/-!
# Whether faults can cut a PoP off

A visitor's cut is checked together with the links that are down already. The cuts of a
story are not: one that is harmless on its own can be the last link of a PoP when a
visitor has taken the others down. As long as the steps of the stories that are told
leave the PoPs together with what is down then, the recorded cuts never separate them.
-/

namespace Maeto.Simulator

open Foundation

theorem down_erase_subset (m : Faults) (link : String) : down (m.erase link) ⊆ down m :=
  (((GoMap.range_listed_erase_sublist m link).filter _).map _).subset

theorem down_insert (m : Faults) (fault : Fault) :
    down (m.insert fault.link fault) =
      (if fault.kind = .down then [fault.link] else []) ++ down (m.erase fault.link) := by
  unfold down
  rw [GoMap.range_listed_insert, List.filter_cons]
  by_cases hkind : fault.kind = .down
  · simp [hkind]
  · simp [hkind]

/-- A step of a story that takes links down leaves the PoPs of the lab together, without
these links and those that are recorded as down. -/
def Sim.CutsLeaveJoined (build : Build) (s : Sim) : Event → Prop
  | .storyStep _ _ _ => ∀ task next rest ref, s.story = some task → task.ending = false →
      task.steps = next :: rest → next.kind = .fault .down →
      next.spec.lookup "link" = some (.str ref) →
      build.lab.Joined (down s.faults ++ (build.lab.find ref).map Link.id)
  | _ => True

/-- The lab is the one of the build, and the PoPs hang together without the links that
are recorded as down. -/
structure Whole (build : Build) (lab : Option Lab) (faults : Faults) : Prop where
  lab_eq : ∀ l, lab = some l → l = build.lab
  joined : build.lab.Joined (down faults)

namespace Whole

variable {build : Build} {lab : Option Lab} {m : Faults}

theorem erase (h : Whole build lab m) (link : String) : Whole build lab (m.erase link) :=
  ⟨h.lab_eq, h.joined.of_subset (down_erase_subset m link)⟩

theorem insert_manual (h : Whole build lab m) {l : Lab} (hl : lab = some l) {fault : Fault}
    (hcheck : checkManual l m fault.link fault.kind = .ok ()) :
    Whole build lab (m.insert fault.link fault) := by
  refine ⟨h.lab_eq, ?_⟩
  obtain ⟨-, hcuts⟩ := checkManual_eq_ok hcheck
  rw [down_insert]
  cases hkind : fault.kind with
  | impair => exact (h.erase fault.link).joined
  | down =>
    rw [← h.lab_eq l hl]
    refine (Lab.joined_of_connected (hcuts hkind).2).of_subset ?_
    exact (List.perm_append_comm).subset

end Whole

namespace Sim

variable {float : String → Option PyFloat} {build : Build} {s : Sim}

theorem down_storyStep_subset {now : ℚ} {traffic : Option Raised} {answers : Answers}
    {step : Step} {source : Source} {links : List String}
    (hlinks : ∀ lab ref, s.lab = some lab → step.kind = .fault .down →
      step.spec.lookup "link" = some (.str ref) → (lab.find ref).map Link.id ⊆ links) :
    (storyStep float now traffic answers step source s).2.lab = s.lab ∧
      down (storyStep float now traffic answers step source s).2.faults ⊆
        down s.faults ++ links := by
  have herase : ∀ (lab : Option Lab) (m : Faults) (link : String),
      (lab = s.lab ∧ down m ⊆ down s.faults ++ links) →
        lab = s.lab ∧ down (m.erase link) ⊆ down s.faults ++ links :=
    fun lab m link hm => ⟨hm.1, List.Subset.trans (down_erase_subset m link) hm.2⟩
  refine @storyStep_induction float s
    (fun s' => s'.lab = s.lab ∧ down s'.faults ⊆ down s.faults ++ links) _ _ _ _ _
    ⟨rfl, List.subset_append_left _ _⟩ ?_
  intro lab ref link kind fault hlab hkind href hlink hfault s' hs'
  refine @apply_keeps s' (fun lab m => lab = s.lab ∧ down m ⊆ down s.faults ++ links) herase _ _
    hs' ⟨hs'.1, ?_⟩
  obtain ⟨hid, hfaultKind, -⟩ := storyFault_eq_ok hfault
  rw [down_insert]
  refine List.append_subset.mpr ⟨?_, (herase _ _ fault.link hs').2⟩
  split_ifs with hdown
  · rw [hfaultKind] at hdown
    have hmem : fault.link ∈ links :=
      hlinks lab ref hlab (hdown ▸ hkind) href (hid ▸ List.mem_map_of_mem hlink)
    simp [hmem]
  · exact List.nil_subset _

theorem step_whole (s : Sim) (event : Event) (hlab : build.lab.Joined [])
    (h : Whole build s.lab s.faults) (hevent : s.CutsLeaveJoined build event) :
    Whole build (step float build s event).lab (step float build s event).faults := by
  have hempty : build.lab.Joined (down ∅) := hlab
  refine step_keeps (fun lab m link hm => hm.erase link) ⟨fun _ hl => (nomatch hl), hempty⟩
    ⟨fun l hl => (Option.some.inj hl).symm, hempty⟩ h ?_ ?_
  · intro now request kind lab link fault hl hcheck hfault
    obtain ⟨rfl, rfl, -⟩ := manualFault_eq_ok hfault
    exact h.insert_manual hl hcheck
  · rintro now traffic answers task next rest rfl hstory hsteps hending
    by_cases hcut : next.kind = .fault .down ∧ ∃ ref, next.spec.lookup "link" = some (.str ref)
    · obtain ⟨hkind, ref, href⟩ := hcut
      have hsub := @down_storyStep_subset float s now traffic answers next
        (.story task.story.name) ((build.lab.find ref).map Link.id) (by
          intro lab ref' hl _ href'
          rw [href] at href'
          cases href'
          rw [h.lab_eq lab hl]
          exact List.Subset.refl _)
      refine ⟨by rw [hsub.1]; exact h.lab_eq, ?_⟩
      exact (hevent task next rest ref hstory hending hsteps hkind href).of_subset hsub.2
    · have hsub := @down_storyStep_subset float s now traffic answers next
        (.story task.story.name) [] (fun lab ref _ hkind href => absurd ⟨hkind, ref, href⟩ hcut)
      refine ⟨by rw [hsub.1]; exact h.lab_eq, h.joined.of_subset ?_⟩
      simpa using hsub.2

end Sim

/-- In a lab whose PoPs hang together, the links that are recorded as down never separate
them, in every run in which the cuts of the story steps leave the PoPs together with
what is down then. -/
theorem joined_of_cutsLeaveJoined (float : String → Option PyFloat) (build : Build) (world : World)
    (hlab : build.lab.Joined []) (events : List Event)
    (hevents : Run.EachStep (Sim.step float build) (Sim.CutsLeaveJoined build) { world := world }
      events) :
    ∀ s ∈ events.scanl (Sim.step float build) { world := world },
      build.lab.Joined (down s.faults) := by
  have hstart : Whole build ({ world := world } : Sim).lab ({ world := world } : Sim).faults :=
    ⟨fun _ hl => (nomatch hl), hlab⟩
  have hwhole := hevents.forall_scanl (fun s event h hevent => Sim.step_whole s event hlab h hevent)
    hstart
  exact fun s hs => (hwhole s hs).joined

def triangle : Build where
  lab := .load
    [ { id := "AB1", a := ⟨"A", "eth1", "clab-lab-a", {}⟩, b := ⟨"B", "eth1", "clab-lab-b", {}⟩ },
      { id := "BC1", a := ⟨"B", "eth2", "clab-lab-b", {}⟩, b := ⟨"C", "eth1", "clab-lab-c", {}⟩ },
      { id := "AC1", a := ⟨"A", "eth2", "clab-lab-a", {}⟩, b := ⟨"C", "eth2", "clab-lab-c", {}⟩ } ]
    ["A", "B", "C"]
  stories := AList.insert "outage" { name := "outage", title := "Outage", steps :=
    [{ kind := .fault .down, target := .ref "A-C", holdS := 60 }] } ∅

def outage (request : Params) : List Event :=
  [ .reset none fun _ _ _ => .done,
    .command request 0 fun _ _ _ => .done,
    .command ((AList.insert "action" (.str "story_start") ∅).insert "name" (.str "outage")) 0
      fun _ _ _ => .done,
    .storyStep 0 none fun _ _ _ => .done ]

theorem triangle_wellFormed : triangle.lab.WellFormed where
  nonempty := by decide
  nodup := by decide
  ends := by decide

/-- A visitor's cut of one link of a PoP and a story's cut of the other leave it alone. -/
theorem outage_isolates : triangle.lab.Joined [] ∧
    ∃ s ∈ (outage (cut "AB1" 60)).scanl (Sim.step (fun _ => none) triangle)
      { world := fun _ => ⟨true, []⟩ }, ¬ triangle.lab.Joined (down s.faults) := by
  refine ⟨Lab.joined_of_connected rfl, _, List.mem_of_getElem? (i := 4) rfl, ?_⟩
  rw [← Lab.connected_eq_some_true_iff triangle_wellFormed]
  decide +kernel

/-- When nobody else has cut a link of the triangle, the story leaves it whole. -/
theorem outage_alone_joined :
    ∃ s ∈ (outage (AList.insert "action" (.str "clear") ∅)).scanl
        (Sim.step (fun _ => none) triangle) { world := fun _ => ⟨true, []⟩ },
      down s.faults = ["AC1"] ∧ triangle.lab.Joined (down s.faults) := by
  have hevents : Run.EachStep (Sim.step (fun _ => none) triangle) (Sim.CutsLeaveJoined triangle)
      { world := fun _ => ⟨true, []⟩ } (outage (AList.insert "action" (.str "clear") ∅)) := by
    refine ⟨trivial, trivial, trivial, ?_, trivial⟩
    intro task next rest ref hstory _ hsteps _ href
    cases hstory
    cases hsteps
    cases href
    exact Lab.joined_of_connected rfl
  have hjoined := joined_of_cutsLeaveJoined _ triangle _ (Lab.joined_of_connected rfl) _ hevents
  refine ⟨_, List.mem_of_getElem? (i := 4) rfl, by decide +kernel, ?_⟩
  exact hjoined _ (List.mem_of_getElem? (i := 4) rfl)

end Maeto.Simulator
