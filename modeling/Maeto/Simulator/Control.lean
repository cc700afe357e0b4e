import Maeto.Simulator.Shaping

/-!
# The simulator

`Sim` holds the recorded faults, the loaded lab, the story that is told and the
interfaces of the testbed. Commands, story steps, the end of a story, resets and reaper
passes change it under one lock, so each is one step (`Event`, `Sim.step`); they come
in any order. Waiting is not modelled: a command to stop a story or to reset first
cancels the story, whose end is a step of its own.

A fault enters and leaves the record in few ways: clearing erases the entry of a link
(`Sim.clear_faults`), applying one erases it and may then write the new fault
(`Sim.apply_faults`).
-/

namespace Maeto.Simulator

open Foundation GoMap Result

inductive Site
  | clearing | replacing | applying | rollingBack | resettingUp | resettingShape
  deriving DecidableEq

abbrev Calls := String × String → ℕ → Answer

abbrev Answers := Site → Calls

inductive Target
  | ref (link : String)
  | spec (params : Params)

inductive StepKind
  | fault (kind : Kind)
  | traffic

structure Step where
  kind : StepKind
  target : Target
  holdS : PyFloat

def Step.spec (step : Step) : Params :=
  match step.target with
  | .spec params => params
  | .ref link => AList.insert "link" (.str link) ∅

structure Story where
  name : String
  title : String
  steps : List Step

structure StoryTask where
  story : Story
  steps : List Step
  ending : Bool := false

structure Sim where
  faults : Faults := ∅
  lab : Option Lab := none
  stories : GoMap String Story := ∅
  story : Option StoryTask := none
  error : Option String := none
  world : World

structure Build where
  lab : Lab
  stories : GoMap String Story

def Json.key : Json → Except Raised (Option String)
  | .str s => .ok (some s)
  | .array _ => .error .internal
  | .object _ => .error .internal
  | _ => .ok none

def Raised.isShaping : Raised → Bool
  | .shaping _ => true
  | _ => false

def Raised.storyError (title : String) : Raised → Option String
  | .fault text => some s!"story {title} failed: {text}"
  | .shaping text => some s!"story {title} failed: {text}"
  | .value text => some s!"story {title} failed: {text}"
  | _ => none

def revert (calls : Calls) (lab : Option Lab) (fault : Fault) : Attempt Raised World :=
  match lab.bind fun lab => lab.links.lookup fault.link with
  | none => fun world => (none, world)
  | some link =>
    match fault.kind with
    | .down => Attempt.each (fun e => Shaper.setUp (calls e.key) e true) (link.ends .both)
    | .impair =>
      Attempt.each (fun e => Shaper.restore (calls e.key) e) (link.ends fault.direction)

def inject (calls : Calls) (link : Link) (fault : Fault) : Attempt Raised World :=
  match fault.kind with
  | .down => Attempt.each (fun e => Shaper.setUp (calls e.key) e false) (link.ends .both)
  | .impair =>
    Attempt.each (fun e => Shaper.impair (calls e.key) e fault.impairment)
      (link.ends fault.direction)

def manualFault (float : String → Option PyFloat) (now : ℚ) (request : Params) (link : String)
    (kind : Kind) : Except Raised Fault := do
  let ttl ← ttl float request
  let fault : Fault :=
    { link := link, kind := kind, source := .manual, expiresAt := (PyFloat.finite now).add ttl }
  match kind with
  | .down => .ok fault
  | .impair => do
      let direction ← direction request
      let impairment ← impairment float request
      .ok { fault with direction := direction, impairment := impairment }

def storyFault (float : String → Option PyFloat) (now : ℚ) (step : Step) (kind : Kind)
    (source : Source) (link : Link) : Except Raised Fault := do
  let direction ← direction step.spec
  let fault : Fault :=
    { link := link.id, kind := kind, source := source, direction := direction,
      expiresAt := (PyFloat.finite now).add step.holdS }
  match kind with
  | .down => .ok fault
  | .impair => do
      let impairment ← impairment float step.spec
      .ok { fault with impairment := impairment }

namespace Sim

def link (s : Sim) (id : Json) : Except Raised Link :=
  match s.lab with
  | none => .error (.fault (s.error.getD "the lab is not loaded"))
  | some lab => do
      let key ← id.key
      match key.bind lab.links.lookup with
      | none => .error (.unknown "link" id)
      | some link => .ok link

def clear (calls : Calls) (link : String) : Attempt Raised Sim := fun s =>
  match s.faults.lookup link with
  | none => (none, s)
  | some fault =>
    let reverted := revert calls s.lab fault s.world
    (reverted.1, { s with faults := s.faults.erase link, world := reverted.2 })

def apply (answers : Answers) (fault : Fault) : Attempt Raised Sim := fun s =>
  match s.link (.str fault.link) with
  | .error raised => (some raised, s)
  | .ok link =>
    Attempt.andThen (clear (answers .replacing) fault.link) (fun s =>
      match inject (answers .applying) link fault s.world with
      | (none, world) =>
        (none, { s with faults := s.faults.insert fault.link fault, world := world })
      | (some raised, world) =>
        if raised.isShaping then
          let rolled :=
            Attempt.catching Raised.isShaping (revert (answers .rollingBack) s.lab fault) world
          (some (rolled.1.getD raised), { s with world := rolled.2 })
        else (some raised, { s with world := world })) s

def clearEach (calls : Calls) (links : List String) : Attempt Raised Sim :=
  Attempt.each (fun link => Attempt.catching Raised.isShaping (clear calls link)) links

def ofSource (s : Sim) (source : Source) : List String :=
  ((s.faults.range .listed).filter fun entry => entry.2.source = source).map Prod.fst

def expired (s : Sim) (now : ℚ) : List String :=
  ((s.faults.range .listed).filter fun entry => entry.2.expiresAt.le (.finite now)).map Prod.fst

def clearSource (calls : Calls) (source : Source) : Attempt Raised Sim := fun s =>
  clearEach calls (s.ofSource source) s

def reap (calls : Calls) (now : ℚ) : Attempt Raised Sim := fun s =>
  clearEach calls (s.expired now) s

def reset (build : Build) (failure : Option String) (answers : Answers) : Attempt Raised Sim :=
  fun s =>
    match failure with
    | some text =>
      (none, { s with faults := ∅, lab := none, stories := ∅,
                      error := some s!"cannot load the lab build: {text}" })
    | none =>
      let restored := Attempt.each (fun e => Attempt.catching Raised.isShaping
          (Attempt.andThen (Shaper.setUp (answers .resettingUp e.key) e true)
            (Shaper.restore (answers .resettingShape e.key) e)))
        (build.lab.all.flatMap (·.ends .both)) s.world
      (restored.1, { s with faults := ∅, lab := some build.lab, stories := build.stories,
                            error := none, world := restored.2 })

def startStory (name : Json) : Attempt Raised Sim := fun s =>
  match name.key with
  | .error raised => (some raised, s)
  | .ok key =>
    match key.bind s.stories.lookup, s.story with
    | none, _ => (some (.unknown "story" name), s)
    | some _, some task =>
      (some (.fault s!"{task.story.title} is already running; stop it first"), s)
    | some story, none =>
      (none, { s with story := some { story := story, steps := story.steps } })

def stopStory : Attempt Raised Sim := fun s =>
  (none, { s with story := s.story.map fun task => { task with ending := true } })

def storyStep (float : String → Option PyFloat) (now : ℚ) (traffic : Option Raised)
    (answers : Answers) (step : Step) (source : Source) : Attempt Raised Sim := fun s =>
  match step.kind with
  | .traffic => (traffic, s)
  | .fault kind =>
    match s.lab, step.spec.lookup "link" with
    | some lab, some (.str ref) =>
      Attempt.each (fun link s =>
        match storyFault float now step kind source link with
        | .error raised => (some raised, s)
        | .ok fault => apply answers fault s) (lab.find ref) s
    | _, _ => (some .internal, s)

def fault (float : String → Option PyFloat) (now : ℚ) (answers : Answers) (request : Params)
    (kind : Kind) : Attempt Raised Sim := fun s =>
  match s.link ((request.lookup "link").getD .null), s.lab with
  | .error raised, _ => (some raised, s)
  | .ok _, none => (some .internal, s)
  | .ok link, some lab =>
    match checkManual lab s.faults link.id kind >>= fun _ =>
        manualFault float now request link.id kind with
    | .error raised => (some raised, s)
    | .ok fault => apply answers fault s

def command (float : String → Option PyFloat) (now : ℚ) (answers : Answers) (request : Params) :
    Attempt Raised Sim := fun s =>
  match request.lookup "action" with
  | some (.str action) =>
    if action = "impair" then fault float now answers request .impair s
    else if action = "down" then fault float now answers request .down s
    else if action = "clear" then
      match ((request.lookup "link").getD .null).key with
      | .error raised => (some raised, s)
      | .ok none => (none, s)
      | .ok (some link) => clear (answers .clearing) link s
    else if action = "scenario_start" ∨ action = "scenario_stop" then (none, s)
    else if action = "story_start" then startStory ((request.lookup "name").getD .null) s
    else if action = "story_stop" ∨ action = "reset" then stopStory s
    else (some (.unknown "action" (.str action)), s)
  | action => (some (.unknown "action" (action.getD .null)), s)

end Sim

inductive Event
  | command (request : Params) (now : ℚ) (answers : Answers)
  | storyStep (now : ℚ) (traffic : Option Raised) (answers : Answers)
  | storyEnd (answers : Answers)
  | reset (failure : Option String) (answers : Answers)
  | reap (now : ℚ) (answers : Answers)

def Event.answers : Event → Answers
  | .command _ _ answers => answers
  | .storyStep _ _ answers => answers
  | .storyEnd answers => answers
  | .reset _ answers => answers
  | .reap _ answers => answers

namespace Sim

def tell (float : String → Option PyFloat) (now : ℚ) (traffic : Option Raised)
    (answers : Answers) (task : StoryTask) (step : Step) (rest : List Step) (s : Sim) : Sim :=
  match storyStep float now traffic answers step (.story task.story.name) s with
  | (none, s) => { s with story := some { task with steps := rest } }
  | (some raised, s) =>
    { s with story := some { task with ending := true },
             error := (raised.storyError task.story.title).or s.error }

def endStory (answers : Answers) (task : StoryTask) (s : Sim) : Sim :=
  match clearSource (answers .clearing) (.story task.story.name) s with
  | (none, s) => { s with story := none }
  | (some _, s) => s

def step (float : String → Option PyFloat) (build : Build) (s : Sim) : Event → Sim
  | .command request now answers => (command float now answers request s).2
  | .storyStep now traffic answers =>
    match s.story with
    | some { story, steps := next :: rest, ending := false } =>
      tell float now traffic answers { story, steps := next :: rest } next rest s
    | _ => s
  | .storyEnd answers =>
    match s.story with
    | some task => if task.ending || task.steps.isEmpty then endStory answers task s else s
    | none => s
  | .reset failure answers => (reset build failure answers s).2
  | .reap now answers => (reap (answers .clearing) now s).2

end Sim

/-! ### How the record of faults changes -/

section Parsed

variable {float : String → Option PyFloat} {now : ℚ} {fault : Fault} {kind : Kind}

theorem manualFault_eq_ok {request : Params} {link : String}
    (h : manualFault float now request link kind = .ok fault) :
    fault.link = link ∧ fault.kind = kind ∧ fault.source = .manual ∧
      (∃ x, ttl float request = .ok x ∧ fault.expiresAt = (PyFloat.finite now).add x) ∧
      (kind = .down ∧ fault.impairment = {} ∨
        kind = .impair ∧ impairment float request = .ok fault.impairment) := by
  obtain ⟨x, hx, h⟩ := bind_eq_ok.mp h
  cases kind with
  | down =>
    cases h
    exact ⟨rfl, rfl, rfl, ⟨x, hx, rfl⟩, Or.inl ⟨rfl, rfl⟩⟩
  | impair =>
    obtain ⟨direction, -, h⟩ := bind_eq_ok.mp h
    obtain ⟨imp, himp, h⟩ := bind_eq_ok.mp h
    cases h
    exact ⟨rfl, rfl, rfl, ⟨x, hx, rfl⟩, Or.inr ⟨rfl, himp⟩⟩

theorem storyFault_eq_ok {step : Step} {source : Source} {link : Link}
    (h : storyFault float now step kind source link = .ok fault) :
    fault.link = link.id ∧ fault.kind = kind ∧ fault.source = source ∧
      (kind = .impair → impairment float step.spec = .ok fault.impairment) := by
  obtain ⟨direction, -, h⟩ := bind_eq_ok.mp h
  cases kind with
  | down =>
    cases h
    exact ⟨rfl, rfl, rfl, fun h => nomatch h⟩
  | impair =>
    obtain ⟨imp, himp, h⟩ := bind_eq_ok.mp h
    cases h
    exact ⟨rfl, rfl, rfl, fun _ => himp⟩

end Parsed

namespace Sim

variable {float : String → Option PyFloat} {build : Build} {s : Sim}

theorem mem_expired {link : String} {now : ℚ} : link ∈ s.expired now ↔
    ∃ fault, s.faults.lookup link = some fault ∧ fault.expiresAt.le (.finite now) = true := by
  simp only [expired, List.mem_map, List.mem_filter, Prod.exists, mem_range, and_assoc]
  constructor
  · rintro ⟨_, fault, hlookup, hle, rfl⟩
    exact ⟨fault, hlookup, hle⟩
  · rintro ⟨fault, hlookup, hle⟩
    exact ⟨link, fault, hlookup, hle, rfl⟩

theorem clear_lab (calls : Calls) (link : String) (s : Sim) :
    (clear calls link s).2.lab = s.lab := by
  unfold clear
  split <;> rfl

theorem clear_faults (calls : Calls) (link : String) (s : Sim) :
    (clear calls link s).2.faults = s.faults.erase link := by
  unfold clear
  split
  · next h => exact (erase_of_lookup_eq_none h).symm
  · rfl

theorem apply_lab (answers : Answers) (fault : Fault) (s : Sim) :
    (apply answers fault s).2.lab = s.lab := by
  unfold apply
  split
  · rfl
  · refine @Attempt.andThen_induction _ _ (fun s' : Sim => s'.lab = s.lab) _ _ ?_ ?_ _ rfl
    · intro s' h
      rw [clear_lab, h]
    · intro s' h
      dsimp only
      split
      · exact h
      · split_ifs <;> exact h

/-- An applied fault is recorded for its link; one that failed leaves the record as it is
or without an entry for the link. -/
theorem apply_faults (answers : Answers) (fault : Fault) (s : Sim) :
    (apply answers fault s).1 = none ∧
        (apply answers fault s).2.faults = s.faults.insert fault.link fault ∨
      (∃ raised, (apply answers fault s).1 = some raised) ∧
        ((apply answers fault s).2.faults = s.faults ∨
          (apply answers fault s).2.faults = s.faults.erase fault.link) := by
  unfold apply
  split
  · exact Or.inr ⟨⟨_, rfl⟩, Or.inl rfl⟩
  · have hfaults := clear_faults (answers .replacing) fault.link s
    rcases hclear : clear (answers .replacing) fault.link s with ⟨_ | raised, s'⟩
    · rw [Attempt.andThen_of_none hclear]
      rw [hclear] at hfaults
      dsimp only
      split
      · refine Or.inl ⟨rfl, ?_⟩
        dsimp only at hfaults ⊢
        rw [hfaults, insert_erase]
      · split_ifs <;> exact Or.inr ⟨⟨_, rfl⟩, Or.inr hfaults⟩
    · rw [Attempt.andThen_of_some hclear]
      rw [hclear] at hfaults
      exact Or.inr ⟨⟨_, rfl⟩, Or.inr hfaults⟩

section Induction

variable {P : Sim → Prop} {now : ℚ} {answers : Answers}

theorem clearEach_induction {calls : Calls} {links : List String} (h : P s)
    (hclear : ∀ s link, P s → P (clear calls link s).2) : P (clearEach calls links s).2 := by
  unfold clearEach
  refine Attempt.each_induction (fun link _ s hs => ?_) h
  exact hclear s link hs

theorem storyStep_induction {traffic : Option Raised} {step : Step} {source : Source} (h : P s)
    (happly : ∀ lab ref link kind fault, s.lab = some lab → step.kind = .fault kind →
      step.spec.lookup "link" = some (.str ref) → link ∈ lab.find ref →
      storyFault float now step kind source link = .ok fault →
      ∀ s, P s → P (apply answers fault s).2) :
    P (storyStep float now traffic answers step source s).2 := by
  unfold storyStep
  split
  · exact h
  · next kind hkind =>
      split
      · next lab ref hlab href =>
          refine Attempt.each_induction (fun link hlink s hs => ?_) h
          split
          · exact hs
          · next fault hfault =>
              exact happly lab ref link kind fault hlab hkind href hlink hfault s hs
      · exact h

theorem fault_induction {request : Params} {kind : Kind} (h : P s)
    (happly : ∀ lab link fault, s.lab = some lab → checkManual lab s.faults link kind = .ok () →
      manualFault float now request link kind = .ok fault → P (apply answers fault s).2) :
    P (fault float now answers request kind s).2 := by
  unfold Sim.fault
  split
  · exact h
  · exact h
  · next link lab _ hlab =>
      split
      · exact h
      · next fault hfault =>
          obtain ⟨_, hcheck, hparse⟩ := bind_eq_ok.mp hfault
          exact happly lab link.id fault hlab hcheck hparse

/-- `s'` differs from `s` in the story and the error only. -/
structure SameFaults (s s' : Sim) : Prop where
  lab : s'.lab = s.lab
  faults : s'.faults = s.faults
  world : s'.world = s.world

theorem startStory_sameFaults (name : Json) (s : Sim) : SameFaults s (startStory name s).2 := by
  unfold startStory
  split
  · exact ⟨rfl, rfl, rfl⟩
  · split <;> exact ⟨rfl, rfl, rfl⟩

theorem tell_sameFaults (float : String → Option PyFloat) (now : ℚ) (traffic : Option Raised)
    (answers : Answers) (task : StoryTask) (next : Step) (rest : List Step) (s : Sim) :
    SameFaults (storyStep float now traffic answers next (.story task.story.name) s).2
      (tell float now traffic answers task next rest s) := by
  unfold tell
  rcases storyStep float now traffic answers next (.story task.story.name) s with ⟨_ | raised, s'⟩
  · exact ⟨rfl, rfl, rfl⟩
  · exact ⟨rfl, rfl, rfl⟩

theorem endStory_sameFaults (answers : Answers) (task : StoryTask) (s : Sim) :
    SameFaults (clearSource (answers .clearing) (.story task.story.name) s).2
      (endStory answers task s) := by
  unfold endStory
  rcases clearSource (answers .clearing) (.story task.story.name) s with ⟨_ | raised, s'⟩
  · exact ⟨rfl, rfl, rfl⟩
  · exact ⟨rfl, rfl, rfl⟩

theorem command_induction {request : Params} (h : P s)
    (hcongr : ∀ s s', SameFaults s s' → P s → P s')
    (hclear : ∀ s link, P s → P (clear (answers .clearing) link s).2)
    (hfault : ∀ kind, P (fault float now answers request kind s).2) :
    P (command float now answers request s).2 := by
  unfold command
  split
  · split_ifs
    · exact hfault .impair
    · exact hfault .down
    · split
      · exact h
      · exact h
      · exact hclear s _ h
    · exact h
    · exact hcongr s _ (startStory_sameFaults _ s) h
    · exact hcongr s _ ⟨rfl, rfl, rfl⟩ h
    · exact h
  · exact h

/-- A property of the lab, the record and the testbed is kept by every step, when clearing
a link, a visitor's fault, a step of the story and a reset keep it. -/
theorem step_induction {event : Event} (h : P s) (hcongr : ∀ s s', SameFaults s s' → P s → P s')
    (hclear : ∀ s link, P s → P (clear (event.answers .clearing) link s).2)
    (hfault : ∀ request now kind, event = .command request now event.answers →
      P (fault float now event.answers request kind s).2)
    (hstory : ∀ now traffic task next rest, event = .storyStep now traffic event.answers →
      s.story = some task → task.steps = next :: rest → task.ending = false →
      P (storyStep float now traffic event.answers next (.story task.story.name) s).2)
    (hreset : ∀ failure, event = .reset failure event.answers →
      P (reset build failure event.answers s).2) :
    P (step float build s event) := by
  cases event with
  | command request now answers =>
    exact command_induction h hcongr hclear fun kind => hfault request now kind rfl
  | storyStep now traffic answers =>
    simp only [step]
    split
    · next story next rest hstoryEq =>
        exact hcongr _ _ (tell_sameFaults _ _ _ _ _ next rest s)
          (hstory now traffic _ next rest rfl hstoryEq rfl rfl)
    · exact h
  | storyEnd answers =>
    simp only [step]
    split
    · next task _ =>
        split_ifs
        · exact hcongr _ _ (endStory_sameFaults answers task s) (clearEach_induction h hclear)
        · exact h
    · exact h
  | reset failure answers => exact hreset failure rfl
  | reap now answers => exact clearEach_induction h hclear

end Induction

section Record

-- a property of the loaded lab and the record
variable {P : Option Lab → Faults → Prop}
  (herase : ∀ lab m link, P lab m → P lab (AList.erase link m))

include herase

theorem apply_keeps {answers : Answers} {fault : Fault} (h : P s.lab s.faults)
    (hinsert : P s.lab (s.faults.insert fault.link fault)) :
    P (apply answers fault s).2.lab (apply answers fault s).2.faults := by
  rw [apply_lab]
  rcases apply_faults answers fault s with ⟨-, heq⟩ | ⟨-, heq | heq⟩ <;> rw [heq]
  · exact hinsert
  · exact h
  · exact herase _ _ _ h

/-- A property of the record that survives the loss of an entry is kept by every step, when
a visitor's checked fault and the steps of a story keep it. -/
theorem step_keeps (hnone : P none ∅) (hsome : P (some build.lab) ∅) {event : Event}
    (h : P s.lab s.faults)
    (hmanual : ∀ now request kind lab link fault, s.lab = some lab →
      checkManual lab s.faults link kind = .ok () →
      manualFault float now request link kind = .ok fault →
      P s.lab (s.faults.insert fault.link fault))
    (hstory : ∀ now traffic answers task next rest, event = .storyStep now traffic answers →
      s.story = some task → task.steps = next :: rest → task.ending = false →
      P (storyStep float now traffic answers next (.story task.story.name) s).2.lab
        (storyStep float now traffic answers next (.story task.story.name) s).2.faults) :
    P (step float build s event).lab (step float build s event).faults := by
  refine @step_induction float build s (fun s => P s.lab s.faults) event h ?_ ?_ ?_ ?_ ?_
  · intro s s' hsame hs
    rwa [hsame.lab, hsame.faults]
  · intro s link hs
    rw [clear_lab, clear_faults]
    exact herase _ _ _ hs
  · intro request now kind _
    refine @fault_induction float s (fun s => P s.lab s.faults) now event.answers request kind h ?_
    intro lab link fault hlab hcheck hfault
    exact apply_keeps herase h (hmanual now request kind lab link fault hlab hcheck hfault)
  · intro now traffic task next rest hevent hstoryEq hsteps hending
    exact hstory now traffic _ task next rest hevent hstoryEq hsteps hending
  · intro failure _
    unfold reset
    split
    · exact hnone
    · exact hsome

end Record

end Sim

end Maeto.Simulator
