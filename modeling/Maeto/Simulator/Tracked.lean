import Maeto.Simulator.Bounds

/-!
# Whether a fault on the wire is still recorded

The entry of a fault is taken out of the record before the fault is reverted, so a revert
that fails leaves an end as it is and nothing remembers it. As long as reverts, roll-backs
and resets go through and no story is cancelled while it applies a fault, every end that
is down or not shaped as the generator left it belongs to a recorded link. `Fits` says
how far an end may be from its shape while its link has a given entry, `Tracked` that all
of them do.
-/

namespace Maeto.Simulator

open Foundation AList

/-- No interface is an end of two links, or both ends of one. -/
def Lab.Separate (lab : Lab) : Prop :=
  ∀ link ∈ lab.all, ∀ link' ∈ lab.all, ∀ e ∈ link.ends .both, ∀ e' ∈ link'.ends .both,
    e.key = e'.key → link = link' ∧ e = e'

instance (lab : Lab) : Decidable lab.Separate :=
  inferInstanceAs (Decidable (∀ link ∈ lab.all, ∀ link' ∈ lab.all, ∀ e ∈ link.ends .both,
    ∀ e' ∈ link'.ends .both, e.key = e'.key → link = link' ∧ e = e'))

theorem Link.mem_ends_both {link : Link} {direction : Direction} {e : End}
    (h : e ∈ link.ends direction) : e ∈ link.ends .both := by
  rcases Link.mem_ends h with rfl | rfl <;> simp [Link.ends]

/-- How an end may look while its link has the entry: it is down only under a cut, and
not in its own shape only under an impairment in its direction. -/
structure Fits (link : Link) (entry : Option Fault) (e : End) (wire : Wire) : Prop where
  up : wire.up = true ∨ ∃ fault ∈ entry, fault.kind = .down
  qdiscs : wire.qdiscs = e.shape.commands ∨
    ∃ fault ∈ entry, fault.kind = .impair ∧ e ∈ link.ends fault.direction

def LinkFits (link : Link) (entry : Option Fault) (world : World) : Prop :=
  ∀ e ∈ link.ends .both, Fits link entry e (world e.key)

theorem Fits.eq_of_none {link : Link} {e : End} {wire : Wire} (h : Fits link none e wire) :
    wire = ⟨true, e.shape.commands⟩ := by
  have hup : wire.up = true := h.up.resolve_right (by simp)
  have hqdiscs : wire.qdiscs = e.shape.commands := h.qdiscs.resolve_right (by simp)
  cases wire
  simp_all

theorem fits_none (link : Link) (e : End) : Fits link none e ⟨true, e.shape.commands⟩ :=
  ⟨Or.inl rfl, Or.inl rfl⟩

section Changes

variable {f : End → Attempt Raised World} {ends : List End} {world : World}

theorem each_frame {k : String × String} (hf : ∀ e ∈ ends, ∀ w, (f e w).2 k = w k) :
    (Attempt.each f ends world).2 k = world k := by
  refine @Attempt.each_induction _ _ _ _ _ (fun w : World => w k = world k)
    (fun e he w hw => ?_) _ rfl
  rw [hf e he w, hw]

theorem each_of_done {effect : End → Wire → Wire}
    (hf : ∀ e ∈ ends, ∀ w, f e w = (none, w.change e.key (effect e)))
    (hsame : ∀ e ∈ ends, ∀ e' ∈ ends, e.key = e'.key → e = e')
    (htwice : ∀ e wire, effect e (effect e wire) = effect e wire) :
    (Attempt.each f ends world).1 = none ∧
      ∀ e ∈ ends, (Attempt.each f ends world).2 e.key = effect e (world e.key) := by
  induction ends generalizing world with
  | nil => exact ⟨rfl, List.forall_mem_nil _⟩
  | cons e ends ih =>
    have hrest : ∀ e' ∈ ends, ∀ w, f e' w = (none, w.change e'.key (effect e')) :=
      fun e' he' => hf e' (List.mem_cons_of_mem e he')
    obtain ⟨hnone, hend⟩ := @ih (world.change e.key (effect e)) hrest
      fun a ha b hb => hsame a (List.mem_cons_of_mem e ha) b (List.mem_cons_of_mem e hb)
    rw [Attempt.each, Attempt.andThen_of_none (hf e List.mem_cons_self world)]
    refine ⟨hnone, fun e' he' => ?_⟩
    by_cases hkey : e'.key = e.key
    · obtain rfl := hsame e' he' e List.mem_cons_self hkey
      by_cases hmem : e' ∈ ends
      · rw [hend e' hmem, World.change, Function.update_self, htwice]
      · rw [each_frame, World.change, Function.update_self]
        intro a ha w
        rw [hrest a ha w]
        refine Function.update_of_ne (fun hk => ?_) _ _
        exact hmem (hsame e' he' a (List.mem_cons_of_mem _ ha) hk ▸ ha)
    · have hmem : e' ∈ ends := by
        rcases List.mem_cons.mp he' with rfl | hmem
        · exact absurd rfl hkey
        · exact hmem
      rw [hend e' hmem, World.change, Function.update_of_ne hkey]

end Changes

section Link

variable {lab : Lab} {link : Link} {fault : Fault} {calls : Calls} {world : World}

theorem revert_of_mem (hlink : link ∈ lab.all) (hfault : fault.link = link.id) :
    revert calls (some lab) fault = match fault.kind with
      | .down => Attempt.each (fun e => Shaper.setUp (calls e.key) e true) (link.ends .both)
      | .impair =>
        Attempt.each (fun e => Shaper.restore (calls e.key) e) (link.ends fault.direction) := by
  have hlookup : ((some lab).bind fun lab => lab.links.lookup fault.link) = some link :=
    hfault ▸ Lab.mem_all.mp hlink
  cases hkind : fault.kind <;> simp only [revert, hlookup, hkind]

theorem revert_frame (hlink : link ∈ lab.all) (hfault : fault.link = link.id) {k : String × String}
    (hk : ∀ e ∈ link.ends .both, k ≠ e.key) :
    (revert calls (some lab) fault world).2 k = world k := by
  rw [revert_of_mem hlink hfault]
  cases fault.kind with
  | down => exact each_frame fun e he w => Shaper.setUp_of_ne (hk e he)
  | impair => exact each_frame fun e he w => Shaper.replace_of_ne (hk e (Link.mem_ends_both he))

theorem revert_fits (hsep : lab.Separate) (hlink : link ∈ lab.all) (hfault : fault.link = link.id)
    (hcalls : ∀ key n, calls key n = .done) (h : LinkFits link (some fault) world) :
    (revert calls (some lab) fault world).1 = none ∧
      LinkFits link none (revert calls (some lab) fault world).2 := by
  have hsame : ∀ direction, ∀ e ∈ link.ends direction, ∀ e' ∈ link.ends direction,
      e.key = e'.key → e = e' := fun direction e he e' he' hkey =>
    (hsep link hlink link hlink e (Link.mem_ends_both he) e' (Link.mem_ends_both he') hkey).2
  rw [revert_of_mem hlink hfault]
  cases hkind : fault.kind with
  | down =>
    obtain ⟨hnone, hends⟩ := @each_of_done _ (link.ends .both) world _
      (fun e _ w => Shaper.setUp_of_done (hcalls e.key) w) (hsame .both) (fun _ _ => rfl)
    refine ⟨hnone, fun e he => ?_⟩
    dsimp only
    rw [hends e he]
    refine ⟨Or.inl rfl, Or.inl ?_⟩
    refine (h e he).qdiscs.resolve_right ?_
    rintro ⟨fault', hfault', himpair, -⟩
    cases hfault'
    rw [hkind] at himpair
    cases himpair
  | impair =>
    obtain ⟨hnone, hends⟩ := @each_of_done _ (link.ends fault.direction) world _
      (fun e _ w => Shaper.restore_of_done (hcalls e.key) w) (hsame _) (fun _ _ => rfl)
    refine ⟨hnone, fun e he => ?_⟩
    have hup : (world e.key).up = true := by
      refine (h e he).up.resolve_right ?_
      rintro ⟨fault', hfault', hdown⟩
      cases hfault'
      rw [hkind] at hdown
      cases hdown
    dsimp only
    by_cases hmem : e ∈ link.ends fault.direction
    · rw [hends e hmem]
      exact ⟨Or.inl hup, Or.inl rfl⟩
    · rw [each_frame]
      · refine ⟨Or.inl hup, Or.inl ((h e he).qdiscs.resolve_right ?_)⟩
        rintro ⟨fault', hfault', -, hmem'⟩
        cases hfault'
        exact hmem hmem'
      · intro e' he' w
        refine Shaper.replace_of_ne fun hkey => hmem ?_
        exact (hsame .both e he e' (Link.mem_ends_both he') hkey) ▸ he'

theorem inject_frame {k : String × String} (hk : ∀ e ∈ link.ends .both, k ≠ e.key) :
    (inject calls link fault world).2 k = world k := by
  unfold inject
  cases fault.kind with
  | down => exact each_frame fun e he w => Shaper.setUp_of_ne (hk e he)
  | impair => exact each_frame fun e he w => Shaper.impair_of_ne (hk e (Link.mem_ends_both he))

theorem inject_fits (hsep : lab.Separate) (hlink : link ∈ lab.all) (h : LinkFits link none world) :
    LinkFits link (some fault) (inject calls link fault world).2 := by
  intro e he
  have hwire := (h e he).eq_of_none
  unfold inject
  cases hkind : fault.kind with
  | down =>
    refine ⟨Or.inr ⟨fault, rfl, hkind⟩, Or.inl ?_⟩
    refine @Attempt.each_induction _ _ _ _ _
      (fun w : World => (w e.key).qdiscs = e.shape.commands) (fun e' _ w hw => ?_) _ ?_
    · rw [Shaper.setUp_qdiscs, hw]
    · rw [hwire]
  | impair =>
    constructor
    · refine Or.inl (@Attempt.each_induction _ _ _ _ _
        (fun w : World => (w e.key).up = true) (fun e' _ w hw => ?_) _ ?_)
      · rw [Shaper.impair_up, hw]
      · rw [hwire]
    · by_cases hmem : e ∈ link.ends fault.direction
      · exact Or.inr ⟨fault, rfl, hkind, hmem⟩
      · refine Or.inl ?_
        dsimp only
        rw [each_frame, hwire]
        intro e' he' w
        refine Shaper.impair_of_ne fun hkey => hmem ?_
        exact (hsep link hlink link hlink e he e' (Link.mem_ends_both he') hkey).2 ▸ he'

theorem inject_raised (hcalls : ∀ key n took, calls key n ≠ .cancelled took)
    (hrate : fault.kind = .impair → ∀ rate ∈ fault.impairment.rateMbps, ∃ q, rate = .finite q)
    {raised : Raised} (h : (inject calls link fault world).1 = some raised) :
    raised.isShaping = true := by
  unfold inject at h
  cases hkind : fault.kind with
  | down =>
    rw [hkind] at h
    obtain ⟨e, -, w, h⟩ := Attempt.of_each_eq_some h
    obtain ⟨text, rfl⟩ := Shaper.perform_raised (hcalls e.key) h
    rfl
  | impair =>
    rw [hkind] at h
    obtain ⟨e, -, w, h⟩ := Attempt.of_each_eq_some h
    obtain ⟨commands, hcommands⟩ := @Shaper.impairCommands_ok e _ (hrate hkind)
    rw [Shaper.impair, hcommands] at h
    obtain ⟨text, rfl⟩ := Shaper.perform_raised (hcalls e.key) h
    rfl

end Link

/-- Every shaper call that undoes something is done, and no task is cancelled while it
applies a fault. -/
structure Answers.Smooth (answers : Answers) : Prop where
  undoing : ∀ site, site ≠ .applying → ∀ key n, answers site key n = .done
  applying : ∀ key n took, answers .applying key n ≠ .cancelled took

/-- The lab is loaded, every entry is under its own link, and every end of the lab looks as
the entry of its link allows. -/
structure Tracked (lab : Lab) (s : Sim) : Prop where
  lab_eq : s.lab = some lab
  link_eq : ∀ id fault, s.faults.lookup id = some fault → fault.link = id
  fits : ∀ link ∈ lab.all, LinkFits link (s.faults.lookup link.id) s.world

namespace Tracked

variable {lab : Lab} {s s' : Sim} {link : Link}

theorem update (hsep : lab.Separate) (h : Tracked lab s) (hlink : link ∈ lab.all)
    (hlab : s'.lab = s.lab)
    (hothers : ∀ id, id ≠ link.id → s'.faults.lookup id = s.faults.lookup id)
    (hframe : ∀ k, (∀ e ∈ link.ends .both, k ≠ e.key) → s'.world k = s.world k)
    (hlinkEq : ∀ fault, s'.faults.lookup link.id = some fault → fault.link = link.id)
    (hfits : LinkFits link (s'.faults.lookup link.id) s'.world) : Tracked lab s' where
  lab_eq := hlab.trans h.lab_eq
  link_eq := by
    intro id fault hid
    by_cases hne : id = link.id
    · exact hne ▸ hlinkEq fault (hne ▸ hid)
    · exact h.link_eq id fault (hothers id hne ▸ hid)
  fits := by
    intro other hother
    by_cases hne : other.id = link.id
    · have heq : other = link := by
        have hlookup := Lab.mem_all.mp hother
        rw [hne, Lab.mem_all.mp hlink] at hlookup
        exact (Option.some.inj hlookup).symm
      exact heq ▸ hfits
    · intro e he
      rw [hothers other.id hne, hframe e.key]
      · exact h.fits other hother e he
      · intro e' he' hkey
        exact hne (congrArg Link.id (hsep other hother link hlink e he e' he' hkey).1)

theorem clear (hsep : lab.Separate) (h : Tracked lab s) {calls : Calls}
    (hcalls : ∀ key n, calls key n = .done) (id : String) :
    (Sim.clear calls id s).1 = none ∧ Tracked lab (Sim.clear calls id s).2 := by
  unfold Sim.clear
  cases hlookup : s.faults.lookup id with
  | none => exact ⟨rfl, h⟩
  | some fault =>
    have hid := h.link_eq id fault hlookup
    dsimp only
    rw [h.lab_eq]
    cases hlink : lab.links.lookup id with
    | none =>
      -- no link of the lab has the entry
      have hrevert : revert calls (some lab) fault = fun world => (none, world) := by
        unfold revert
        rw [show ((some lab).bind fun lab => lab.links.lookup fault.link) = none from
          hid ▸ hlink]
      rw [hrevert]
      refine ⟨rfl, rfl, fun id' fault' hid' => ?_, fun other hother => ?_⟩
      · rw [GoMap.lookup_erase_eq] at hid'
        split_ifs at hid'
        exact h.link_eq id' fault' hid'
      · have hne : other.id ≠ id := by
          rintro rfl
          rw [Lab.mem_all.mp hother] at hlink
          cases hlink
        have hfits := h.fits other hother
        rwa [← lookup_erase_ne hne] at hfits
    | some link =>
      have hmem : link ∈ lab.all := Lab.mem_all.mpr ((lab.links_id id link hlink).symm ▸ hlink)
      obtain rfl := lab.links_id id link hlink
      have hfits : LinkFits link (some fault) s.world := hlookup ▸ h.fits link hmem
      obtain ⟨hnone, hreverted⟩ := revert_fits hsep hmem hid hcalls hfits
      refine ⟨hnone, h.update hsep hmem h.lab_eq.symm ?_ ?_ ?_ ?_⟩
      · exact fun id hne => lookup_erase_ne hne
      · exact fun k hk => revert_frame hmem hid hk
      · intro fault' hfault'
        rw [lookup_erase] at hfault'
        cases hfault'
      · rw [lookup_erase]
        exact hreverted

theorem link_eq_ok (h : Tracked lab s) {id : String} {link : Link}
    (hfound : s.link (.str id) = .ok link) : link ∈ lab.all ∧ id = link.id := by
  simp only [Sim.link, h.lab_eq, Json.key, Result.ok_bind, Option.bind_some] at hfound
  split at hfound
  · cases hfound
  · next hlookup =>
      rw [Except.ok.inj hfound] at hlookup
      have hid := (lab.links_id _ _ hlookup).symm
      exact ⟨Lab.mem_all.mpr (hid ▸ hlookup), hid⟩

variable {link : Link} {fault : Fault} {world : World}

/-- The fault is recorded once it is on the ends of its link. -/
theorem insert (hsep : lab.Separate) (h : Tracked lab s) (hmem : link ∈ lab.all)
    (hid : fault.link = link.id) (hfits : LinkFits link (some fault) world)
    (hframe : ∀ k, (∀ e ∈ link.ends .both, k ≠ e.key) → world k = s.world k) :
    Tracked lab { s with faults := s.faults.insert fault.link fault, world } := by
  refine h.update hsep hmem rfl ?_ hframe ?_ ?_
  · intro id hne
    exact lookup_insert_ne (hid ▸ hne)
  · intro fault' hfault'
    rw [← hid, lookup_insert] at hfault'
    exact Option.some.inj hfault' ▸ hid
  · rw [← hid, lookup_insert]
    exact hfits

/-- Applying a fault keeps every end as its entry allows: it is recorded when it is on, and
rolled back when it is not. -/
theorem apply (hsep : lab.Separate) (h : Tracked lab s) {answers : Answers}
    (hanswers : answers.Smooth) {fault : Fault}
    (hrate : fault.kind = .impair → ∀ rate ∈ fault.impairment.rateMbps, ∃ q, rate = .finite q) :
    Tracked lab (Sim.apply answers fault s).2 := by
  have hundo : ∀ site, site ≠ .applying → ∀ key n, answers site key n = .done := hanswers.undoing
  unfold Sim.apply
  cases hfound : s.link (.str fault.link) with
  | error raised => exact h
  | ok link =>
    obtain ⟨hmem, hid⟩ := h.link_eq_ok hfound
    obtain ⟨hnone, hs'⟩ := h.clear hsep (hundo .replacing (by decide)) fault.link
    have hfaults := Sim.clear_faults (answers .replacing) fault.link s
    generalize hclear : Sim.clear (answers .replacing) fault.link s = cleared at *
    obtain ⟨raised, s'⟩ := cleared
    dsimp only at hnone hs' hfaults ⊢
    subst hnone
    rw [Attempt.andThen_of_none hclear]
    have hentry : s'.faults.lookup link.id = none := by
      rw [hfaults, hid, lookup_erase]
    have hclean : LinkFits link none s'.world := hentry ▸ hs'.fits link hmem
    have hfits := @inject_fits lab link fault (answers .applying) s'.world hsep hmem hclean
    have hframe : ∀ k, (∀ e ∈ link.ends .both, k ≠ e.key) →
        (inject (answers .applying) link fault s'.world).2 k = s'.world k :=
      fun k hk => inject_frame hk
    have hraised := @inject_raised link fault (answers .applying) s'.world hanswers.applying hrate
    rcases hinject : inject (answers .applying) link fault s'.world with ⟨_ | raised, world⟩
    · rw [hinject] at hfits hframe
      exact hs'.insert hsep hmem hid hfits hframe
    · rw [hinject] at hfits hframe hraised
      dsimp only
      rw [if_pos (hraised rfl), hs'.lab_eq]
      obtain ⟨-, hrolled⟩ := revert_fits hsep hmem hid (hundo .rollingBack (by decide)) hfits
      refine hs'.update hsep hmem hs'.lab_eq.symm (fun _ _ => rfl) ?_ ?_ ?_
      · exact fun k hk => (revert_frame hmem hid hk).trans (hframe k hk)
      · intro fault' hfault'
        rw [hentry] at hfault'
        cases hfault'
      · rw [hentry]
        exact hrolled

end Tracked

namespace Sim

variable {float : String → Option PyFloat} {build : Build} {s : Sim}

theorem reset_tracked (hsep : build.lab.Separate) {answers : Answers} (hanswers : answers.Smooth)
    (s : Sim) : Tracked build.lab (reset build none answers s).2 := by
  refine ⟨rfl, fun id fault h => ?_, fun link hlink e he => ?_⟩
  · cases h
  have hmem : ∀ {link e}, link ∈ build.lab.all → e ∈ link.ends .both →
      e ∈ build.lab.all.flatMap (·.ends .both) := fun hl he => List.mem_flatMap.mpr ⟨_, hl, he⟩
  obtain ⟨-, hends⟩ := @each_of_done (fun e => Attempt.catching Raised.isShaping
      (Attempt.andThen (Shaper.setUp (answers .resettingUp e.key) e true)
        (Shaper.restore (answers .resettingShape e.key) e)))
    (build.lab.all.flatMap (·.ends .both)) s.world (fun e _ => ⟨true, e.shape.commands⟩) (by
      intro e _ w
      have hup := @Shaper.setUp_of_done _ e (hanswers.undoing .resettingUp (by decide) e.key) w
      rw [Attempt.catching, Attempt.andThen_of_none hup,
        Shaper.restore_of_done (hanswers.undoing .resettingShape (by decide) e.key)]
      simp [World.change]) (by
      intro e he e' he' hkey
      obtain ⟨link, hlink, he⟩ := List.mem_flatMap.mp he
      obtain ⟨link', hlink', he'⟩ := List.mem_flatMap.mp he'
      exact (hsep link hlink link' hlink' e he e' he' hkey).2) (fun _ _ => rfl)
  change Fits link none e ((Attempt.each _ _ s.world).2 e.key)
  rw [hends e (hmem hlink he)]
  exact fits_none link e

/-- The condition on what happens: shaper calls that undo something are done, no task is
cancelled while it applies a fault, a rate is a number, and a reset finds the lab. -/
def Smooth (float : String → Option PyFloat) (s : Sim) (event : Event) : Prop :=
  event.answers.Smooth ∧ match event with
    | .command request _ _ => ¬ GivesNan float request "rate_mbps"
    | .storyStep _ _ _ => ∀ task next rest, s.story = some task → task.steps = next :: rest →
        ¬ GivesNan float next.spec "rate_mbps"
    | .reset failure _ => failure = none
    | _ => True

theorem step_tracked (hsep : build.lab.Separate) (s : Sim) (event : Event)
    (h : Tracked build.lab s) (hevent : s.Smooth float event) :
    Tracked build.lab (step float build s event) := by
  obtain ⟨hanswers, hevent⟩ := hevent
  refine step_induction h ?_ ?_ ?_ ?_ ?_
  · intro s s' hsame hs
    refine ⟨hsame.lab.trans hs.lab_eq, ?_, ?_⟩
    · rw [hsame.faults]
      exact hs.link_eq
    · rw [hsame.faults, hsame.world]
      exact hs.fits
  · intro s link hs
    exact (hs.clear hsep (hanswers.undoing .clearing (by decide)) link).2
  · intro request now kind heq
    rw [heq] at hevent
    refine fault_induction h fun lab link fault _ _ hfault => h.apply hsep hanswers ?_
    obtain ⟨-, hkind, -, -, hread⟩ := manualFault_eq_ok hfault
    intro himpair
    rcases hread with ⟨hdown, -⟩ | ⟨-, hread⟩
    · rw [hkind, hdown] at himpair
      cases himpair
    · exact rate_finite hread hevent
  · intro now traffic task next rest heq hstory hsteps _
    rw [heq] at hevent
    refine storyStep_induction h fun lab ref link kind fault _ _ _ _ hfault s hs =>
      hs.apply hsep hanswers ?_
    obtain ⟨-, hkind, -, hread⟩ := storyFault_eq_ok hfault
    exact fun himpair =>
      rate_finite (hread (hkind ▸ himpair)) (hevent task next rest hstory hsteps)
  · intro failure heq
    rw [heq] at hevent
    rw [show failure = none from hevent]
    exact reset_tracked hsep hanswers s

end Sim

/-- From the first reset on, an end that is down or not in its own shape belongs to a link
with a recorded fault, in every run in which shaper calls that undo something are done,
no task is cancelled while it applies a fault, rates are numbers and resets find the lab. -/
theorem recorded_of_smooth (float : String → Option PyFloat) (build : Build)
    (hsep : build.lab.Separate) (world : World) (answers : Answers) (hanswers : answers.Smooth)
    (events : List Event)
    (hevents : Run.EachStep (Sim.step float build) (Sim.Smooth float)
      (Sim.step float build { world := world } (.reset none answers)) events) :
    ∀ s ∈ events.scanl (Sim.step float build)
        (Sim.step float build { world := world } (.reset none answers)),
      ∀ link ∈ build.lab.all, ∀ e ∈ link.ends .both,
        s.world e.key ≠ ⟨true, e.shape.commands⟩ → link.id ∈ s.faults := by
  intro s hs link hlink e he hdirty
  have htracked := hevents.forall_scanl
    (fun s event h hevent => Sim.step_tracked hsep s event h hevent)
    (Sim.reset_tracked hsep hanswers { world := world }) s hs
  by_contra hnot
  have hfits := htracked.fits link hlink e he
  rw [lookup_eq_none.mpr hnot] at hfits
  exact hdirty hfits.eq_of_none

def stuck : Answers := fun site _ _ => if site = .clearing then .failed "ip link set" else .done

def cutAndClear (answers : Answers) : List Event :=
  [ .command (cut "AB1" 60) 0 fun _ _ _ => .done,
    .command ((AList.insert "action" (.str "clear") ∅).insert "link" (.str "AB1")) 1 answers ]

/-- When the revert of a cleared cut fails, the link is down and has no entry. -/
theorem cutAndClear_forgotten :
    ∃ s ∈ (cutAndClear stuck).scanl (Sim.step (fun _ => none) twoMembers) twoMembersReset,
      ∃ link ∈ twoMembers.lab.all, (s.world link.a.key).up = false ∧ link.id ∉ s.faults := by
  refine ⟨_, List.mem_of_getElem? (i := 2) rfl,
    ⟨"AB1", ⟨"A", "eth1", "clab-lab-a", {}⟩, ⟨"B", "eth1", "clab-lab-b", {}⟩⟩, ?_, ?_, ?_⟩
  · decide
  · decide +kernel
  · decide +kernel

/-- While the link is down it has an entry. -/
theorem cutAndClear_recorded :
    ∃ s ∈ (cutAndClear fun _ _ _ => .done).scanl (Sim.step (fun _ => none) twoMembers)
        twoMembersReset,
      ∃ link ∈ twoMembers.lab.all, (s.world link.a.key).up = false ∧ link.id ∈ s.faults := by
  have hdone : Answers.Smooth fun _ _ _ => .done := ⟨fun _ _ _ _ => rfl, fun _ _ _ h => nomatch h⟩
  have hsmooth : Run.EachStep (Sim.step (fun _ => none) twoMembers) (Sim.Smooth fun _ => none)
      twoMembersReset (cutAndClear fun _ _ _ => .done) := by
    refine ⟨⟨hdone, ?_⟩, ⟨hdone, ?_⟩, trivial⟩
    · rintro ⟨value, hgiven, -⟩
      cases hgiven
    · rintro ⟨value, hgiven, -⟩
      cases hgiven
  refine ⟨_, List.mem_of_getElem? (i := 1) rfl,
    ⟨"AB1", ⟨"A", "eth1", "clab-lab-a", {}⟩, ⟨"B", "eth1", "clab-lab-b", {}⟩⟩, by decide,
    by decide +kernel, ?_⟩
  refine recorded_of_smooth _ twoMembers (by decide) _ _ hdone _ hsmooth _
    (List.mem_of_getElem? (i := 1) rfl) _ (by decide) _ List.mem_cons_self ?_
  decide +kernel

end Maeto.Simulator
