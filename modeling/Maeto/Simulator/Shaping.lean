import Maeto.Foundation.Attempt
import Maeto.Simulator.Faults

/-!
# Driving the interfaces of the lab

Every change of an interface is a sequence of commands in its container. A command
takes effect or fails, and a story that is stopped is cancelled while one of its
commands is on the way. A change that fails halfway leaves the interface as the
commands before it have made it.
-/

namespace Maeto.Simulator

open Foundation

structure Wire where
  up : Bool
  qdiscs : List Qdisc
  deriving DecidableEq

abbrev World := String × String → Wire

inductive Answer
  | done
  | failed (text : String)
  | cancelled (effect : Bool)
  deriving DecidableEq

def World.change (key : String × String) (effect : Wire → Wire) (world : World) : World :=
  Function.update world key (effect (world key))

namespace Shaper

def run (answer : Answer) (key : String × String) (effect : Wire → Wire) :
    Attempt Raised World := fun world =>
  match answer with
  | .done => (none, world.change key effect)
  | .failed text => (some (.shaping text), world)
  | .cancelled took => (some .cancelled, if took then world.change key effect else world)

def perform (answers : ℕ → Answer) (key : String × String) (effects : List (Wire → Wire)) :
    Attempt Raised World :=
  Attempt.each (fun command => run (answers command.2) key command.1) effects.zipIdx

def replace (answers : ℕ → Answer) (e : End) (commands : List Qdisc) : Attempt Raised World :=
  perform answers e.key ((fun wire => { wire with qdiscs := [] }) ::
    commands.map fun command wire => { wire with qdiscs := wire.qdiscs ++ [command] })

def restore (answers : ℕ → Answer) (e : End) : Attempt Raised World :=
  replace answers e e.shape.commands

def rate (e : End) (rateMbps : Option PyFloat) : Option PyFloat :=
  let base := e.shape.rateMbps.map PyFloat.finite
  match rateMbps, base with
  | none, base => base
  | some rate, none => some rate
  | some rate, some base => some (if base.truthy then PyFloat.min base rate else rate)

def impairCommands (e : End) (imp : Impairment) : Except Raised (List Qdisc) :=
  let netem := Qdisc.netem (PyFloat.add (.finite e.shape.delayMs) imp.delayMs)
    (if PyFloat.lt 0 imp.jitterMs then some imp.jitterMs else none)
    (if PyFloat.lt 0 imp.lossPct then some imp.lossPct else none)
  match (rate e imp.rateMbps).filter PyFloat.truthy with
  | none => .ok [netem]
  | some rate =>
    match (rate.scale (1000 / 800)).int? with
    | some burst => .ok [netem, .tbf rate (max 32 burst)]
    | none =>
      .error (if rate = .nan then .value "cannot convert float NaN to integer" else .internal)

def impair (answers : ℕ → Answer) (e : End) (imp : Impairment) : Attempt Raised World :=
  fun world =>
    match impairCommands e imp with
    | .error raised => (some raised, world)
    | .ok commands => replace answers e commands world

def setUp (answers : ℕ → Answer) (e : End) (up : Bool) : Attempt Raised World :=
  perform answers e.key
    (if up then [fun wire => { wire with up := true }]
    else [id, fun wire => { wire with up := false }])

/-! ### What a change can do -/

variable {answers : ℕ → Answer} {key : String × String} {effects : List (Wire → Wire)}

/-- A command changes no other interface, and on its own one it keeps what its effect
keeps. -/
theorem perform_induction {P : World → Prop}
    (hstep : ∀ effect ∈ effects, ∀ world, P world → P (world.change key effect)) {world : World}
    (h : P world) : P (perform answers key effects world).2 := by
  refine Attempt.each_induction (fun command hcommand world hworld => ?_) h
  have hchange := hstep command.1 (List.fst_mem_of_mem_zipIdx hcommand) world hworld
  unfold run
  cases answers command.2 with
  | done => exact hchange
  | failed text => exact hworld
  | cancelled took =>
    cases took with
    | false => exact hworld
    | true => exact hchange

theorem perform_of_ne {k : String × String} (hk : k ≠ key) (world : World) :
    (perform answers key effects world).2 k = world k := by
  refine @perform_induction _ _ _ (fun w => w k = world k) (fun effect _ w hw => ?_) _ rfl
  rw [World.change, Function.update_of_ne hk, hw]

theorem perform_keeps {β : Type} (field : Wire → β)
    (hfield : ∀ effect ∈ effects, ∀ wire, field (effect wire) = field wire) (world : World)
    (k : String × String) : field ((perform answers key effects world).2 k) = field (world k) := by
  by_cases hk : k = key
  · refine @perform_induction _ _ _ (fun w => field (w k) = field (world k))
      (fun effect heffect w hw => ?_) _ rfl
    rw [World.change, hk, Function.update_self, hfield effect heffect, ← hk, hw]
  · rw [perform_of_ne hk]

theorem perform_of_done (h : ∀ n, answers n = .done) (world : World) :
    perform answers key effects world =
      (none, world.change key fun wire => effects.foldl (fun wire effect => effect wire) wire) := by
  have hdone : ∀ command ∈ effects.zipIdx, ∀ w, run (answers command.2) key command.1 w =
      (none, World.change key command.1 w) := fun command _ w => by simp only [run, h]
  rw [perform, Attempt.each_of_done hdone]
  clear hdone
  congr 1
  rw [← List.foldl_map (f := Prod.fst) (g := fun w effect => World.change key effect w),
    List.zipIdx_map_fst]
  induction effects generalizing world with
  | nil => exact (Function.update_eq_self key world).symm
  | cons effect effects ih =>
    rw [List.foldl_cons, ih]
    simp [World.change]

theorem perform_raised (h : ∀ n took, answers n ≠ .cancelled took) {world : World}
    {raised : Raised} (hraised : (perform answers key effects world).1 = some raised) :
    ∃ text, raised = .shaping text := by
  obtain ⟨command, -, w, hcommand⟩ := Attempt.of_each_eq_some hraised
  unfold run at hcommand
  cases hanswer : answers command.2 with
  | done => simp [hanswer] at hcommand
  | failed text => exact ⟨text, by simpa [hanswer] using hcommand.symm⟩
  | cancelled took => exact absurd hanswer (h _ took)

section Ends

variable {e : End} {world : World} {k : String × String}

theorem setUp_of_ne {up : Bool} (hk : k ≠ e.key) :
    (setUp answers e up world).2 k = world k :=
  perform_of_ne hk world

theorem setUp_qdiscs (up : Bool) (k : String × String) :
    ((setUp answers e up world).2 k).qdiscs = (world k).qdiscs := by
  refine perform_keeps Wire.qdiscs (fun effect heffect wire => ?_) world k
  cases up <;> simp at heffect
  · rcases heffect with rfl | rfl <;> rfl
  · rw [heffect]

theorem setUp_of_done (h : ∀ n, answers n = .done) (world : World) :
    setUp answers e true world =
      (none, world.change e.key fun wire => { wire with up := true }) :=
  perform_of_done h world

theorem replace_of_ne {commands : List Qdisc} (hk : k ≠ e.key) :
    (replace answers e commands world).2 k = world k :=
  perform_of_ne hk world

theorem replace_up (commands : List Qdisc) (k : String × String) :
    ((replace answers e commands world).2 k).up = (world k).up := by
  refine perform_keeps Wire.up (fun effect heffect wire => ?_) world k
  rcases List.mem_cons.mp heffect with rfl | heffect
  · rfl
  · obtain ⟨command, -, rfl⟩ := List.mem_map.mp heffect
    rfl

theorem restore_of_done (h : ∀ n, answers n = .done) (world : World) :
    restore answers e world =
      (none, world.change e.key fun wire => { wire with qdiscs := e.shape.commands }) := by
  have hadd : ∀ (commands : List Qdisc) (wire : Wire),
      (commands.map fun command (wire : Wire) =>
        { wire with qdiscs := wire.qdiscs ++ [command] }).foldl (fun wire effect => effect wire)
          wire = { wire with qdiscs := wire.qdiscs ++ commands } := by
    intro commands
    induction commands with
    | nil => simp
    | cons command commands ih => simp [ih]
  rw [restore, replace, perform_of_done h]
  simp [hadd]

theorem impair_of_ne {imp : Impairment} (hk : k ≠ e.key) :
    (impair answers e imp world).2 k = world k := by
  unfold impair
  split
  · rfl
  · exact replace_of_ne hk

theorem impair_up (imp : Impairment) (k : String × String) :
    ((impair answers e imp world).2 k).up = (world k).up := by
  unfold impair
  split
  · rfl
  · exact replace_up _ k

theorem impairCommands_ok {imp : Impairment} (h : ∀ rate ∈ imp.rateMbps, ∃ q, rate = .finite q) :
    ∃ commands, impairCommands e imp = .ok commands := by
  have hrate : ∀ r ∈ rate e imp.rateMbps, ∃ q, r = .finite q := by
    intro r hr
    rcases hi : imp.rateMbps with _ | given <;> rcases hb : e.shape.rateMbps with _ | base <;>
      simp only [rate, hi, hb, Option.map_some, Option.map_none, Option.mem_def, Option.some.injEq,
        reduceCtorEq] at hr
    · exact ⟨base, hr.symm⟩
    · obtain ⟨q, hq⟩ := h given hi
      exact ⟨q, hr ▸ hq⟩
    · obtain ⟨q, hq⟩ := h given hi
      rw [hq] at hr
      unfold PyFloat.min at hr
      split_ifs at hr
      · exact ⟨q, hr.symm⟩
      · exact ⟨base, hr.symm⟩
      · exact ⟨q, hr.symm⟩
  unfold impairCommands
  dsimp only
  rcases hr : (rate e imp.rateMbps).filter PyFloat.truthy with _ | r
  · exact ⟨_, rfl⟩
  · obtain ⟨q, rfl⟩ := hrate r (Option.filter_eq_some_iff.mp hr).1
    exact ⟨_, rfl⟩

end Ends

end Shaper

end Maeto.Simulator
