import Maeto.Foundation.Run
import Maeto.Probes.Supervisor

/-!
# The stages of a call

What holds between any two steps of the supervisor. Every probe that was started is in the map,
or its context is cancelled, or the call in progress is about to cancel it. While a reconcile
goes through the map, the probes it has visited are wanted by its target; while it starts probes,
what is wanted and not in the map is left to start.

What the probes do on their own changes none of this, since it never takes a cancellation back.
-/

namespace Maeto.Probes

open Foundation ProbeConfig GoMap AList

variable {C : Type}

section Later

/-- A probe at a later time: it is the same probe, and what has ended does not go on. -/
structure Probe.Later (p p' : Probe C) : Prop where
  id : p'.id = p.id
  config : p'.config = p.config
  generation : p'.generation = p.generation
  cancelled : p.cancelled → p'.cancelled
  done : p.done → p'.done

theorem Probe.Later.refl (p : Probe C) : p.Later p := ⟨rfl, rfl, rfl, fun h => h, fun h => h⟩

theorem Probe.Later.trans {p q r : Probe C} (h : p.Later q) (h' : q.Later r) : p.Later r :=
  ⟨h'.id.trans h.id, h'.config.trans h.config, h'.generation.trans h.generation,
    fun hp => h'.cancelled (h.cancelled hp), fun hp => h'.done (h.done hp)⟩

structure Supervisor.Later (s s' : Supervisor C) : Prop where
  probes : s'.probes = s.probes
  closed : s'.closed = s.closed
  spawned : ∃ f : ℕ → Probe C → Probe C, (∀ ref (p : Probe C), p.Later (f ref p)) ∧
    ∀ ref : ℕ, s'.spawned[ref]? = s.spawned[ref]?.map (f ref)

theorem Supervisor.Later.refl {s s' : Supervisor C} (hprobes : s'.probes = s.probes)
    (hclosed : s'.closed = s.closed) (hspawned : s'.spawned = s.spawned) : s.Later s' := by
  refine ⟨hprobes, hclosed, fun _ p => p, fun _ => Probe.Later.refl, fun _ => ?_⟩
  rw [hspawned]
  exact Option.map_id'.symm

theorem later_modify (s : Supervisor C) (ref : ℕ) {f : Probe C → Probe C}
    (hf : ∀ p : Probe C, p.Later (f p)) :
    s.Later { s with spawned := s.spawned.modify ref f } := by
  refine ⟨rfl, rfl, fun i p => if ref = i then f p else p, ?_, ?_⟩
  · intro i p
    dsimp only
    split_ifs
    · exact hf p
    · exact Probe.Later.refl p
  · intro i
    dsimp only
    rw [List.getElem?_modify]
    split_ifs
    · rfl
    · rfl

theorem later_cancelProbe (s : Supervisor C) (ref : ℕ) : s.Later (cancelProbe s ref) :=
  later_modify s ref fun _ => ⟨rfl, rfl, rfl, fun _ => rfl, fun h => h⟩

theorem Probe.later_exit (err : Option String) (p : Probe C) : p.Later (p.exit err) := by
  unfold Probe.exit
  split_ifs
  · exact Probe.Later.refl p
  · exact ⟨rfl, rfl, rfl, fun _ => rfl, fun _ => rfl⟩

end Later

section Invariants

def OwnIDs (s : Supervisor C) : Prop :=
  ∀ id ref, s.probes.lookup id = some ref → ∃ p, s.spawned[ref]? = some p ∧ p.id = id

/-- Every probe is in the map, or its context is cancelled, or it is one of those that are left
to cancel. -/
def Accounted (s : Supervisor C) (left : List (String × ℕ)) : Prop :=
  ∀ (ref : ℕ) p, s.spawned[ref]? = some p →
    s.probes.lookup p.id = some ref ∨ p.cancelled ∨ (p.id, ref) ∈ left

variable [ProbeConfig C]

def Wanted (target : Target C) (id : String) (p : Probe C) : Prop :=
  ∃ cfg, target.lookup id = some (some cfg) ∧ getID p.config = getID cfg

/-- The probes in the map are wanted, except for those that are left to visit. -/
def Fits (s : Supervisor C) (target : Target C) (left : List (String × ℕ)) : Prop :=
  ∀ id ref p, s.probes.lookup id = some ref → s.spawned[ref]? = some p →
    (id, ref) ∈ left ∨ Wanted target id p

def Covers (s : Supervisor C) (target : Target C) (left : List (String × Option C)) : Prop :=
  ∀ id cfg, target.lookup id = some (some cfg) → id ∈ s.probes ∨ (id, some cfg) ∈ left

def toCancel : Option (Active C) → List (String × ℕ)
  | some (.sweeping _ _ _ stopped) => stopped.range .listed
  | some (.stopping _ _ todo _) => todo
  | _ => []

def Call.Fits (s : Supervisor C) : Call C → Prop
  | .reconcile target => s.closed = false ∧ Probes.Fits s target []
  | .shutdown => True

inductive InStage (s : Supervisor C) (last : Option (Target C)) : Option (Active C) → Prop where
  | idle (h : ∀ target, last = some target → Fits s target [] ∧ Covers s target []) :
      InStage s last none
  | sweeping {target : Target C} {generation : UInt64} {todo : List (String × ℕ)}
      {stopped : GoMap String ℕ} (hopen : s.closed = false)
      (htodo : ∀ e ∈ todo, s.probes.lookup e.1 = some e.2) (hnodup : (todo.map Prod.fst).Nodup)
      (hstopped : ∀ id ∈ stopped, id ∉ s.probes) (hfits : Fits s target todo) :
      InStage s last (some (.sweeping target generation todo stopped))
  | stopping {call : Call C} {generation : UInt64} {todo : List (String × ℕ)}
      {stopped : GoMap String ℕ} (hfits : call.Fits s) :
      InStage s last (some (.stopping call generation todo stopped))
  | waiting {call : Call C} {generation : UInt64} {stopped : GoMap String ℕ}
      (hfits : call.Fits s) : InStage s last (some (.waiting call generation stopped))
  | starting {target : Target C} {generation : UInt64} {todo : List (String × Option C)}
      {errs : List SupervisorError} (hopen : s.closed = false) (hfits : Fits s target [])
      (hcovers : Covers s target todo) (htodo : ∀ e ∈ todo, target.lookup e.1 = some e.2) :
      InStage s last (some (.starting target generation todo errs))

structure Inv (s : System C) : Prop where
  ownIDs : OwnIDs s.sup
  accounted : Accounted s.sup (toCancel s.active)
  closed : s.sup.closed → ∀ id, s.sup.probes.lookup id = none
  stage : InStage s.sup s.last s.active

end Invariants

section Frames

variable {s s' : Supervisor C}

theorem Supervisor.Later.getElem? (h : s.Later s') {ref : ℕ} {p' : Probe C}
    (hp' : s'.spawned[ref]? = some p') : ∃ p, s.spawned[ref]? = some p ∧ p.Later p' := by
  obtain ⟨f, hf, hspawned⟩ := h.spawned
  rw [hspawned, Option.map_eq_some_iff] at hp'
  obtain ⟨p, hp, rfl⟩ := hp'
  exact ⟨p, hp, hf ref p⟩

theorem Supervisor.Later.exists (h : s.Later s') {ref : ℕ} {p : Probe C}
    (hp : s.spawned[ref]? = some p) : ∃ p', s'.spawned[ref]? = some p' ∧ p.Later p' := by
  obtain ⟨f, hf, hspawned⟩ := h.spawned
  exact ⟨f ref p, by rw [hspawned, hp, Option.map_some], hf ref p⟩

theorem Supervisor.Later.length_eq (h : s.Later s') :
    s'.spawned.length = s.spawned.length := by
  obtain ⟨f, -, hspawned⟩ := h.spawned
  have hiff : ∀ i, s'.spawned.length ≤ i ↔ s.spawned.length ≤ i := by
    intro i
    rw [← List.getElem?_eq_none_iff, ← List.getElem?_eq_none_iff, hspawned, Option.map_eq_none_iff]
  exact le_antisymm ((hiff _).mpr le_rfl) ((hiff _).mp le_rfl)

theorem OwnIDs.later (h : OwnIDs s) (hlater : s.Later s') : OwnIDs s' := by
  intro id ref hid
  rw [hlater.probes] at hid
  obtain ⟨p, hp, hpid⟩ := h id ref hid
  obtain ⟨p', hp', hl⟩ := hlater.exists hp
  exact ⟨p', hp', by rw [hl.id, hpid]⟩

theorem Accounted.later {left : List (String × ℕ)} (h : Accounted s left) (hlater : s.Later s') :
    Accounted s' left := by
  intro ref p' hp'
  obtain ⟨p, hp, hl⟩ := hlater.getElem? hp'
  rw [hlater.probes, hl.id]
  exact (h ref p hp).imp_right (Or.imp_left hl.cancelled)

theorem Covers.later {target : Target C} {left : List (String × Option C)}
    (h : Covers s target left) (hlater : s.Later s') : Covers s' target left := by
  rw [Covers, hlater.probes]
  exact h

variable [ProbeConfig C]

theorem Fits.later {target : Target C} {left : List (String × ℕ)} (h : Fits s target left)
    (hlater : s.Later s') : Fits s' target left := by
  intro id ref p' hid hp'
  obtain ⟨p, hp, hl⟩ := hlater.getElem? hp'
  rw [hlater.probes] at hid
  refine (h id ref p hid hp).imp_right ?_
  rintro ⟨cfg, hcfg, hget⟩
  exact ⟨cfg, hcfg, by rw [hl.config, hget]⟩

theorem Call.Fits.later {call : Call C} (h : call.Fits s) (hlater : s.Later s') :
    call.Fits s' := by
  cases call with
  | reconcile target => exact ⟨hlater.closed.trans h.1, h.2.later hlater⟩
  | shutdown => trivial

theorem InStage.later {last : Option (Target C)} {active : Option (Active C)}
    (h : InStage s last active) (hlater : s.Later s') : InStage s' last active := by
  cases h with
  | idle h =>
    exact .idle fun target hlast =>
      ⟨(h target hlast).1.later hlater, (h target hlast).2.later hlater⟩
  | sweeping hopen htodo hnodup hstopped hfits =>
    refine .sweeping (hlater.closed.trans hopen) ?_ hnodup ?_ (hfits.later hlater)
    · rwa [hlater.probes]
    · rwa [hlater.probes]
  | stopping hfits => exact .stopping (hfits.later hlater)
  | waiting hfits => exact .waiting (hfits.later hlater)
  | starting hopen hfits hcovers htodo =>
    exact .starting (hlater.closed.trans hopen) (hfits.later hlater) (hcovers.later hlater) htodo

theorem Inv.later {s : System C} (h : Inv s) {sup : Supervisor C} (hlater : s.sup.Later sup) :
    Inv { s with sup } where
  ownIDs := h.ownIDs.later hlater
  accounted := h.accounted.later hlater
  closed := by
    dsimp only
    rw [hlater.closed, hlater.probes]
    exact h.closed
  stage := h.stage.later hlater

end Frames

section Changes

variable {s : Supervisor C} {id : String}

theorem ne_of_lookup_erase {id' : String} {ref' : ℕ}
    (h : (s.probes.erase id).lookup id' = some ref') :
    id' ≠ id ∧ s.probes.lookup id' = some ref' := by
  rw [lookup_erase_eq] at h
  split_ifs at h with hne
  exact ⟨hne, h⟩

theorem Accounted.erase {ref : ℕ} {stopped : GoMap String ℕ}
    (h : Accounted s (stopped.range .listed)) (hid : s.probes.lookup id = some ref)
    (hstopped : ∀ id ∈ stopped, id ∉ s.probes) :
    Accounted { s with probes := s.probes.erase id }
      (GoMap.range .listed (stopped.insert id ref)) := by
  intro ref' p hp
  rcases h ref' p hp with hreg | hcancelled | hleft
  · by_cases hpid : p.id = id
    · rw [hpid, hid] at hreg
      cases hreg
      refine Or.inr (Or.inr ((mem_range _ _ _ _).mpr ?_))
      rw [hpid, lookup_insert]
    · refine Or.inl ?_
      rw [lookup_erase_eq, if_neg hpid, hreg]
  · exact Or.inr (Or.inl hcancelled)
  · have hlookup := (mem_range _ _ _ _).mp hleft
    refine Or.inr (Or.inr ((mem_range _ _ _ _).mpr ?_))
    rw [lookup_insert_ne, hlookup]
    rintro rfl
    exact hstopped p.id (mem_iff.mpr ⟨_, hlookup⟩) (mem_iff.mpr ⟨_, hid⟩)

variable {target : Target C}

theorem Covers.visit {cfg : Option C} {left : List (String × Option C)}
    (h : Covers s target ((id, cfg) :: left)) (hid : ∀ c, cfg = some c → id ∈ s.probes) :
    Covers s target left := by
  intro id' cfg' hcfg'
  rcases h id' cfg' hcfg' with hmem | hmem
  · exact Or.inl hmem
  · rcases List.mem_cons.mp hmem with heq | hmem
    · cases heq
      exact Or.inl (hid cfg' rfl)
    · exact Or.inr hmem

variable {cfg : C} {generation : UInt64}

theorem lookup_startProbe {id' : String} {ref' : ℕ}
    (h : (startProbe s id cfg generation).probes.lookup id' = some ref') :
    (id' = id ∧ ref' = s.spawned.length) ∨ s.probes.lookup id' = some ref' := by
  rw [startProbe, lookup_insert_eq] at h
  split_ifs at h with heq
  · exact Or.inl ⟨heq, (Option.some.inj h).symm⟩
  · exact Or.inr h

theorem OwnIDs.startProbe (h : OwnIDs s) : OwnIDs (startProbe s id cfg generation) := by
  intro id' ref' hid'
  rcases lookup_startProbe hid' with ⟨rfl, rfl⟩ | hid'
  · exact ⟨_, Run.getElem?_concat_eq_some_iff.mpr (Or.inr ⟨rfl, rfl⟩), rfl⟩
  · obtain ⟨p, hp, hpid⟩ := h id' ref' hid'
    exact ⟨p, Run.getElem?_concat_eq_some_iff.mpr (Or.inl hp), hpid⟩

theorem Accounted.startProbe {left : List (String × ℕ)} (h : Accounted s left)
    (hnew : id ∉ s.probes) : Accounted (startProbe s id cfg generation) left := by
  intro ref' p hp
  rcases Run.getElem?_concat_eq_some_iff.mp hp with hp | ⟨rfl, rfl⟩
  · refine (h ref' p hp).imp_left fun hreg => ?_
    rw [Probes.startProbe, lookup_insert_ne, hreg]
    rintro rfl
    exact hnew (mem_iff.mpr ⟨ref', hreg⟩)
  · exact Or.inl (lookup_insert _)

theorem Covers.startProbe {left : List (String × Option C)}
    (h : Covers s target ((id, some cfg) :: left)) :
    Covers (startProbe s id cfg generation) target left := by
  have hgrown : Covers (Probes.startProbe s id cfg generation) target ((id, some cfg) :: left) :=
    fun id' cfg' hcfg' => (h id' cfg' hcfg').imp_left fun hmem =>
      (mem_insert _).mpr (Or.inr hmem)
  exact hgrown.visit fun _ _ => (mem_insert _).mpr (Or.inl rfl)

variable [ProbeConfig C]

theorem Fits.visit {ref : ℕ} {left : List (String × ℕ)} (h : Fits s target ((id, ref) :: left))
    (hid : ∀ p, s.probes.lookup id = some ref → s.spawned[ref]? = some p → Wanted target id p) :
    Fits s target left := by
  intro id' ref' p hid' hp
  rcases h id' ref' p hid' hp with hmem | hwanted
  · rcases List.mem_cons.mp hmem with heq | hmem
    · cases heq
      exact Or.inr (hid p hid' hp)
    · exact Or.inl hmem
  · exact Or.inr hwanted

theorem Fits.startProbe (h : Fits s target []) (hown : OwnIDs s)
    (hcfg : target.lookup id = some (some cfg)) :
    Fits (startProbe s id cfg generation) target [] := by
  intro id' ref' p hid' hp
  rcases lookup_startProbe hid' with ⟨rfl, rfl⟩ | hid'
  · rcases Run.getElem?_concat_eq_some_iff.mp hp with hp | ⟨-, rfl⟩
    · rw [List.getElem?_eq_none le_rfl] at hp
      cases hp
    · exact Or.inr ⟨cfg, hcfg, rfl⟩
  · -- The probe that was in the map is in front of the new one.
    obtain ⟨p', hp', -⟩ := hown id' ref' hid'
    cases (Run.getElem?_concat_eq_some_iff.mpr (Or.inl hp')).symm.trans hp
    exact h id' ref' p hid' hp'

end Changes

section Rounds

variable [ProbeConfig C] {s : System C} {target : Target C} {id : String} {generation : UInt64}
  {ref : ℕ} {stopped : GoMap String ℕ}

theorem keeps_iff {p : Probe C} :
    keeps p (target.lookup id) ↔ p.done = false ∧ Wanted target id p := by
  unfold keeps Wanted
  cases target.lookup id with
  | none => simp
  | some cfg =>
    cases cfg with
    | none => simp
    | some cfg => simp

theorem Inv.sweep_keep {todo : List (String × ℕ)} (h : Inv s)
    (hactive : s.active = some (.sweeping target generation ((id, ref) :: todo) stopped))
    (hkeeps : s.sup.spawned[ref]?.any fun p => keeps p (target.lookup id)) :
    Inv { s with active := some (.sweeping target generation todo stopped) } := by
  obtain ⟨hown, hacc, hclosed, hstage⟩ := h
  rw [hactive] at hacc hstage
  cases hstage with
  | sweeping hopen htodo hnodup hstopped hfits =>
    refine ⟨hown, hacc, hclosed, .sweeping hopen
      (fun e he => htodo e (List.mem_cons_of_mem _ he)) (List.nodup_cons.mp hnodup).2 hstopped
      (hfits.visit fun p _ hp => ?_)⟩
    rw [hp] at hkeeps
    exact (keeps_iff.mp hkeeps).2

theorem Inv.sweep_remove {todo : List (String × ℕ)} (h : Inv s)
    (hactive : s.active = some (.sweeping target generation ((id, ref) :: todo) stopped)) :
    Inv { s with
      sup := { s.sup with probes := s.sup.probes.erase id }
      active := some (.sweeping target generation todo (stopped.insert id ref)) } := by
  obtain ⟨hown, hacc, hclosed, hstage⟩ := h
  rw [hactive] at hacc hstage
  cases hstage with
  | sweeping hopen htodo hnodup hstopped hfits =>
    obtain ⟨hnew, hnodup⟩ := List.nodup_cons.mp hnodup
    have hid := htodo (id, ref) List.mem_cons_self
    refine ⟨fun id' ref' h => hown id' ref' (ne_of_lookup_erase h).2,
      hacc.erase hid hstopped, fun hc => absurd (hopen.symm.trans hc) Bool.false_ne_true,
      .sweeping hopen ?_ hnodup ?_ (@Fits.visit _ _ id _ _ ref _ ?_ ?_)⟩
    · intro e he
      rw [lookup_erase_eq, if_neg, htodo e (List.mem_cons_of_mem _ he)]
      rintro rfl
      exact hnew (List.mem_map.mpr ⟨e, he, rfl⟩)
    · intro id' hmem herased
      obtain ⟨ref', href'⟩ := mem_iff.mp herased
      obtain ⟨hne, href'⟩ := ne_of_lookup_erase href'
      rcases (mem_insert _).mp hmem with heq | hmem
      · exact hne heq
      · exact hstopped id' hmem (mem_iff.mpr ⟨ref', href'⟩)
    · exact fun id' ref' p hid' => hfits id' ref' p (ne_of_lookup_erase hid').2
    · exact fun _ hgone _ => absurd rfl (ne_of_lookup_erase hgone).1

theorem Inv.start {cfg : C}
    {todo : List (String × Option C)} {errs : List SupervisorError} (h : Inv s)
    (hactive : s.active = some (.starting target generation ((id, some cfg) :: todo) errs))
    (hnew : id ∉ s.sup.probes) :
    Inv { s with
      sup := startProbe s.sup id cfg generation
      active := some (.starting target generation todo errs) } := by
  obtain ⟨hown, hacc, hclosed, hstage⟩ := h
  rw [hactive] at hacc hstage
  cases hstage with
  | starting hopen hfits hcovers htodo =>
    have hcfg := htodo (id, some cfg) List.mem_cons_self
    exact ⟨hown.startProbe, hacc.startProbe hnew,
      fun hc => absurd (hopen.symm.trans hc) Bool.false_ne_true,
      .starting hopen (hfits.startProbe hown hcfg) hcovers.startProbe
        fun e he => htodo e (List.mem_cons_of_mem _ he)⟩

theorem Inv.cancel {call : Call C} {todo : List (String × ℕ)} (h : Inv s)
    (hactive : s.active = some (.stopping call generation ((id, ref) :: todo) stopped)) :
    Inv { s with
      sup := cancelProbe s.sup ref
      active := some (.stopping call generation todo stopped) } := by
  obtain ⟨hown, hacc, hclosed, hstage⟩ := h
  rw [hactive] at hacc hstage
  have hlater := later_cancelProbe s.sup ref
  cases hstage with
  | stopping hfits =>
    refine ⟨hown.later hlater, ?_, hclosed, .stopping (hfits.later hlater)⟩
    intro ref' p' hp'
    obtain ⟨p, hp, hl⟩ := hlater.getElem? hp'
    rw [hl.id]
    rcases hacc ref' p hp with hreg | hcancelled | hleft
    · exact Or.inl hreg
    · exact Or.inr (Or.inl (hl.cancelled hcancelled))
    · rcases List.mem_cons.mp hleft with heq | hleft
      · -- This is the probe whose context is cancelled.
        cases heq
        simp only [cancelProbe, List.getElem?_modify, if_true, hp, Option.map_eq_map,
          Option.map_some, Option.some.injEq] at hp'
        rw [← hp']
        exact Or.inr (Or.inl rfl)
      · exact Or.inr (Or.inr hleft)

theorem Inv.advance_waiting {call : Call C}
    (h : Inv s) (hactive : s.active = some (.waiting call generation stopped)) (ord : RangeOrder) :
    Inv (advance ord s (.waiting call generation stopped)) := by
  have hacc := h.accounted
  have hstage := h.stage
  rw [hactive] at hacc hstage
  cases hstage with
  | waiting hfits =>
    cases call with
    | shutdown =>
      exact ⟨h.ownIDs, hacc, h.closed,
        .idle fun _ hlast => absurd hlast (Option.some_ne_none _).symm⟩
    | reconcile target =>
      refine ⟨h.ownIDs, hacc, h.closed, .starting hfits.1 hfits.2 ?_ ?_⟩
      · intro id cfg hcfg
        exact Or.inr ((mem_range _ _ _ _).mpr hcfg)
      · intro e he
        exact (mem_range _ _ _ _).mp he

theorem Inv.advance_starting
    {todo : List (String × Option C)} {errs : List SupervisorError} (h : Inv s)
    (hactive : s.active = some (.starting target generation todo errs)) (ord : RangeOrder) :
    Inv (advance ord s (.starting target generation todo errs)) := by
  have hacc := h.accounted
  have hstage := h.stage
  rw [hactive] at hacc hstage
  cases hstage with
  | starting hopen hfits hcovers htodo =>
    cases todo with
    | nil =>
      refine ⟨h.ownIDs, hacc, h.closed, .idle fun target' hlast => ?_⟩
      cases hlast
      exact ⟨hfits, hcovers⟩
    | cons e todo =>
      obtain ⟨id, cfg⟩ := e
      have hrest : ∀ e ∈ todo, target.lookup e.1 = some e.2 :=
        fun e he => htodo e (List.mem_cons_of_mem _ he)
      unfold Probes.advance
      dsimp only
      split_ifs with hrunning
      · exact ⟨h.ownIDs, hacc, h.closed,
          .starting hopen hfits (hcovers.visit fun _ _ => hrunning) hrest⟩
      · cases cfg with
        | some cfg => exact h.start hactive hrunning
        | none =>
          refine ⟨h.ownIDs, hacc, h.closed, .starting hopen hfits (hcovers.visit ?_) hrest⟩
          intro c hc
          cases hc

theorem Inv.advance {a : Active C} (h : Inv s) (hactive : s.active = some a) (ord : RangeOrder) :
    Inv (advance ord s a) := by
  have hacc := h.accounted
  have hstage := h.stage
  rw [hactive] at hacc hstage
  cases a with
  | sweeping target generation todo stopped =>
    cases hstage with
    | sweeping hopen htodo hnodup hstopped hfits =>
      cases todo with
      | nil =>
        refine ⟨h.ownIDs, ?_, h.closed, .stopping ⟨hopen, hfits⟩⟩
        intro ref p hp
        refine (hacc ref p hp).imp_right (Or.imp_right fun hleft => ?_)
        exact (mem_range _ _ _ _).mpr ((mem_range _ _ _ _).mp hleft)
      | cons e todo =>
        rw [Probes.advance]
        split_ifs with hkeeps
        · exact h.sweep_keep hactive hkeeps
        · exact h.sweep_remove hactive
  | stopping call generation todo stopped =>
    cases hstage with
    | stopping hfits =>
      cases todo with
      | nil => exact ⟨h.ownIDs, hacc, h.closed, .waiting hfits⟩
      | cons e todo => exact h.cancel hactive
  | waiting call generation stopped => exact h.advance_waiting hactive ord
  | starting target generation todo errs => exact h.advance_starting hactive ord

theorem Inv.enterReconcile (h : Inv s) (hactive : s.active = none) (ctxErr : Option String)
    (target : Target C) (ord : RangeOrder) : Inv (enterReconcile ctxErr target ord s) := by
  have hsame : ∀ errs, Inv { s with returned := errs } :=
    fun _ => ⟨h.ownIDs, h.accounted, h.closed, h.stage⟩
  unfold Probes.enterReconcile
  split
  · exact hsame _
  · cases ctxErr with
    | some err => exact hsame _
    | none =>
      dsimp only
      split_ifs with hclosed
      · exact hsame _
      · have hacc := h.accounted
        rw [hactive] at hacc
        refine ⟨h.ownIDs, ?_, h.closed, .sweeping (Bool.eq_false_iff.mpr hclosed) ?_
          (range_keys_nodup _ _) (fun id hid => absurd hid (notMem_empty id)) ?_⟩
        · intro ref p hp
          refine (hacc ref p hp).imp_right (Or.imp_right fun hleft => ?_)
          exact absurd hleft List.not_mem_nil
        · intro e he
          exact (mem_range _ _ _ _).mp he
        · intro id ref p hid _
          exact Or.inl ((mem_range _ _ _ _).mpr hid)

theorem Inv.enterShutdown (h : Inv s) (hactive : s.active = none) (ord : RangeOrder) :
    Inv (enterShutdown ord s) := by
  unfold Probes.enterShutdown
  split_ifs with hclosed
  · exact ⟨h.ownIDs, h.accounted, h.closed, h.stage⟩
  · have hacc := h.accounted
    rw [hactive] at hacc
    refine ⟨fun id ref hid => ?_, ?_, fun _ id => lookup_empty id, .stopping trivial⟩
    · rw [lookup_empty] at hid
      cases hid
    · intro ref p hp
      rcases hacc ref p hp with hreg | hcancelled | hleft
      · exact Or.inr (Or.inr ((mem_range _ _ _ _).mpr hreg))
      · exact Or.inr (Or.inl hcancelled)
      · exact absurd hleft List.not_mem_nil

theorem Inv.step (h : Inv s) (e : Event C) : Inv (step s e) := by
  cases e with
  | markStarted => exact h.later (.refl rfl rfl rfl)
  | reconcile ctxErr target ord =>
    unfold Probes.step
    cases hactive : s.active with
    | none => exact h.enterReconcile hactive ctxErr target ord
    | some a => exact h
  | shutdown ord =>
    unfold Probes.step
    cases hactive : s.active with
    | none => exact h.enterShutdown hactive ord
    | some a => exact h
  | advance ord =>
    unfold Probes.step
    cases hactive : s.active with
    | none => exact h
    | some a => exact h.advance hactive ord
  | contextEnds ref => exact h.later (later_cancelProbe s.sup ref)
  | exit ref err => exact h.later (later_modify s.sup ref (Probe.later_exit err))

theorem inv_run (events : List (Event C)) : Inv (run events) := by
  refine List.foldlRecOn (motive := Inv) _ _ ⟨?_, ?_, ?_, .idle ?_⟩ fun s h e _ => h.step e
  · intro id ref hid
    cases hid
  · intro ref p hp
    cases hp
  · intro hclosed
    cases hclosed
  · intro target hlast
    cases hlast

end Rounds

end Maeto.Probes
