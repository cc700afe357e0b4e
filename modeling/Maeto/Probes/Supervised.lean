import Maeto.Probes.Invariant

/-!
# The supervisor tracks its target

Whatever probes exit while a call is in progress, a reconcile ends with the probes of its target,
and a probe that is alive and still wanted is not touched by it. All probes that a call takes out
of the map are cancelled before it starts one. After a shutdown the map stays empty.
-/

namespace Maeto.Probes

open Foundation ProbeConfig GoMap AList

variable {C : Type}

section Effects

theorem enterReconcile_later (ctxErr : Option String) (target : Target C) (ord : RangeOrder)
    (s : System C) : s.sup.Later (enterReconcile ctxErr target ord s).sup := by
  unfold enterReconcile
  split
  · exact .refl rfl rfl rfl
  · cases ctxErr with
    | some err => exact .refl rfl rfl rfl
    | none =>
      dsimp only
      split_ifs
      · exact .refl rfl rfl rfl
      · exact .refl rfl rfl rfl

variable [ProbeConfig C] {s : System C} {e : Event C}

inductive Effect (s : System C) (e : Event C) (s' : Supervisor C) : Prop where
  | later (h : s.sup.Later s')
  | removed {target : Target C} {generation : UInt64} {id : String} {ref : ℕ}
      {todo : List (String × ℕ)} {stopped : GoMap String ℕ}
      (hactive : s.active = some (.sweeping target generation ((id, ref) :: todo) stopped))
      (hkeeps : ¬ s.sup.spawned[ref]?.any fun p => keeps p (target.lookup id))
      (h : s' = { s.sup with probes := s.sup.probes.erase id })
  | started {target : Target C} {generation : UInt64} {id : String} {cfg : C}
      {todo : List (String × Option C)} {errs : List SupervisorError}
      (hactive : s.active = some (.starting target generation ((id, some cfg) :: todo) errs))
      (hnew : id ∉ s.sup.probes) (h : s' = startProbe s.sup id cfg generation)
  | shutDown {ord : RangeOrder} (hevent : e = .shutdown ord)
      (h : s' = { s.sup with closed := true, generation := s.sup.generation + 1, probes := ∅ })

theorem advance_effect {a : Active C} (hactive : s.active = some a) (ord : RangeOrder) :
    Effect s e (advance ord s a).sup := by
  have hsame : Effect s e s.sup := .later (.refl rfl rfl rfl)
  cases a with
  | sweeping target generation todo stopped =>
    cases todo with
    | nil => exact hsame
    | cons entry todo =>
      rw [advance]
      split_ifs with hkeeps
      · exact hsame
      · exact .removed hactive hkeeps rfl
  | stopping call generation todo stopped =>
    cases todo with
    | nil => exact hsame
    | cons entry todo => exact .later (later_cancelProbe s.sup entry.2)
  | waiting call generation stopped =>
    cases call with
    | reconcile target => exact hsame
    | shutdown => exact hsame
  | starting target generation todo errs =>
    cases todo with
    | nil => exact hsame
    | cons entry todo =>
      obtain ⟨id, cfg⟩ := entry
      unfold advance
      dsimp only
      split_ifs with hrunning
      · exact hsame
      · cases cfg with
        | none => exact hsame
        | some cfg => exact .started hactive hrunning rfl

theorem step_effect (s : System C) (e : Event C) : Effect s e (step s e).sup := by
  have hsame : Effect s e s.sup := .later (.refl rfl rfl rfl)
  unfold step
  cases e with
  | markStarted => exact .later (.refl rfl rfl rfl)
  | reconcile ctxErr target ord =>
    cases hactive : s.active with
    | none => exact .later (enterReconcile_later ctxErr target ord s)
    | some a => exact hsame
  | shutdown ord =>
    cases hactive : s.active with
    | none =>
      dsimp only
      unfold enterShutdown
      split_ifs
      · exact hsame
      · exact .shutDown rfl rfl
    | some a => exact hsame
  | advance ord =>
    cases hactive : s.active with
    | none => exact hsame
    | some a => exact advance_effect hactive ord
  | contextEnds ref => exact .later (later_cancelProbe s.sup ref)
  | exit ref err => exact .later (later_modify s.sup ref (Probe.later_exit err))

theorem spawned_step (s : System C) (e : Event C) {ref : ℕ} {p : Probe C}
    (hp : s.sup.spawned[ref]? = some p) :
    ∃ p', (step s e).sup.spawned[ref]? = some p' ∧ p.Later p' := by
  cases step_effect s e with
  | later hlater => exact hlater.exists hp
  | removed hactive hkeeps h => exact ⟨p, by rw [h, hp], Probe.Later.refl p⟩
  | started hactive hnew h =>
    rw [h]
    exact ⟨p, Run.getElem?_concat_eq_some_iff.mpr (Or.inl hp), Probe.Later.refl p⟩
  | shutDown hevent h => exact ⟨p, by rw [h, hp], Probe.Later.refl p⟩

end Effects

section Returns

theorem length_keys_insert_le (m : GoMap String ℕ) (id : String) (ref : ℕ) :
    (m.insert id ref).keys.length ≤ m.keys.length + 1 := by
  rw [keys_insert, List.length_cons]
  exact Nat.succ_le_succ List.length_erase_le

variable [ProbeConfig C] {s : System C}

def Call.rounds : Call C → ℕ
  | .reconcile target => target.keys.length + 1
  | .shutdown => 0

def rounds : Option (Active C) → ℕ
  | none => 0
  | some (.sweeping target _ todo stopped) =>
    2 * todo.length + stopped.keys.length + target.keys.length + 4
  | some (.stopping call _ todo _) => todo.length + call.rounds + 2
  | some (.waiting call _ _) => call.rounds + 1
  | some (.starting _ _ todo _) => todo.length + 1

def Event.isAdvance : Event C → Bool
  | .advance _ => true
  | _ => false

theorem rounds_advance_starting (ord : RangeOrder) (s : System C) (target : Target C)
    (generation : UInt64) (entry : String × Option C) (todo : List (String × Option C))
    (errs : List SupervisorError) :
    rounds (advance ord s (.starting target generation (entry :: todo) errs)).active =
      rounds (some (.starting target generation todo errs)) := by
  obtain ⟨id, cfg⟩ := entry
  unfold advance
  dsimp only
  split_ifs
  · rfl
  · cases cfg with
    | none => rfl
    | some cfg => rfl

theorem rounds_advance (ord : RangeOrder) (s : System C) (a : Active C) :
    rounds (advance ord s a).active < rounds (some a) := by
  cases a with
  | sweeping target generation todo stopped =>
    cases todo with
    | nil =>
      simp only [advance, rounds, Call.rounds, length_range, List.length_nil]
      omega
    | cons entry todo =>
      obtain ⟨id, ref⟩ := entry
      have hle := length_keys_insert_le stopped id ref
      rw [advance]
      split_ifs
      · simp only [rounds, List.length_cons]
        omega
      · simp only [rounds, List.length_cons]
        omega
  | stopping call generation todo stopped =>
    cases todo with
    | nil =>
      simp only [advance, rounds, List.length_nil]
      omega
    | cons entry todo =>
      simp only [advance, rounds, List.length_cons]
      omega
  | waiting call generation stopped =>
    cases call with
    | reconcile target =>
      simp only [advance, rounds, Call.rounds, length_range]
      omega
    | shutdown =>
      simp only [advance, rounds, Call.rounds]
      omega
  | starting target generation todo errs =>
    cases todo with
    | nil =>
      simp only [advance, rounds]
      omega
    | cons entry todo =>
      rw [rounds_advance_starting]
      exact Nat.lt_succ_self _

theorem active_step {a : Active C} (hactive : s.active = some a) {e : Event C}
    (he : ¬ e.isAdvance) : (step s e).active = some a := by
  unfold step
  cases e with
  | markStarted => exact hactive
  | reconcile ctxErr target ord =>
    rw [hactive]
    exact hactive
  | shutdown ord =>
    rw [hactive]
    exact hactive
  | advance ord => exact absurd rfl he
  | contextEnds ref => exact hactive
  | exit ref err => exact hactive

theorem exists_returned {l : List (Event C)} (h : rounds s.active ≤ l.countP Event.isAdvance) :
    ∃ pre, pre <+: l ∧ (pre.foldl step s).active = none := by
  induction l generalizing s with
  | nil =>
    refine ⟨[], List.prefix_refl _, ?_⟩
    cases hactive : s.active with
    | none => exact hactive
    | some a =>
      have hpos := rounds_advance .listed s a
      rw [hactive, List.countP_nil] at h
      omega
  | cons e l ih =>
    cases hactive : s.active with
    | none => exact ⟨[], List.nil_prefix, hactive⟩
    | some a =>
      have hrest : rounds (step s e).active ≤ l.countP Event.isAdvance := by
        by_cases he : e.isAdvance
        · have hlt : rounds (step s e).active < rounds s.active := by
            cases e with
            | advance ord =>
              rw [step, hactive]
              exact rounds_advance ord s a
            | markStarted => cases he
            | reconcile ctxErr target ord => cases he
            | shutdown ord => cases he
            | contextEnds ref => cases he
            | exit ref err => cases he
          rw [List.countP_cons_of_pos he] at h
          omega
        · rw [List.countP_cons_of_neg he, hactive] at h
          rwa [active_step hactive he]
      obtain ⟨pre, hpre, hnone⟩ := ih hrest
      exact ⟨e :: pre, List.prefix_cons_inj e |>.mpr hpre, hnone⟩

end Returns

section Tracking

variable [ProbeConfig C] {s : System C} {e : Event C}

def Supervisor.registered (s : Supervisor C) (id : String) : Option (Probe C) :=
  (s.probes.lookup id).bind fun ref => s.spawned[ref]?

/-- What holds at any moment. After a reconcile that passed its checks, the registered probes are
those of its target. A probe that is not registered is cancelled, unless the call in progress is
about to cancel it. After a shutdown nothing is registered. -/
structure Tracks (s : System C) : Prop where
  tracks : s.active = none → ∀ target, s.last = some target → ∀ id,
    (s.sup.registered id).map (fun p => getID p.config) = (target.lookup id).join.map getID
  stopped : ∀ (ref : ℕ) p, s.sup.spawned[ref]? = some p →
    s.sup.probes.lookup p.id = some ref ∨ p.cancelled ∨ (p.id, ref) ∈ toCancel s.active
  closed : s.sup.closed → ∀ id, s.sup.registered id = none

/-- What holds for any step. A probe keeps its generation, and its registration unless the
supervisor is shut down or a reconcile finds that it has exited or is not wanted. When a probe
is started, the contexts of all probes that had its id before are cancelled. Nothing is started
after a shutdown. -/
structure StepTracks (s : System C) (e : Event C) : Prop where
  later : ∀ (ref : ℕ) p, s.sup.spawned[ref]? = some p →
    ∃ p', (step s e).sup.spawned[ref]? = some p' ∧ p.Later p'
  kept : ∀ id ref p, s.sup.probes.lookup id = some ref → s.sup.spawned[ref]? = some p →
    (step s e).sup.probes.lookup id = some ref ∨ (∃ ord, e = .shutdown ord) ∨
      ∃ target generation todo stopped,
        s.active = some (.sweeping target generation todo stopped) ∧
          (p.done ∨ ¬ Wanted target id p)
  replaced : ∀ p, (step s e).sup.spawned[s.sup.spawned.length]? = some p →
    ∀ (ref : ℕ) old, s.sup.spawned[ref]? = some old → old.id = p.id → old.cancelled
  closed : s.sup.closed →
    (step s e).sup.closed ∧ (step s e).sup.spawned.length = s.sup.spawned.length

theorem Inv.tracks (h : Inv s) : Tracks s where
  tracks := by
    intro hactive target hlast id
    have hstage := h.stage
    rw [hactive] at hstage
    cases hstage with
    | idle hidle =>
      obtain ⟨hfits, hcovers⟩ := hidle target hlast
      rw [Supervisor.registered]
      cases hid : s.sup.probes.lookup id with
      | none =>
        have hnone : (target.lookup id).join = none := by
          rw [Option.eq_none_iff_forall_ne_some]
          intro cfg hcfg
          have hmem := hcovers id cfg (Option.join_eq_some_iff.mp hcfg)
          exact (lookup_eq_none.mp hid) (hmem.resolve_right List.not_mem_nil)
        rw [hnone]
        rfl
      | some ref =>
        obtain ⟨p, hp, -⟩ := h.ownIDs id ref hid
        obtain ⟨cfg, hcfg, hget⟩ := (hfits id ref p hid hp).resolve_left List.not_mem_nil
        rw [Option.bind_some, hp, hcfg, Option.map_some, hget]
        rfl
  stopped := h.accounted
  closed := by
    intro hclosed id
    rw [Supervisor.registered, h.closed hclosed id]
    rfl

theorem step_kept (h : Inv s) (e : Event C) {id : String} {ref : ℕ} {p : Probe C}
    (hid : s.sup.probes.lookup id = some ref) (hp : s.sup.spawned[ref]? = some p) :
    (step s e).sup.probes.lookup id = some ref ∨ (∃ ord, e = .shutdown ord) ∨
      ∃ target generation todo stopped,
        s.active = some (.sweeping target generation todo stopped) ∧
          (p.done ∨ ¬ Wanted target id p) := by
  cases step_effect s e with
  | later hlater => exact Or.inl (by rw [hlater.probes, hid])
  | removed hactive hkeeps hsup =>
    rename_i target generation id' ref' todo stopped
    by_cases heq : id = id'
    · subst heq
      have hstage := h.stage
      rw [hactive] at hstage
      cases hstage with
      | sweeping hopen htodo hnodup hstopped hfits =>
        have hsame := htodo (id, ref') List.mem_cons_self
        rw [hid] at hsame
        cases hsame
        rw [hp, Option.any_some, keeps_iff, not_and_or, Bool.not_eq_false] at hkeeps
        exact Or.inr (Or.inr ⟨_, _, _, _, hactive, hkeeps⟩)
    · refine Or.inl ?_
      rw [hsup, lookup_erase_eq, if_neg heq, hid]
  | started hactive hnew hsup =>
    refine Or.inl ?_
    rw [hsup, startProbe, lookup_insert_ne, hid]
    rintro rfl
    exact hnew (mem_iff.mpr ⟨_, hid⟩)
  | shutDown hevent hsup => exact Or.inr (Or.inl ⟨_, hevent⟩)

theorem step_replaced (h : Inv s) (e : Event C) {p : Probe C}
    (hp : (step s e).sup.spawned[s.sup.spawned.length]? = some p) {ref : ℕ} {old : Probe C}
    (hold : s.sup.spawned[ref]? = some old) (hid : old.id = p.id) : old.cancelled := by
  have hend : ∀ p, s.sup.spawned[s.sup.spawned.length]? ≠ some p := by
    intro p hp
    rw [List.getElem?_eq_none le_rfl] at hp
    cases hp
  cases step_effect s e with
  | later hlater =>
    obtain ⟨p', hp', -⟩ := hlater.getElem? hp
    exact absurd hp' (hend p')
  | removed hactive hkeeps hsup =>
    rw [hsup] at hp
    exact absurd hp (hend p)
  | started hactive hnew hsup =>
    rw [hsup] at hp
    rcases Run.getElem?_concat_eq_some_iff.mp hp with hp | ⟨-, rfl⟩
    · exact absurd hp (hend p)
    · have hacc := h.accounted
      rw [hactive] at hacc
      rcases hacc ref old hold with hreg | hcancelled | hleft
      · rw [hid] at hreg
        exact absurd (mem_iff.mpr ⟨_, hreg⟩) hnew
      · exact hcancelled
      · exact absurd hleft List.not_mem_nil
  | shutDown hevent hsup =>
    rw [hsup] at hp
    exact absurd hp (hend p)

theorem step_closed (h : Inv s) (e : Event C) (hclosed : s.sup.closed) :
    (step s e).sup.closed ∧ (step s e).sup.spawned.length = s.sup.spawned.length := by
  cases step_effect s e with
  | later hlater => exact ⟨by rw [hlater.closed, hclosed], hlater.length_eq⟩
  | removed hactive hkeeps hsup =>
    rw [hsup]
    exact ⟨hclosed, rfl⟩
  | started hactive hnew hsup =>
    have hstage := h.stage
    rw [hactive] at hstage
    cases hstage with
    | starting hopen hfits hcovers htodo =>
      exact absurd (hopen.symm.trans hclosed) Bool.false_ne_true
  | shutDown hevent hsup =>
    rw [hsup]
    exact ⟨rfl, rfl⟩

theorem Inv.stepTracks (h : Inv s) (e : Event C) : StepTracks s e where
  later := fun _ _ hp => spawned_step s e hp
  kept := fun _ _ _ hid hp => step_kept h e hid hp
  replaced := fun _ hp _ _ hold hid => step_replaced h e hp hold hid
  closed := step_closed h e

end Tracking

section Whole

variable [ProbeConfig C] {s : System C} {e : Event C} {target : Target C}

def Serves (target : Target C) : Active C → Prop
  | .sweeping target' _ _ _ => target' = target
  | .stopping call _ _ _ => call = .reconcile target
  | .waiting call _ _ => call = .reconcile target
  | .starting target' _ _ _ => target' = target

variable {a : Active C} {l : List (Event C)}

/-- A round of a reconcile leaves it in progress, or ends it with its target. -/
theorem Serves.advance (h : Serves target a) (ord : RangeOrder) (s : System C) :
    (∃ a', (advance ord s a).active = some a' ∧ Serves target a') ∨
      (advance ord s a).active = none ∧ (advance ord s a).last = some target := by
  cases a with
  | sweeping target' generation todo stopped =>
    cases todo with
    | nil => exact Or.inl ⟨_, rfl, congrArg Call.reconcile h⟩
    | cons entry todo =>
      rw [Probes.advance]
      split_ifs
      · exact Or.inl ⟨_, rfl, h⟩
      · exact Or.inl ⟨_, rfl, h⟩
  | stopping call generation todo stopped =>
    cases todo with
    | nil => exact Or.inl ⟨_, rfl, h⟩
    | cons entry todo => exact Or.inl ⟨_, rfl, h⟩
  | waiting call generation stopped =>
    obtain rfl : call = .reconcile target := h
    exact Or.inl ⟨_, rfl, rfl⟩
  | starting target' generation todo errs =>
    cases todo with
    | nil => exact Or.inr ⟨rfl, congrArg some h⟩
    | cons entry todo =>
      obtain ⟨id, cfg⟩ := entry
      unfold Probes.advance
      dsimp only
      split_ifs
      · exact Or.inl ⟨_, rfl, h⟩
      · cases cfg with
        | none => exact Or.inl ⟨_, rfl, h⟩
        | some cfg => exact Or.inl ⟨_, rfl, h⟩

theorem probes_step (hactive : s.active = some a) (he : ¬ e.isAdvance) :
    (step s e).sup.probes = s.sup.probes := by
  unfold step
  cases e with
  | markStarted => rfl
  | reconcile ctxErr target ord => rw [hactive]
  | shutdown ord => rw [hactive]
  | advance ord => exact absurd rfl he
  | contextEnds ref => rfl
  | exit ref err => rfl

/-- While a reconcile is in progress, a probe that is alive and wanted stays in the map. -/
theorem Serves.kept (h : Serves target a) (hinv : Inv s)
    (hactive : s.active = some a) (e : Event C) {id : String} {ref : ℕ} {p : Probe C}
    (hid : s.sup.probes.lookup id = some ref) (hp : s.sup.spawned[ref]? = some p)
    (hlive : p.done = false) (hwanted : Wanted target id p) :
    (step s e).sup.probes.lookup id = some ref := by
  by_cases he : e.isAdvance
  · rcases step_kept hinv e hid hp with hkept | ⟨ord, rfl⟩ | ⟨_, _, _, _, hsweeping, hgone⟩
    · exact hkept
    · cases he
    · cases hactive.symm.trans hsweeping
      obtain rfl := h
      rcases hgone with hdone | hunwanted
      · exact absurd (hlive.symm.trans hdone) Bool.false_ne_true
      · exact absurd hwanted hunwanted
  · rwa [probes_step hactive he]

theorem spawned_foldl (l : List (Event C)) {s : System C} {ref : ℕ} {p : Probe C}
    (hp : s.sup.spawned[ref]? = some p) :
    ∃ p', (l.foldl step s).sup.spawned[ref]? = some p' ∧ p.Later p' := by
  induction l generalizing s p with
  | nil => exact ⟨p, hp, Probe.Later.refl p⟩
  | cons e l ih =>
    obtain ⟨p₁, hp₁, hlater₁⟩ := spawned_step s e hp
    obtain ⟨p₂, hp₂, hlater₂⟩ := ih hp₁
    exact ⟨p₂, hp₂, hlater₁.trans hlater₂⟩

/-- What a reconcile that passed its checks comes to: it has returned, the registered probes are
those of its target, and a probe that was registered, is wanted and has not exited is still the
one that is registered. -/
structure Reconciled (s s' : System C) (target : Target C) : Prop where
  returned : s'.active = none
  registered : ∀ id,
    (s'.sup.registered id).map (fun p => getID p.config) = (target.lookup id).join.map getID
  kept : ∀ id ref p, s.sup.probes.lookup id = some ref → s'.sup.spawned[ref]? = some p →
    p.done = false → Wanted target id p → s'.sup.probes.lookup id = some ref

theorem Serves.reconciled_cons (h : Serves target a) (hinv : Inv s) (hactive : s.active = some a)
    (hrest : Reconciled (step s e) (l.foldl step (step s e)) target) :
    Reconciled s (l.foldl step (step s e)) target := by
  refine ⟨hrest.returned, hrest.registered, ?_⟩
  intro id ref p hid hp hlive hwanted
  obtain ⟨p₀, hp₀, -⟩ := hinv.ownIDs id ref hid
  obtain ⟨p', hp', hlater⟩ := spawned_foldl (e :: l) hp₀
  cases hp.symm.trans hp'
  -- What has not exited at the end had not exited before.
  have hlive₀ : p₀.done = false := by
    rw [Bool.eq_false_iff]
    intro hdone
    exact absurd (hlive.symm.trans (hlater.done hdone)) Bool.false_ne_true
  have hwanted₀ : Wanted target id p₀ := by
    obtain ⟨cfg, hcfg, hget⟩ := hwanted
    exact ⟨cfg, hcfg, by rw [← hlater.config, hget]⟩
  exact hrest.kept id ref p (h.kept hinv hactive e hid hp₀ hlive₀ hwanted₀) hp hlive hwanted

theorem Inv.reconciled (h : Inv s) (hactive : s.active = none) (hlast : s.last = some target) :
    Reconciled s s target :=
  ⟨hactive, h.tracks.tracks hactive target hlast, fun _ _ _ hid _ _ _ => hid⟩

/-- A reconcile in progress returns after its rounds, whatever happens in between. -/
theorem Serves.exists_reconciled (h : Serves target a) (hinv : Inv s) (hactive : s.active = some a)
    (hl : rounds (some a) ≤ l.countP Event.isAdvance) :
    ∃ pre, pre <+: l ∧ Reconciled s (pre.foldl step s) target := by
  induction l generalizing s a with
  | nil =>
    have hpos := rounds_advance .listed s a
    rw [List.countP_nil] at hl
    omega
  | cons e l ih =>
    by_cases he : e.isAdvance
    · cases e with
      | advance ord =>
        have hstep : step s (.advance ord) = Probes.advance ord s a := by
          rw [step, hactive]
        rcases h.advance ord s with ⟨a', hactive', hserves⟩ | ⟨hnone, hlast⟩
        · have hlt := rounds_advance ord s a
          rw [List.countP_cons_of_pos he] at hl
          rw [hactive'] at hlt
          obtain ⟨pre, hpre, hrest⟩ := ih hserves (hinv.step _) (hstep ▸ hactive')
            (by omega)
          exact ⟨_ :: pre, List.prefix_cons_inj _ |>.mpr hpre,
            h.reconciled_cons hinv hactive hrest⟩
        · refine ⟨[.advance ord], List.prefix_cons_inj _ |>.mpr List.nil_prefix, ?_⟩
          have hinv' := hinv.step (.advance ord)
          exact @Serves.reconciled_cons _ _ s (.advance ord) target a [] h hinv hactive
            (hinv'.reconciled (hstep ▸ hnone) (hstep ▸ hlast))
      | markStarted => cases he
      | reconcile ctxErr target ord => cases he
      | shutdown ord => cases he
      | contextEnds ref => cases he
      | exit ref err => cases he
    · rw [List.countP_cons_of_neg he] at hl
      obtain ⟨pre, hpre, hrest⟩ := ih h (hinv.step e) (active_step hactive he) hl
      exact ⟨e :: pre, List.prefix_cons_inj e |>.mpr hpre,
        h.reconciled_cons hinv hactive hrest⟩

theorem exists_reconciled (hinv : Inv s) (hactive : s.active = none)
    (hstarted : s.sup.started = true) (hopen : s.sup.closed = false) (target : Target C)
    (ord : RangeOrder)
    (hl : 2 * s.sup.probes.keys.length + target.keys.length + 4 ≤ l.countP Event.isAdvance) :
    ∃ pre, pre <+: l ∧
      Reconciled s (pre.foldl step (step s (.reconcile none target ord))) target := by
  have hstep : step s (.reconcile none target ord) =
      { s with
        sup := { s.sup with generation := s.sup.generation + 1 }
        active := some (.sweeping target (s.sup.generation + 1) (s.sup.probes.range ord) ∅) } := by
    simp [step, hactive, enterReconcile, hstarted, hopen]
  have hrounds : rounds (step s (.reconcile none target ord)).active ≤
      l.countP Event.isAdvance := by
    rw [hstep]
    simpa [rounds, length_range] using hl
  have hinv' := hinv.step (.reconcile none target ord)
  rw [hstep] at hrounds hinv' ⊢
  have hserves : Serves target
      (.sweeping target (s.sup.generation + 1) (s.sup.probes.range ord) ∅) := rfl
  obtain ⟨pre, hpre, hrest⟩ := hserves.exists_reconciled hinv' rfl hrounds
  exact ⟨pre, hpre, hrest.returned, hrest.registered, hrest.kept⟩

theorem closed_shutdown (hactive : s.active = none) (ord : RangeOrder) :
    (step s (.shutdown ord)).sup.closed = true := by
  simp only [step, hactive, enterShutdown]
  split_ifs with hclosed
  · exact hclosed
  · rfl

end Whole

section Example

structure FakeConfig where
  id : String

instance : ProbeConfig FakeConfig := ⟨FakeConfig.id⟩

def fakeTarget (entries : List (String × Option FakeConfig)) : Target FakeConfig :=
  entries.foldl (fun m e => m.insert e.1 e.2) ∅

def firstExits : List (Event FakeConfig) :=
  [.markStarted, .reconcile none
    (fakeTarget [("a", some ⟨"a"⟩), ("b", some ⟨"b"⟩), ("c", some ⟨"c"⟩)]) .listed] ++
    List.replicate 7 (.advance .listed) ++ [.exit 0 none]

def secondTarget : Target FakeConfig :=
  fakeTarget [("a", some ⟨"a"⟩), ("b", some ⟨"b"⟩), ("c", none), ("d", some ⟨"d"⟩)]

end Example

end Maeto.Probes
