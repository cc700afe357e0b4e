import Maeto.Foundation.GoMap

/-!
# The probe supervisor

The supervisor runs one probe for each id of its target. A reconcile first takes the probes that
are not wanted any more, or have exited, out of the map, then cancels their contexts and waits
for them, and at last starts what is missing. A shutdown takes all probes out of the map and
stops them. The two exclude each other for their whole length.

A call is represented in the steps it takes, one for each round of its loops, so that a probe
can exit between any two of them. A probe that is started is never forgotten here: the map of
the supervisor holds positions in the list of all probes.
-/

namespace Maeto.Probes

open Foundation

class ProbeConfig (C : Type) where
  getID : C → String

open ProbeConfig

structure Probe (C : Type) where
  id : String
  config : C
  generation : UInt64
  cancelled : Bool
  done : Bool
  err : Option String

inductive SupervisorError where
  | notStarted
  | context (err : String)
  | shutDown
  | nilConfig (id : String)
  | probe (id err : String)
  deriving DecidableEq

def SupervisorError.text (quote : String → String) : SupervisorError → String
  | notStarted => "supervisor has not been started"
  | context err => err
  | shutDown => "supervisor is shut down"
  | nilConfig id => "probe " ++ quote id ++ ": nil config"
  | probe id err => "probe " ++ quote id ++ ": " ++ err

abbrev Target (C : Type) := GoMap String (Option C)

structure Supervisor (C : Type) where
  started : Bool
  probes : GoMap String ℕ
  generation : UInt64
  closed : Bool
  spawned : List (Probe C)

def newSupervisor (C : Type) : Supervisor C where
  started := false
  probes := ∅
  generation := 0
  closed := false
  spawned := []

inductive Call (C : Type) where
  | reconcile (target : Target C)
  | shutdown

inductive Active (C : Type) where
  | sweeping (target : Target C) (generation : UInt64) (todo : List (String × ℕ))
      (stopped : GoMap String ℕ)
  | stopping (call : Call C) (generation : UInt64) (todo : List (String × ℕ))
      (stopped : GoMap String ℕ)
  | waiting (call : Call C) (generation : UInt64) (stopped : GoMap String ℕ)
  | starting (target : Target C) (generation : UInt64) (todo : List (String × Option C))
      (errs : List SupervisorError)

structure System (C : Type) where
  sup : Supervisor C
  active : Option (Active C)
  returned : List SupervisorError
  last : Option (Target C)

variable {C : Type} [ProbeConfig C]

section Calls

def keeps (p : Probe C) (desired : Option (Option C)) : Bool :=
  match desired with
  | some (some cfg) => !p.done && getID p.config = getID cfg
  | _ => false

def cancelProbe (s : Supervisor C) (ref : ℕ) : Supervisor C :=
  { s with spawned := s.spawned.modify ref fun p => { p with cancelled := true } }

def startProbe (s : Supervisor C) (id : String) (config : C) (generation : UInt64) :
    Supervisor C :=
  { s with
    probes := s.probes.insert id s.spawned.length
    spawned := s.spawned ++
      [{ id, config, generation, cancelled := false, done := false, err := none }] }

def enterReconcile (ctxErr : Option String) (target : Target C) (ord : RangeOrder)
    (s : System C) : System C :=
  if s.sup.started = false then { s with returned := [.notStarted] }
  else
    match ctxErr with
    | some err => { s with returned := [.context err] }
    | none =>
      if s.sup.closed then { s with returned := [.shutDown] }
      else
        { s with
          sup := { s.sup with generation := s.sup.generation + 1 }
          active := some (.sweeping target (s.sup.generation + 1) (s.sup.probes.range ord) ∅) }

def enterShutdown (ord : RangeOrder) (s : System C) : System C :=
  if s.sup.closed then { s with returned := [] }
  else
    { s with
      sup := { s.sup with closed := true, generation := s.sup.generation + 1, probes := ∅ }
      active := some
        (.stopping .shutdown (s.sup.generation + 1) (s.sup.probes.range ord) s.sup.probes) }

def probeError (s : Supervisor C) (e : String × ℕ) : Option SupervisorError :=
  s.spawned[e.2]?.bind fun p => if p.done then p.err.map (.probe e.1) else none

def advance (ord : RangeOrder) (s : System C) : Active C → System C
  | .sweeping target generation ((id, ref) :: todo) stopped =>
    if s.sup.spawned[ref]?.any fun p => keeps p (target.lookup id) then
      { s with active := some (.sweeping target generation todo stopped) }
    else
      { s with
        sup := { s.sup with probes := s.sup.probes.erase id }
        active := some (.sweeping target generation todo (stopped.insert id ref)) }
  | .sweeping target generation [] stopped =>
    { s with
      active := some (.stopping (.reconcile target) generation (stopped.range ord) stopped) }
  | .stopping call generation ((_, ref) :: todo) stopped =>
    { s with
      sup := cancelProbe s.sup ref
      active := some (.stopping call generation todo stopped) }
  | .stopping call generation [] stopped =>
    { s with active := some (.waiting call generation stopped) }
  | .waiting (.reconcile target) generation _ =>
    -- The probes have exited, or the time is over.
    { s with active := some (.starting target generation (target.range ord) []) }
  | .waiting .shutdown _ stopped =>
    { s with
      active := none
      returned := (stopped.range ord).filterMap (probeError s.sup)
      last := none }
  | .starting target generation ((id, cfg) :: todo) errs =>
    if id ∈ s.sup.probes then { s with active := some (.starting target generation todo errs) }
    else
      match cfg with
      | none =>
        { s with active := some (.starting target generation todo (errs ++ [.nilConfig id])) }
      | some cfg =>
        { s with
          sup := startProbe s.sup id cfg generation
          active := some (.starting target generation todo errs) }
  | .starting target _ [] errs =>
    { s with active := none, returned := errs, last := some target }

end Calls

section Steps

inductive Event (C : Type) where
  | markStarted
  | reconcile (ctxErr : Option String) (target : Target C) (ord : RangeOrder)
  | shutdown (ord : RangeOrder)
  | advance (ord : RangeOrder)
  | contextEnds (ref : ℕ)
  | exit (ref : ℕ) (err : Option String)

def Probe.exit (err : Option String) (p : Probe C) : Probe C :=
  if p.done then p else { p with cancelled := true, done := true, err }

def step (s : System C) : Event C → System C
  | .markStarted => { s with sup := { s.sup with started := true } }
  | .reconcile ctxErr target ord =>
    match s.active with
    | none => enterReconcile ctxErr target ord s
    | some _ => s
  | .shutdown ord =>
    match s.active with
    | none => enterShutdown ord s
    | some _ => s
  | .advance ord =>
    match s.active with
    | none => s
    | some a => advance ord s a
  | .contextEnds ref => { s with sup := cancelProbe s.sup ref }
  | .exit ref err =>
    { s with sup := { s.sup with spawned := s.sup.spawned.modify ref (Probe.exit err) } }

def run (events : List (Event C)) : System C :=
  events.foldl step { sup := newSupervisor C, active := none, returned := [], last := none }

end Steps

end Maeto.Probes
