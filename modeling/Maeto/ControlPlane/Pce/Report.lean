import Maeto.ControlPlane.Cspf.Search
import Maeto.ControlPlane.Demand

/-!
# The report of a tick

A tick reports every path it changes, and every change it holds back, with the
links of the departing path whose latency cost rose since the last tick. The
newest reports are kept in a bounded store.

The numbers of a cause follow the arithmetic of the source with infinite costs: the
rise of a cost that is infinite in both snapshots is not a number, a comparison with
it is false, and it makes the total and every share the same. A fall from an infinite
cost is written as no rise, since a cause is only made of what rose.
-/

namespace Maeto.ControlPlane

open Foundation

abbrev PathSet := GoMap PathKey Path

inductive PathChangeKind where
  | rerouted
  | gated
  | heldDown
  | new
  | linkDown
  deriving DecidableEq, Repr

def PathChangeKind.text : PathChangeKind → String
  | rerouted => "rerouted"
  | gated => "gated"
  | heldDown => "held_down"
  | new => "new"
  | linkDown => "link_down"

abbrev CostFloat := WithTop ExtCost

namespace CostFloat

def number (x : ℚ) : CostFloat := ((x : ExtCost) : CostFloat)

def inf : CostFloat := ((⊤ : ExtCost) : CostFloat)

end CostFloat

structure PathChangeCause where
  edge : EdgeID
  dim : CostDimension
  was : ExtCost
  now : ExtCost
  delta : CostFloat
  share : CostFloat
  deriving DecidableEq

structure PCETickReportReroute where
  time : Time
  tenant : TenantID
  label : Label
  src : NodeID
  dst : NodeID
  kind : PathChangeKind
  fromPath : Path
  toPath : Path
  causes : List PathChangeCause
  deriving DecidableEq

def causeShareFloor : ℚ := 1 / 20

def costRise (was now : ExtCost) : CostFloat :=
  match was, now with
  | some w, some n => .number (n - w)
  | some _, none => .inf
  | none, some _ => 0
  | none, none => ⊤

def costShare (delta total : CostFloat) : CostFloat :=
  match delta, total with
  | some (some d), some (some t) => .number (d / t)
  | some (some _), some none => 0
  | some none, some (some _) => .inf
  | _, _ => ⊤

def causeOf (dim : CostDimension) (now : Costs) (e : CostGraphEdge × Cost) :
    Option PathChangeCause :=
  match now.lookup e.1 with
  | none => none
  | some curr =>
    let delta := costRise (e.2.getD dim 0) (curr.getD dim 0)
    if delta ≤ 0 then none
    else some
      { edge := e.1.id, dim, was := e.2.getD dim 0, now := curr.getD dim 0, delta, share := 0 }

def attributeCauses (ord : RangeOrder) (path : Path) (dim : CostDimension) (was now : Costs) :
    List PathChangeCause :=
  if was.entries = [] then []
  else
    let causes := (path.nodes.zip path.nodes.tail).flatMap fun hop =>
      (costsBetween ord was hop.1 hop.2).filterMap (causeOf dim now)
    let total := causes.foldl (fun total c => total + c.delta) (0 : CostFloat)
    if total ≤ 0 then []
    else
      ((causes.map fun c => { c with share := costShare c.delta total }).filter
        fun c => decide (.number causeShareFloor ≤ c.share)).insertionSort
          fun a b => b.delta ≤ a.delta

def recentPathChangeLimit : ℕ := 64

def recordChanges (changes recent : List PCETickReportReroute) : List PCETickReportReroute :=
  if changes = [] then recent else (changes ++ recent).take recentPathChangeLimit

end Maeto.ControlPlane
