import Maeto.Dataplane.Linux
import Maeto.Dataplane.Reconcile
import Maeto.Foundation.Run

/-!
# Sequences of deliveries

Intents are delivered to one reconciler one after the other, in any order and any
number of times. Between two deliveries the dataplane may change on its own, and
its calls may fail or have no effect. The run records for which intents `Apply`
was run, by their version and generation.

`Plan` turns an intent away when it is older than the remembered one, and an
intent is remembered when a pass finds no difference, while `Apply` has changed
the dataplane by then. An intent that was applied but not remembered does not
hold off an older one.
-/

namespace Maeto.Dataplane

open Foundation Nodesync

structure Delivery (σ : Type) where
  intent : NodeIntent
  ords : ℕ → PassOrders
  disturb : σ → σ

structure Node (σ : Type) where
  reconciler : Reconciler
  state : σ
  applied : List (ℕ ×ₗ ℕ)

def Node.start {σ : Type} (nodeType : NodeType) (s : σ) : Node σ where
  reconciler := { nodeType, current := none }
  state := s
  applied := []

section Run

variable {σ : Type} (dp : Dataplane σ)

def deliver (node : Node σ) (d : Delivery σ) : Node σ :=
  let o := reconcile dp d.ords node.reconciler d.intent (d.disturb node.state)
  { reconciler := o.reconciler
    state := o.state
    applied := if o.applied then d.intent.stamp :: node.applied else node.applied }

/-- An intent that is older than an applied one comes when a newer one than it is
remembered. -/
def HeldOff (node : Node σ) (d : Delivery σ) : Prop :=
  ∀ stamp ∈ node.applied, d.intent.stamp < stamp →
    ∃ current ∈ node.reconciler.current, d.intent.stamp < current.stamp

/-- No intent was applied after a newer one. -/
def NeverRolledBack (node : Node σ) : Prop :=
  node.applied.Pairwise fun later earlier => earlier ≤ later

variable {dp}

theorem NeverRolledBack.of_deliver {node : Node σ} (h : NeverRolledBack node) {d : Delivery σ}
    (hd : HeldOff node d) : NeverRolledBack (deliver dp node d) := by
  unfold NeverRolledBack deliver
  dsimp only
  split_ifs with happlied
  · have hnotOlder := of_admitIntent_eq_ok (reconcilePasses_applied happlied)
    refine List.pairwise_cons.mpr ⟨?_, h⟩
    intro stamp hstamp
    by_contra hlt
    obtain ⟨current, hcurrent, hnewer⟩ := hd stamp hstamp (not_le.mp hlt)
    exact absurd (hnotOlder.2 current hcurrent) (not_le.mpr hnewer)
  · exact h

/-- An applied intent is not rolled back by an older one in a run in which every
intent that is older than an applied one finds a newer one remembered. -/
theorem run_never_rolled_back (nodeType : NodeType) (s : σ) (ds : List (Delivery σ))
    (h : Run.EachStep (deliver dp) HeldOff (.start nodeType s) ds) :
    NeverRolledBack (ds.foldl (deliver dp) (.start nodeType s)) :=
  h.foldl_induction (fun _ _ hnode hd => hnode.of_deliver hd) List.Pairwise.nil

end Run

section Refusing

def refused (s : Unit) : Option String × Unit := (some "operation not permitted", s)

def refusing : Dataplane Unit where
  upsertVRF := fun _ _ => refused
  removeVRF := fun _ => refused
  getLinksByType := fun _ _ => .ok []
  insertXFRMInterface := fun _ _ _ _ => refused
  removeXFRMInterface := fun _ => refused
  upsertRule := fun _ _ _ _ _ => refused
  removeRule := fun _ _ _ _ _ => refused
  getRules := fun _ => .ok []
  insertPrefixRoute := fun _ _ _ _ => refused
  removePrefixRoute := fun _ _ => refused
  getPrefixRoutes := fun _ => .ok []
  insertSRRouteForPrefix := fun _ _ _ => refused
  getSRRoutes := fun _ => .ok []
  removeSRRouteForPrefix := fun _ _ => refused
  upsertDT46SID := fun _ _ => refused
  removeSID := fun _ => refused
  getSIDs := fun _ => .ok []
  ensureClassificationBase := fun s => (none, s)
  insertClassification := fun _ _ => refused
  getClassifications := fun _ => .ok []
  removeClassification := fun _ => refused

def tunnelIntent (generation : UInt32) : NodeIntent where
  id := "cpe1"
  nodeType := .cpe
  intent := .cpe
    { portalID := "cpe1", tunnelInterfaceID := 7, tunnelPE := "pe1",
      tunnelPEEndpointAddr := .v6 1, tenantID := "1", tenantPrefix := .default6,
      sitePrefix := .default6 }
  timestamp := 0
  generation
  version := 1

def tunnelDelivery {σ : Type} (generation : UInt32) : Delivery σ where
  intent := tunnelIntent generation
  ords := fun _ => .listed
  disturb := id

/-- Generation 5 is applied and remembered, and so generation 3 is turned away. -/
theorem never_rolled_back_five_three :
    let node := deliver linuxNetlink (.start .cpe .started) (tunnelDelivery 5)
    node.applied = [toLex (1, 5)] ∧ node.reconciler.current.isSome ∧
      NeverRolledBack ([tunnelDelivery 5, tunnelDelivery 3].foldl (deliver linuxNetlink)
        (.start .cpe .started)) := by
  refine ⟨by decide +kernel, by decide +kernel, run_never_rolled_back .cpe _ _ ⟨?_, ?_, trivial⟩⟩
  · intro stamp hstamp
    cases hstamp
  · intro stamp _ _
    have hremembered : (deliver linuxNetlink (.start .cpe .started)
        (tunnelDelivery 5)).reconciler.current.any
          (fun current => decide ((tunnelIntent 3).stamp < current.stamp)) = true := by
      decide +kernel
    obtain ⟨current, hcurrent, hnewer⟩ := (Option.any_eq_true _ _).mp hremembered
    exact ⟨current, hcurrent, of_decide_eq_true hnewer⟩

/-- Neither generation converges on this dataplane, so generation 3 is applied
after generation 5. -/
theorem rolled_back_five_three :
    ¬ NeverRolledBack
      ([tunnelDelivery 5, tunnelDelivery 3].foldl (deliver refusing) (.start .cpe ())) := by
  have happlied : ([tunnelDelivery 5, tunnelDelivery 3].foldl (deliver refusing)
      (.start .cpe ())).applied = [toLex (1, 3), toLex (1, 5)] := by decide +kernel
  rw [NeverRolledBack, happlied]
  decide

end Refusing

end Maeto.Dataplane
