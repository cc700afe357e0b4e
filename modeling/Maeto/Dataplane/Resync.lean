import Maeto.Dataplane.Convergence
import Maeto.Dataplane.Deliveries

/-!
# Delivering an intent again

The agent hands the reconciler the newest intent again at intervals, whatever became of it
before. One reconcile may end in an error although no call fails (`default_route_not_converged`),
but it leaves the VRFs that are asked for, and with them there the next one converges. After that
a delivery of the same intent changes nothing (`redeliver_settles`).

Nothing is assumed of what was delivered before, nor of what became of it. Between those
deliveries objects may have been taken from the kernel, by us or by others.
-/

namespace Maeto.Dataplane

open Foundation Nodesync

section Redelivery

variable {σ : Type}

def redeliver (dp : Dataplane σ) (ords : ℕ → ℕ → PassOrders) (ni : NodeIntent) (r : Reconciler)
    (s : σ) : ℕ → Outcome σ
  | 0 => reconcile dp (ords 0) r ni s
  | n + 1 =>
    let before := redeliver dp ords ni r s n
    reconcile dp (ords (n + 1)) before.reconciler ni before.state

variable {dp : Dataplane σ} {ords : ℕ → PassOrders} {ni : NodeIntent} {r : Reconciler}

variable (dp ords ni r) in
theorem reconcilePasses_reconciler (n : ℕ) (s : σ) :
    (reconcilePasses dp ords ni r n s).reconciler = r ∨
      (reconcilePasses dp ords ni r n s).reconciler = { r with current := some ni } := by
  induction n generalizing s with
  | zero => exact Or.inl rfl
  | succ n ih =>
    rw [reconcilePasses]
    cases plan dp (ords n) r ni s with
    | error err => exact Or.inl rfl
    | ok resources =>
      dsimp only
      split_ifs
      · exact Or.inr rfl
      · split
        · exact Or.inl rfl
        · exact ih _

theorem admitIntent_again (h : admitIntent r ni = .ok ()) (n : ℕ) (s : σ) :
    admitIntent (reconcilePasses dp ords ni r n s).reconciler ni = .ok () := by
  rcases reconcilePasses_reconciler dp ords ni r n s with hr | hr
  · rw [hr]
    exact h
  · rw [hr]
    simp [admitIntent, (of_admitIntent_eq_ok h).1]

theorem admitIntent_redeliver {ords : ℕ → ℕ → PassOrders} (h : admitIntent r ni = .ok ()) (s : σ)
    (n : ℕ) : admitIntent (redeliver dp ords ni r s n).reconciler ni = .ok () := by
  induction n with
  | zero => exact admitIntent_again h maxPasses s
  | succ n ih => exact admitIntent_again ih maxPasses _

end Redelivery

section Settling

variable {ords : ℕ → PassOrders} {r : Reconciler} {ni : NodeIntent} {k : Kernel} {v : VRF}

theorem reconcilePasses_eq_of_exact (ords : ℕ → PassOrders) (n : ℕ) (hwf : WellFormed ni.intent)
    (haccept : admitIntent r ni = .ok ()) (hk : Tidy ni.intent.nodeType k)
    (hexact : Exact ni.intent k) :
    reconcilePasses documented ords ni r (n + 1) k =
      ⟨none, { r with current := some ni }, k, false, []⟩ := by
  obtain ⟨fib, desired, hread, hrender, hplan⟩ := plan_tidy hwf haccept hk (ords n)
  have hdiff := (diff_nil_iff hwf hread hrender).mpr hexact
  simp only [reconcilePasses, hplan, if_pos hdiff]

theorem reconcilePasses_state_of_not_exact {n : ℕ} (hwf : WellFormed ni.intent)
    (hone : OnePlaceEach ni.intent) (haccept : admitIntent r ni = .ok ())
    (hk : Tidy ni.intent.nodeType k) (hexact : ¬ Exact ni.intent k)
    (hlog : (reconcilePasses documented ords ni r (n + 1) k).logged = []) :
    ∃ k', Pass ni.intent k k' ∧ (reconcilePasses documented ords ni r n k').logged = [] ∧
      (reconcilePasses documented ords ni r (n + 1) k).state =
        (reconcilePasses documented ords ni r n k').state := by
  obtain ⟨fib, desired, hread, hrender, hplan⟩ := plan_tidy hwf haccept hk (ords n)
  have hbase : (apply documented (diff (ords n) (renderFIB fib) desired) k).err = none := by
    simp only [apply, hk.base]
  have hdiff := mt (diff_nil_iff hwf hread hrender).mp hexact
  simp only [reconcilePasses, hplan, if_neg hdiff, hbase, List.append_eq_nil_iff] at hlog ⊢
  exact ⟨_, pass_apply hwf hone hk hread hrender hlog.1, hlog.2, rfl⟩

/-- A VRF that is asked for is there after a pass, and stays. -/
theorem reconcilePasses_hasVRF {n : ℕ} (hwf : WellFormed ni.intent) (hone : OnePlaceEach ni.intent)
    (haccept : admitIntent r ni = .ok ()) (hk : Tidy ni.intent.nodeType k)
    (hlog : (reconcilePasses documented ords ni r n k).logged = []) (hv : Asks ni.intent (.vrf v))
    (hn : 0 < n ∨ k.HasKey (Resource.vrf v).key) :
    (reconcilePasses documented ords ni r n k).state.HasKey (Resource.vrf v).key := by
  induction n generalizing k with
  | zero => exact hn.resolve_left (Nat.lt_irrefl 0)
  | succ n ih =>
    by_cases hexact : Exact ni.intent k
    · rw [reconcilePasses_eq_of_exact ords n hwf haccept hk hexact]
      exact (hexact _).mpr ⟨_, hv, rfl⟩
    · obtain ⟨k', hpass, hlog', hstate⟩ :=
        reconcilePasses_state_of_not_exact hwf hone haccept hk hexact hlog
      rw [hstate]
      exact ih hpass.tidy hlog' (Or.inr (hpass.hasVRF hv))

/-- A reconcile in which no call fails leaves the defaults ready for the next. -/
theorem defaultsReady_reconcile (hwf : WellFormed ni.intent) (hone : OnePlaceEach ni.intent)
    (haccept : admitIntent r ni = .ok ()) (hk : Tidy ni.intent.nodeType k)
    (hlog : (reconcile documented ords r ni k).logged = []) :
    DefaultsReady (reconcile documented ords r ni k).state ni.intent := by
  intro v u hv _
  exact Or.inl (reconcilePasses_hasVRF hwf hone haccept hk hlog hv (Or.inl (by decide)))

/-- With the defaults ready, a reconcile in which no call fails converges. -/
theorem reconcile_exact (hwf : WellFormed ni.intent) (hone : OnePlaceEach ni.intent)
    (haccept : admitIntent r ni = .ok ()) (hk : Tidy ni.intent.nodeType k)
    (hready : DefaultsReady k ni.intent) (hlog : (reconcile documented ords r ni k).logged = []) :
    (reconcile documented ords r ni k).err = none ∧
      Exact ni.intent (reconcile documented ords r ni k).state := by
  obtain ⟨k₁, k₂, hpass₁, hpass₂, hiff⟩ := reconcile_passes hwf hone haccept hk hlog
  have hnil := hiff.mpr ((exact_iff_defaultsReady hwf hone hk hpass₁ hpass₂).mpr hready)
  exact ⟨hnil, exact_of_nil hwf hnil⟩

end Settling

section History

variable {nodeType : NodeType}

/-- A delivery of an intent for the node type, before which objects may have been taken from the
kernel. -/
structure Delivery.Takes (nodeType : NodeType) (d : Delivery Kernel) : Prop where
  kind : d.intent.intent.nodeType = nodeType
  labels : LabelsBelow256 d.intent.intent
  disturb : ∀ k : Kernel, k.Fewer (d.disturb k)

theorem Tidy.deliver {node : Node Kernel} (h : Tidy nodeType node.state) {d : Delivery Kernel}
    (hd : d.Takes nodeType) : Tidy nodeType (deliver documented node d).state :=
  (h.of_fewer (hd.disturb _)).reconcilePasses _ hd.kind hd.labels maxPasses

theorem Tidy.deliveries (ds : List (Delivery Kernel)) (hds : ∀ d ∈ ds, d.Takes nodeType)
    {node : Node Kernel} (h : Tidy nodeType node.state) :
    Tidy nodeType (ds.foldl (Dataplane.deliver documented) node).state := by
  induction ds generalizing node with
  | nil => exact h
  | cons d ds ih =>
    exact ih (fun d' hd' => hds d' (List.mem_cons_of_mem _ hd'))
      (h.deliver (hds d List.mem_cons_self))

variable {ords : ℕ → ℕ → PassOrders} {r : Reconciler} {ni : NodeIntent} {k : Kernel}

theorem Tidy.redeliver (h : Tidy nodeType k) (hkind : ni.intent.nodeType = nodeType)
    (hlabels : LabelsBelow256 ni.intent) (n : ℕ) :
    Tidy nodeType (redeliver documented ords ni r k n).state := by
  induction n with
  | zero => exact h.reconcilePasses r hkind hlabels maxPasses
  | succ n ih => exact ih.reconcilePasses _ hkind hlabels maxPasses

/-- The second delivery of an intent converges when no call fails, and so do those after it. -/
theorem redeliver_exact (hwf : WellFormed ni.intent) (hone : OnePlaceEach ni.intent)
    (haccept : admitIntent r ni = .ok ()) (hk : Tidy ni.intent.nodeType k) (n : ℕ)
    (hcalls : ∀ m ≤ n + 1, (redeliver documented ords ni r k m).logged = []) :
    (redeliver documented ords ni r k (n + 1)).err = none ∧
      Exact ni.intent (redeliver documented ords ni r k (n + 1)).state := by
  have htidy : ∀ m, Tidy ni.intent.nodeType (redeliver documented ords ni r k m).state :=
    hk.redeliver rfl hwf.labels
  refine reconcile_exact hwf hone (admitIntent_redeliver haccept k n) (htidy n) ?_
    (hcalls (n + 1) le_rfl)
  have hlog := hcalls n (Nat.le_succ n)
  cases n with
  | zero => exact defaultsReady_reconcile hwf hone haccept hk hlog
  | succ n =>
    exact defaultsReady_reconcile hwf hone (admitIntent_redeliver haccept k n) (htidy n) hlog

theorem redeliver_succ_of_exact (hwf : WellFormed ni.intent) (haccept : admitIntent r ni = .ok ())
    (hk : Tidy ni.intent.nodeType k) (n : ℕ)
    (hexact : Exact ni.intent (redeliver documented ords ni r k n).state) :
    (redeliver documented ords ni r k (n + 1)).applied = false ∧
      (redeliver documented ords ni r k (n + 1)).state =
        (redeliver documented ords ni r k n).state := by
  rw [redeliver, reconcile, maxPasses,
    reconcilePasses_eq_of_exact _ _ hwf (admitIntent_redeliver haccept k n)
      (hk.redeliver rfl hwf.labels n) hexact]
  exact ⟨rfl, rfl⟩

/-- Whatever was delivered to a node before, and whatever was taken from its kernel: of the
deliveries of a well-formed intent in which no call fails, all from the second on return no error
and leave the keys that are asked for, and all from the third on run no `Apply` and leave the
kernel as the second left it. -/
theorem redeliver_settles (k : Kernel) (hk : Untouched k) (ds : List (Delivery Kernel))
    (hds : ∀ d ∈ ds, d.Takes nodeType) (ni : NodeIntent) (hkind : ni.intent.nodeType = nodeType)
    (hwf : WellFormed ni.intent) (hone : OnePlaceEach ni.intent) (node : Node Kernel)
    (hnode : node = ds.foldl (deliver documented) (.start nodeType k))
    (haccept : admitIntent node.reconciler ni = .ok ()) (ords : ℕ → ℕ → PassOrders) (n : ℕ)
    (hcalls : ∀ m ≤ n + 1,
      (redeliver documented ords ni node.reconciler node.state m).logged = []) :
    (redeliver documented ords ni node.reconciler node.state (n + 1)).err = none ∧
      Exact ni.intent (redeliver documented ords ni node.reconciler node.state (n + 1)).state ∧
      (0 < n → (redeliver documented ords ni node.reconciler node.state (n + 1)).applied = false) ∧
      (redeliver documented ords ni node.reconciler node.state (n + 1)).state =
        (redeliver documented ords ni node.reconciler node.state 1).state := by
  subst hkind hnode
  have htidy : Tidy _ (ds.foldl (deliver documented) (.start ni.intent.nodeType k)).state :=
    Tidy.deliveries ds hds hk.tidy
  generalize ds.foldl (deliver documented) (.start ni.intent.nodeType k) = node at *
  have hexact := redeliver_exact hwf hone haccept htidy n hcalls
  refine ⟨hexact.1, hexact.2, ?_⟩
  induction n with
  | zero => exact ⟨fun h => absurd h (Nat.lt_irrefl 0), rfl⟩
  | succ n ih =>
    have hcalls' := fun m (hm : m ≤ n + 1) => hcalls m (Nat.le_succ_of_le hm)
    have hexact' := redeliver_exact hwf hone haccept htidy n hcalls'
    obtain ⟨happlied, hstate⟩ := redeliver_succ_of_exact hwf haccept htidy (n + 1) hexact'.2
    exact ⟨fun _ => happlied, hstate.trans (ih hcalls' hexact').2⟩

/-- No two resources of the intent have one place, since it can be read back. -/
theorem onePlaceEach_defaultPortal : OnePlaceEach defaultPortal.intent := by
  have hnil : (reconcile documented (fun _ => .listed) vrfFirst.reconciler defaultPortal
      vrfFirst.state).err = none := by decide +kernel
  exact (exact_of_nil wellFormed_defaultPortal hnil).onePlaceEach wellFormed_defaultPortal
    (left_vrfFirst.tidy.reconcilePasses _ rfl wellFormed_defaultPortal.labels maxPasses)

def routesLost : Delivery Kernel where
  intent := defaultPortal
  ords := fun _ => .listed
  disturb := fun k => { k with routes := [] }

theorem takes_routesLost : routesLost.Takes .pe where
  kind := rfl
  labels := wellFormed_defaultPortal.labels
  disturb := fun k => { Kernel.Fewer.refl k with routes := List.nil_sublist _ }

/-- The portal that did not converge at first does so when it is delivered again. -/
theorem redeliver_settles_defaultPortal :
    ∃ node : Node Kernel, node = [routesLost].foldl (deliver documented) (.start .pe .started) ∧
      (redeliver documented (fun _ _ => .listed) defaultPortal node.reconciler node.state 1).err =
        none := by
  refine ⟨_, rfl, (redeliver_settles .started untouched_started [routesLost] ?_ defaultPortal rfl
    wellFormed_defaultPortal onePlaceEach_defaultPortal _ rfl ?_ (fun _ _ => .listed) 0 ?_).1⟩
  · intro d hd
    rw [List.mem_singleton.mp hd]
    exact takes_routesLost
  · decide +kernel
  · intro m hm
    rcases Nat.le_one_iff_eq_zero_or_eq_one.mp hm with rfl | rfl
    · decide +kernel
    · decide +kernel

end History

end Maeto.Dataplane
