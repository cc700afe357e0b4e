import Maeto.Dataplane.Convergence
import Maeto.Dataplane.Deliveries

/-!
# Where the objects of a kernel come from

Every link, route and rule of a kernel was there before the first delivery, or was put there for a
resource of an intent that was delivered (`From`). A call that removes a resource takes objects
away, and one that adds a resource adds objects for it only. So this holds at any time: over any
number of deliveries, after calls that failed, and also when a reconcile ends without having
converged (`deliveries_from`).
-/

namespace Maeto.Dataplane

open Foundation Netip Nodesync

section Forms

def Resource.link : Resource → Option (String × LinkKind)
  | .vrf v => some (v.name, .vrf v.tableID)
  | .xfrm x => some (x.name, .xfrm x.ifID)
  | _ => none

structure Kernel.From (asked : Resource → Prop) (k₀ k : Kernel) : Prop where
  links : ∀ i l, k.links.lookup i = some l → (∃ y, asked y ∧ y.link = some (l.name, l.kind)) ∨
    ∃ l₀, k₀.links.lookup i = some l₀ ∧ l.ident = l₀.ident
  routes : ∀ r ∈ k.routes, (∃ y, asked y ∧ y.StoredAs r) ∨ r ∈ k₀.routes
  rules : ∀ r ∈ k.rules, (∃ y, asked y ∧ y.kernelRule = some r) ∨ r ∈ k₀.rules

variable {asked : Resource → Prop} {k₀ k k' : Kernel}

theorem Kernel.From.refl (k : Kernel) : Kernel.From asked k k where
  links := fun _ l hl => Or.inr ⟨l, hl, rfl⟩
  routes := fun _ => Or.inr
  rules := fun _ => Or.inr

theorem Kernel.From.of_fewer (h : Kernel.From asked k₀ k) (hfewer : k.Fewer k') :
    Kernel.From asked k₀ k' where
  links := by
    intro i l' hl'
    obtain ⟨l, hl, hident⟩ := hfewer.links i l' hl'
    rw [hident]
    simp only [Link.ident, Prod.mk.injEq] at hident
    rw [hident.1, hident.2.2]
    exact h.links i l hl
  routes := fun r hr => h.routes r (hfewer.routes.subset hr)
  rules := fun r hr => h.rules r (hfewer.rules.subset hr)

theorem Kernel.From.addStep (h : Kernel.From asked k₀ k) {y : Resource} (hy : asked y)
    (hstep : AddStep k y k') : Kernel.From asked k₀ k' where
  links := by
    intro i l hl
    rcases hstep.lookup_cases hl with hl | ⟨v, rfl, -, rfl⟩ | ⟨x, rfl, hident⟩
    · exact h.links i l hl
    · exact Or.inl ⟨_, hy, rfl⟩
    · simp only [Link.ident, Prod.mk.injEq] at hident
      exact Or.inl ⟨_, hy, by rw [hident.1, hident.2.2]; rfl⟩
  routes := by
    intro r hr
    rcases hstep.routes_cases hr with hr | hstored
    · exact h.routes r hr
    · exact Or.inl ⟨y, hy, hstored⟩
  rules := by
    intro r hr
    rw [hstep.rules_eq] at hr
    rcases mem_of_mem_ruleElim hr with hr | hrule
    · exact h.rules r hr
    · exact Or.inl ⟨y, hy, hrule⟩

end Forms

section Calls

variable {asked : Resource → Prop} {k₀ k : Kernel}

theorem from_apply (h : Kernel.From asked k₀ k) {d : DiffResult} (hadd : ∀ y ∈ d.add, asked y) :
    Kernel.From asked k₀ (apply linuxNetlink d k).state := by
  have hbase : Kernel.From asked k₀ (linuxNetlink.ensureClassificationBase k).2 := by
    change Kernel.From asked k₀ (Linux.ensureClassificationBase k).2
    unfold Linux.ensureClassificationBase Kernel.flush
    cases k.queue.foldlM Kernel.changeElement (k.classes.getD ∅) with
    | error err => exact { h with }
    | ok classes => exact { h with }
  cases herr : (apply linuxNetlink d k).err with
  | some err =>
    unfold apply at herr ⊢
    split at herr
    · rename_i s hensure
      rwa [hensure] at hbase
    · cases herr
  | none =>
    obtain ⟨s, hensure, hstate⟩ := apply_state herr
    rw [hensure] at hbase
    rw [hstate]
    refine List.foldlRecOn (motive := Kernel.From asked k₀) _ _
      (List.foldlRecOn (motive := Kernel.From asked k₀) _ _ hbase ?_) ?_
    · exact fun k' hk' x _ => hk'.of_fewer (removeCall_step k' x).fewer
    · exact fun k' hk' y hy => hk'.addStep (hadd y (mem_of_mem_byKinds hy)) (addCall_step k' y)

theorem from_reconcilePasses {ords : ℕ → PassOrders} {ni : NodeIntent} {r : Reconciler} (n : ℕ)
    (h : Kernel.From asked k₀ k) (hasked : ∀ y, Asks ni.intent y → asked y) :
    Kernel.From asked k₀ (reconcilePasses linuxNetlink ords ni r n k).state := by
  induction n generalizing k with
  | zero => exact h
  | succ n ih =>
    rw [reconcilePasses]
    cases hplan : plan linuxNetlink (ords n) r ni k with
    | error err => exact h
    | ok resources =>
      obtain ⟨current, desired⟩ := resources
      obtain ⟨-, hrender, -⟩ := plan_eq_ok hplan
      have happly : Kernel.From asked k₀
          (apply linuxNetlink (diff (ords n) current desired) k).state := by
        refine from_apply h fun y hy => ?_
        obtain ⟨key, hkey, -⟩ := mem_diff_add.mp hy
        exact hasked y (asks_of_lookup hrender hkey).1
      dsimp only
      split_ifs
      · exact h
      · split
        · exact happly
        · exact ih happly

end Calls

section Deliveries

def AskedIn (ds : List (Delivery Kernel)) (y : Resource) : Prop :=
  ∃ d ∈ ds, Asks d.intent.intent y

/-- Whatever intents are delivered to a node, and whatever is taken from its kernel in between:
what is in the kernel was there before, or was put there for a resource of one of the intents. -/
theorem deliveries_from (ds : List (Delivery Kernel))
    (hds : ∀ d ∈ ds, ∀ k : Kernel, k.Fewer (d.disturb k)) {asked : Resource → Prop} {k₀ : Kernel}
    {node : Node Kernel} (h : Kernel.From asked k₀ node.state)
    (hasked : ∀ y, AskedIn ds y → asked y) :
    Kernel.From asked k₀ (ds.foldl (deliver linuxNetlink) node).state := by
  induction ds generalizing node with
  | nil => exact h
  | cons d ds ih =>
    refine ih (fun d' hd' => hds d' (List.mem_cons_of_mem _ hd')) ?_ ?_
    · refine from_reconcilePasses maxPasses (h.of_fewer (hds d List.mem_cons_self _)) ?_
      exact fun y hy => hasked y ⟨d, List.mem_cons_self, hy⟩
    · rintro y ⟨d', hd', hy⟩
      exact hasked y ⟨d', List.mem_cons_of_mem _ hd', hy⟩

end Deliveries

end Maeto.Dataplane
