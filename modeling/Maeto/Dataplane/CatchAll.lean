import Maeto.Dataplane.Installed

/-!
# The catch-all of a VRF

`UpsertVRF` puts an unreachable default route into the table of the VRF, so that a
lookup does not go on in the tables after it. The route carries the protocol of the
prefix routes, so the next pass reads it as one of them, over the loopback link. No
intent asks for such a route, and the pass removes it. Whenever `Reconcile` returns
without an error, it is gone from the table of every VRF.
-/

namespace Maeto.Dataplane

open Foundation Nodesync

/-- The unreachable default route of `UpsertVRF` is in the table. -/
def HasCatchAll (k : Kernel) (tableID : ℤ) : Prop := Linux.vrfCatchAll tableID ∈ k.routes

theorem HasCatchAll.has {k : Kernel} {tableID : ℤ} (h : HasCatchAll k tableID) :
    ∃ r : Route, k.Has (.route r) ∧ r.dev = "lo" :=
  ⟨_, .route _ _ h (.route rfl), rfl⟩

theorem Converged.not_hasCatchAll {ords : ℕ → PassOrders} {ni : NodeIntent} {r : Reconciler}
    {k : Kernel} (h : Converged linuxNetlink ords ni r k) (tableID : ℤ) :
    ¬ HasCatchAll k tableID := by
  intro hcatchAll
  obtain ⟨route, hroute, hlo⟩ := hcatchAll.has
  obtain ⟨n, -, desired, hrender, hkeys⟩ := h.keys
  have hmem := (hkeys _).mpr ⟨_, hroute, rfl⟩
  obtain ⟨res, hres⟩ := GoMap.mem_iff.mp hmem
  obtain ⟨hkey, hintent⟩ := renderIntent_lookup hrender hres
  obtain ⟨hkind, hbody⟩ := Resource.key_eq_iff.mp hkey.symm
  cases res with
  | route r' =>
    obtain ⟨-, -, hdev⟩ := Resource.keyBody_route hroute.readable hbody
    exact hintent.dev_ne_lo (hdev.symm.trans hlo)
  | _ => cases hkind

/-- After a `Reconcile` of a provider edge that returns without an error, every VRF of
the intent has its catch-all exactly when the intent has no VRF. -/
theorem catchAll_iff_no_tenants (ords : ℕ → PassOrders) (r : Reconciler) (ni : NodeIntent)
    (pe : PEIntent) (k : Kernel)
    (hnil : (reconcile linuxNetlink ords r { ni with intent := .pe pe } k).err = none) :
    (∀ tenantID ∈ pe.tenants,
        HasCatchAll (reconcile linuxNetlink ords r { ni with intent := .pe pe } k).state
          (stringToID tenantID).toNat) ↔
      ∀ tenantID, tenantID ∉ pe.tenants := by
  obtain ⟨-, hconverged, -⟩ := reconcilePasses_converged le_rfl hnil
  constructor
  · intro h tenantID ht
    exact hconverged.not_hasCatchAll _ (h tenantID ht)
  · intro h tenantID ht
    exact absurd ht (h tenantID)

def oneTenant : PEIntent where
  nodeID := "pe1"
  tenants := (∅ : GoMap String TenantIntent).insert "1" .empty
  trafficClassIntent := []

def vrfReconciled : Outcome Kernel :=
  reconcile linuxNetlink (fun _ => .listed) ⟨.pe, none⟩ ⟨"pe1", .pe, .pe oneTenant, 0, 1, 1⟩
    .started

theorem catchAll_iff_oneTenant :
    vrfReconciled.err = none ∧
      ¬ ∀ tenantID ∈ oneTenant.tenants,
        HasCatchAll vrfReconciled.state (stringToID tenantID).toNat := by
  have hnil : vrfReconciled.err = none := by decide +kernel
  refine ⟨hnil, ?_⟩
  intro h
  have hno := (catchAll_iff_no_tenants (fun _ => .listed) ⟨.pe, none⟩
    ⟨"pe1", .pe, .pe oneTenant, 0, 1, 1⟩ oneTenant .started hnil).mp h
  exact hno "1" (by decide +kernel)

/-- No call fails, the VRF is there, and its table has no route. -/
theorem catchAll_removed :
    vrfReconciled.err = none ∧ vrfReconciled.logged = [] ∧
      (vrfReconciled.state.vrfByTable (stringToID "1").toNat).isSome ∧
      ¬ HasCatchAll vrfReconciled.state (stringToID "1").toNat := by
  have hroutes : vrfReconciled.state.routes = [] := by decide +kernel
  refine ⟨by decide +kernel, by decide +kernel, by decide +kernel, ?_⟩
  rw [HasCatchAll, hroutes]
  exact List.not_mem_nil

end Maeto.Dataplane
