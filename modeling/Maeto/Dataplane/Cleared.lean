import Maeto.Dataplane.Removals

/-!
# The kernel after the removals of a pass

The calls that remove are made one after the other, and what is left is said by the keys they were
made for (`Cleared`): an object with such a key is gone, except that a catch-all can outlast the
call for it when a default route went in its place that was not to go. Without a call for it only
a route can go, with a link or for a catch-all (`GoesAlong`).
-/

namespace Maeto.Dataplane

open Foundation Netip Nodesync Resource

variable {nodeType : NodeType} {k s s' : Kernel} {gone : String → Prop} {o : Resource}

def GoesAlong (k : Kernel) (gone : String → Prop) (key : String) : Prop :=
  ∃ r ∈ k.routes, ∃ o, RouteObject r o ∧ o.key = key ∧
    (r = Linux.vrfCatchAll r.table.toNat ∨
      (k.DefaultRoute r.table r ∧ gone (Linux.vrfCatchAll r.table.toNat).object.key) ∨
      ∃ o', k.Has o' ∧ gone o'.key ∧ o'.linkName = some r.dev)

theorem GoesAlong.mono {gone' : String → Prop} (hgone : ∀ key, gone key → gone' key) {key : String}
    (h : GoesAlong k gone key) : GoesAlong k gone' key := by
  obtain ⟨r, hr, o, ho, hkey, hcause⟩ := h
  refine ⟨r, hr, o, ho, hkey, hcause.imp_right (Or.imp (And.imp_right (hgone _)) ?_)⟩
  rintro ⟨o', ho', hgone', hlink⟩
  exact ⟨o', ho', hgone _ hgone', hlink⟩

structure Cleared (k : Kernel) (gone : String → Prop) (s : Kernel) : Prop where
  fewer : k.Fewer s
  others : ∀ o, s.Has o → gone o.key → o.kind = .route
  routes : ∀ r ∈ s.routes, r.protocol = maetoRouteProto → gone r.object.key →
    r = Linux.vrfCatchAll r.table.toNat ∧
      ∃ u, k.DefaultRoute r.table u ∧ ¬ gone u.object.key ∧ u ∉ s.routes
  default : ∀ t : UInt32, gone (Linux.vrfCatchAll t.toNat).object.key → ∀ u, ¬ s.DefaultRoute t u
  kept : ∀ key, k.HasKey key → ¬ gone key → s.HasKey key ∨ GoesAlong k gone key

theorem Cleared.refl (k : Kernel) : Cleared k (fun _ => False) k where
  fewer := .refl k
  others := fun _ _ h => h.elim
  routes := fun _ _ _ h => h.elim
  default := fun _ h => h.elim
  kept := fun _ h _ => Or.inl h

theorem Kernel.Fewer.defaultRoute (h : k.Fewer s) {t : UInt32} {u : KernelRoute}
    (hu : s.DefaultRoute t u) : k.DefaultRoute t u :=
  { hu with mem := h.routes.subset hu.mem }

theorem Cleared.kind_of_gone (h : Cleared k gone s) (hf : s.Fewer s') (ho : s'.Has o)
    (hgone : gone o.key) : o.kind = .route := by
  obtain ⟨o₁, ho₁, hkey⟩ := hf.hasKey ⟨o, ho, rfl⟩
  rw [← (key_eq_iff.mp hkey).1]
  exact h.others o₁ ho₁ (by rw [hkey]; exact hgone)

theorem Cleared.takes (h : Cleared k gone s) (ho : k.Has o) (hkind : o.kind ≠ .route)
    (hf : s.Fewer s')
    (htakes : Takes (fun r => o.linkName = some r.dev ∨ r = Linux.vrfCatchAll r.table.toNat)
      o s s') :
    Cleared k (fun key => gone key ∨ key = o.key) s' := by
  have hroute : ∀ r : KernelRoute, r.object.key ≠ o.key := fun r hkey =>
    hkind (key_eq_iff.mp hkey).1.symm
  refine ⟨h.fewer.trans hf, ?_, ?_, ?_, ?_⟩
  · rintro o' ho' (hgone | hkey)
    · exact h.kind_of_gone hf ho' hgone
    · exact absurd ⟨o', ho', hkey⟩ htakes.gone
  · intro r hr hproto hgone
    obtain ⟨hcatchAll, u, hu, hnot, hmem⟩ :=
      h.routes r (hf.routes.subset hr) hproto (hgone.resolve_right (hroute r))
    refine ⟨hcatchAll, u, hu, ?_, fun hmem' => hmem (hf.routes.subset hmem')⟩
    exact not_or.mpr ⟨hnot, hroute u⟩
  · intro t hgone u hu
    exact h.default t (hgone.resolve_right (hroute _)) u (hf.defaultRoute hu)
  · intro key hkey hnot
    rw [not_or] at hnot
    rcases h.kept key hkey hnot.1 with hs | hlost
    · refine (htakes.kept key hs hnot.2).imp_right ?_
      rintro ⟨r, hr, o', ho', hkey', hlink | hcatchAll⟩
      · exact ⟨r, h.fewer.routes.subset hr, o', ho', hkey',
          Or.inr (Or.inr ⟨o, ho, Or.inr rfl, hlink⟩)⟩
      · exact ⟨r, h.fewer.routes.subset hr, o', ho', hkey', Or.inl hcatchAll⟩
    · exact Or.inr (hlost.mono fun _ => Or.inl)

section RemovesPrefix

variable {r : KernelRoute}

/-- A catch-all that was left with a default route gone in its place is so after the call. -/
theorem Cleared.catchAll_left (h : Cleared k gone s) (hk : Tidy nodeType k) (hr : r ∈ k.routes)
    (hproto : r.protocol = maetoRouteProto) (hf : s.Fewer s') (hremoves : RemovesPrefix r s s')
    {r' : KernelRoute} (hr' : r' ∈ s'.routes) (hproto' : r'.protocol = maetoRouteProto)
    (hgone : gone r'.object.key) :
    r' = Linux.vrfCatchAll r'.table.toNat ∧ ∃ u, k.DefaultRoute r'.table u ∧
      ¬ (gone u.object.key ∨ u.object.key = r.object.key) ∧ u ∉ s'.routes := by
  obtain ⟨hcatchAll, u, hu, hnot, hmem⟩ := h.routes r' (hf.routes.subset hr') hproto' hgone
  refine ⟨hcatchAll, u, hu, not_or.mpr ⟨hnot, ?_⟩, fun hmem' => hmem (hf.routes.subset hmem')⟩
  intro hkey
  -- The call for the default route takes the catch-all when the default route is gone.
  cases hk.route_eq_of_key hu.mem hr (.route hu.protocol) (.route hproto) hkey
  refine hmem (hremoves.still hu.dst hu.dev ?_)
  rw [hu.table, ← hcatchAll]
  exact hr'

/-- Of a route that outlasts the call for it, a default route went in the place. -/
theorem Cleared.catchAll_outlasts (h : Cleared k gone s) (hk : Tidy nodeType k) (hr : r ∈ k.routes)
    (hproto : r.protocol = maetoRouteProto) (hremoves : RemovesPrefix r s s')
    (hr' : r ∈ s'.routes) :
    r = Linux.vrfCatchAll r.table.toNat ∧ ∃ u, k.DefaultRoute r.table u ∧
      ¬ (gone u.object.key ∨ u.object.key = r.object.key) ∧ u ∉ s'.routes := by
  have hcatchAll : r = Linux.vrfCatchAll r.table.toNat :=
    ((hk.ownRoutes r hr).route hproto).resolve_right fun huser => hremoves.own huser.2 hr'
  obtain ⟨u, hu, hmem⟩ := hremoves.inPlace hcatchAll hr'
  have huser : ∀ r', u = Linux.vrfCatchAll r' → False := fun r' hu' =>
    hu.dev (by rw [hu']; rfl)
  have hu' := h.fewer.defaultRoute hu
  refine ⟨hcatchAll, u, hu', not_or.mpr ⟨fun hgone => ?_, fun hkey => ?_⟩, hmem⟩
  · exact huser _ (h.routes u hu.mem hu.protocol hgone).1
  · have heq := hk.route_eq_of_key hu'.mem hr (.route hu.protocol) (.route hproto) hkey
    exact huser _ (heq.trans hcatchAll)

theorem Cleared.kept_removesPrefix (h : Cleared k gone s) (hk : Tidy nodeType k)
    (hr : r ∈ k.routes) (hproto : r.protocol = maetoRouteProto) (hremoves : RemovesPrefix r s s')
    (ho : s.Has o) (hne : o.key ≠ r.object.key) :
    s'.HasKey o.key ∨ GoesAlong k (fun key => gone key ∨ key = r.object.key) o.key := by
  obtain ⟨hlinks, hrules, hclasses⟩ := hremoves.rest
  cases ho with
  | classification key mark hmark =>
    exact Or.inl ⟨_, .classification key mark (by rw [hclasses]; exact hmark), rfl⟩
  | link i l _ hl ho => exact Or.inl ⟨o, .link i l o (by rw [hlinks]; exact hl) ho, rfl⟩
  | rule r _ hr ho => exact Or.inl ⟨o, .rule r o (by rw [hrules]; exact hr) ho, rfl⟩
  | route r₁ _ hr₁ ho =>
    by_cases hmem : r₁ ∈ s'.routes
    · exact Or.inl ⟨o, .route r₁ o hmem ho, rfl⟩
    obtain ⟨hproto₁, hdst, htable⟩ := hremoves.only r₁ hr₁ hmem
    have hr₁k := h.fewer.routes.subset hr₁
    refine Or.inr ⟨r₁, hr₁k, o, ho, rfl, ?_⟩
    rcases hk.prefixRoutes_cases hr hr₁k hproto hproto₁ hdst htable with
      rfl | ⟨hdefault, hcatchAll⟩ | ⟨-, hcatchAll⟩
    · exact absurd (by rw [ho.eq (.route hproto)]; rfl) hne
    · rw [htable, ← hcatchAll]
      exact Or.inr (Or.inl ⟨hdefault, Or.inr rfl⟩)
    · rw [htable]
      exact Or.inl hcatchAll

theorem Cleared.removesPrefix (h : Cleared k gone s) (hk : Tidy nodeType k) (hr : r ∈ k.routes)
    (hproto : r.protocol = maetoRouteProto) (hf : s.Fewer s') (hremoves : RemovesPrefix r s s') :
    Cleared k (fun key => gone key ∨ key = r.object.key) s' where
  fewer := h.fewer.trans hf
  others := by
    rintro o' ho' (hgone | hkey)
    · exact h.kind_of_gone hf ho' hgone
    · exact (key_eq_iff.mp hkey).1
  routes := by
    rintro r' hr' hproto' (hgone | hkey)
    · exact h.catchAll_left hk hr hproto hf hremoves hr' hproto' hgone
    · cases hk.route_eq_of_key ((h.fewer.trans hf).routes.subset hr') hr (.route hproto')
        (.route hproto) hkey
      exact h.catchAll_outlasts hk hr hproto hremoves hr'
  default := by
    rintro t (hgone | hkey) u hu
    · exact h.default t hgone u (hf.defaultRoute hu)
    · have hcatchAll := RouteObject.eq_catchAll (hk.ownRoutes r hr) (.route hproto) hkey.symm
      have htable : r.table = t := by
        rw [hcatchAll]
        exact uint32OfInt_toNat t
      rw [← htable] at hcatchAll hu
      exact hremoves.default hcatchAll u hu
  kept := by
    intro key hkey hnot
    rw [not_or] at hnot
    rcases h.kept key hkey hnot.1 with ⟨o, ho, rfl⟩ | hlost
    · exact h.kept_removesPrefix hk hr hproto hremoves ho hnot.2
    · exact Or.inr (hlost.mono fun _ => Or.inl)

end RemovesPrefix

theorem Cleared.removeCall (h : Cleared k gone s) (hk : Tidy nodeType k) (ho : k.Has o)
    (hok : ((removeCall documented o.observed).2 s).1 = none) :
    Cleared k (fun key => gone key ∨ key = o.key) ((removeCall documented o.observed).2 s).2 := by
  have hf := fewer_removeCall s o.observed
  by_cases hkind : o.kind = .route
  · obtain ⟨r, hr, hobject⟩ := ho.of_route (Or.inl hkind)
    cases hobject with
    | route hproto =>
      exact h.removesPrefix hk hr hproto hf (removeCall_prefixRoute hk h.fewer hr hproto)
    | sid => cases hkind
    | srRoute => cases hkind
  · exact h.takes ho hkind hf (removeCall_takes hk h.fewer ho hkind hok)

theorem cleared_removals (hk : Tidy nodeType k) (rs : List Resource)
    (hrs : ∀ x ∈ rs, ∃ o, k.Has o ∧ o.observed = x)
    (hlog : ((rs.map (removeCall documented)).foldl perform (k, [])).2 = []) :
    Cleared k (fun key => ∃ x ∈ rs, x.key = key)
      ((rs.map (removeCall documented)).foldl perform (k, [])).1 := by
  induction rs using List.reverseRecOn with
  | nil => simpa using Cleared.refl k
  | append_singleton rs x ih =>
    rw [List.map_append, List.foldl_append] at hlog ⊢
    obtain ⟨hbefore, hok, hstate⟩ := perform_silent hlog
    obtain ⟨o, ho, rfl⟩ := hrs x (List.mem_append_right _ List.mem_cons_self)
    have hcleared := ih (fun y hy => hrs y (List.mem_append_left _ hy)) hbefore
    have hstep := hcleared.removeCall hk ho hok
    have hgone : (fun key => ∃ x ∈ rs ++ [o.observed], x.key = key) =
        fun key => (∃ x ∈ rs, x.key = key) ∨ key = o.key := by
      funext key
      simp [or_and_right, exists_or, eq_comm]
    rw [hgone]
    exact hstate ▸ hstep

end Maeto.Dataplane
