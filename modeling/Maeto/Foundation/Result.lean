/-!
# Results of fallible computations

When a computation built from fallible parts succeeds, its parts have succeeded.
Each lemma takes one way of combining results apart.
-/

namespace Foundation.Result

variable {ε ε' α β : Type}

theorem ok_bind (a : α) (f : α → Except ε β) : (.ok a : Except ε α) >>= f = f a :=
  pure_bind a f

theorem error_bind (e : ε) (f : α → Except ε β) : (.error e : Except ε α) >>= f = .error e := rfl

theorem bind_eq_ok {x : Except ε α} {f : α → Except ε β} {b : β} :
    x >>= f = .ok b ↔ ∃ a, x = .ok a ∧ f a = .ok b := by
  cases x with
  | error e => simp [bind, Except.bind]
  | ok a => simp [bind, Except.bind]

theorem isOk_bind_ok {x : Except ε α} {f : α → β} :
    (∃ b, (x >>= fun a => .ok (f a)) = .ok b) ↔ ∃ a, x = .ok a := by
  constructor
  · rintro ⟨b, h⟩
    obtain ⟨a, ha, -⟩ := bind_eq_ok.mp h
    exact ⟨a, ha⟩
  · rintro ⟨a, ha⟩
    exact ⟨f a, bind_eq_ok.mpr ⟨a, ha, rfl⟩⟩

theorem map_eq_ok {x : Except ε α} {f : α → β} {b : β} :
    x.map f = .ok b ↔ ∃ a, x = .ok a ∧ f a = b := by
  cases x with
  | error e => simp [Except.map]
  | ok a => simp [Except.map]

theorem any_toOption {x : Except ε α} {p : α → Bool} :
    x.toOption.any p = true ↔ ∃ a, x = .ok a ∧ p a = true := by
  cases x with
  | error e => simp [Except.toOption]
  | ok a => simp [Except.toOption]

theorem mapError_eq_ok {x : Except ε α} {f : ε → ε'} {a : α} :
    x.mapError f = .ok a ↔ x = .ok a := by
  cases x with
  | error e => exact iff_of_false (fun h => nomatch h) (fun h => nomatch h)
  | ok b =>
    constructor
    · intro h
      exact congrArg Except.ok (Except.ok.inj h)
    · intro h
      exact congrArg Except.ok (Except.ok.inj h)

theorem mem_of_mapM_eq_ok {f : α → Except ε β} {l : List α} {l' : List β}
    (h : l.mapM f = .ok l') (b : β) : b ∈ l' ↔ ∃ a ∈ l, f a = .ok b := by
  induction l generalizing l' with
  | nil =>
    rw [List.mapM_nil] at h
    cases h
    simp
  | cons a l ih =>
    rw [List.mapM_cons] at h
    obtain ⟨b', hb', h⟩ := bind_eq_ok.mp h
    obtain ⟨rest, hrest, h⟩ := bind_eq_ok.mp h
    cases h
    simp only [List.mem_cons, ih hrest, or_and_right, exists_or, exists_eq_left, hb',
      Except.ok.injEq, eq_comm (a := b)]

theorem exists_of_mapM_eq_ok {f : α → Except ε β} {l : List α} {l' : List β}
    (h : l.mapM f = .ok l') {a : α} (ha : a ∈ l) : ∃ b ∈ l', f a = .ok b := by
  induction l generalizing l' with
  | nil => exact absurd ha List.not_mem_nil
  | cons c l ih =>
    rw [List.mapM_cons] at h
    obtain ⟨b, hb, h⟩ := bind_eq_ok.mp h
    obtain ⟨rest, hrest, h⟩ := bind_eq_ok.mp h
    cases h
    rcases List.mem_cons.mp ha with rfl | ha
    · exact ⟨b, List.mem_cons_self, hb⟩
    · obtain ⟨b', hb', hfb'⟩ := ih hrest ha
      exact ⟨b', List.mem_cons_of_mem _ hb', hfb'⟩

theorem exists_mapM_eq_ok {f : α → Except ε β} {l : List α} (h : ∀ a ∈ l, ∃ b, f a = .ok b) :
    ∃ l', l.mapM f = .ok l' := by
  induction l with
  | nil => exact ⟨[], List.mapM_nil⟩
  | cons a l ih =>
    obtain ⟨b, hb⟩ := h a List.mem_cons_self
    obtain ⟨l', hl'⟩ := ih fun a' ha' => h a' (List.mem_cons_of_mem a ha')
    exact ⟨b :: l', by rw [List.mapM_cons, hb, ok_bind, hl', ok_bind]; rfl⟩

theorem map_eq_of_mapM_eq_ok {γ : Type} {f : α → Except ε β} {g : β → γ} {h : α → γ} {l : List α}
    {l' : List β} (hl : l.mapM f = .ok l') (hfg : ∀ a ∈ l, ∀ b, f a = .ok b → g b = h a) :
    l'.map g = l.map h := by
  induction l generalizing l' with
  | nil =>
    rw [List.mapM_nil] at hl
    cases hl
    rfl
  | cons a l ih =>
    rw [List.mapM_cons] at hl
    obtain ⟨b, hb, hl⟩ := bind_eq_ok.mp hl
    obtain ⟨rest, hrest, hl⟩ := bind_eq_ok.mp hl
    cases hl
    rw [List.map_cons, List.map_cons, hfg a List.mem_cons_self b hb,
      ih hrest fun a' ha' => hfg a' (List.mem_cons_of_mem a ha')]

def collectM (f : List β → Nat → α → Except ε β) (items : List α) : Except ε (List β) :=
  items.zipIdx.foldlM (fun done item => do
    let parsed ← f done item.2 item.1
    .ok (done ++ [parsed])) []

/-- What every round of a loop keeps holds at its end; `done` is the part of the list that
has been visited. -/
theorem foldlM_induction {f : β → α → Except ε β} {P : List α → β → Prop} {start b : β}
    {l : List α} (hnil : P [] start)
    (hstep : ∀ done a b b', a ∈ l → P done b → f b a = .ok b' → P (done ++ [a]) b')
    (h : l.foldlM f start = .ok b) : P l b := by
  have hfold : ∀ (rest done : List α) (start : β), (∀ a ∈ rest, a ∈ l) → P done start →
      rest.foldlM f start = .ok b → P (done ++ rest) b := by
    intro rest
    induction rest with
    | nil =>
      intro done start _ hstart h
      rw [List.foldlM_nil] at h
      rw [List.append_nil]
      exact Except.ok.inj h ▸ hstart
    | cons a rest ih =>
      intro done start hmem hstart h
      rw [List.foldlM_cons] at h
      obtain ⟨next, hnext, h⟩ := bind_eq_ok.mp h
      have hdone := hstep done a start next (hmem a List.mem_cons_self) hstart hnext
      rw [← List.singleton_append, ← List.append_assoc]
      exact ih _ next (fun a' ha' => hmem a' (List.mem_cons_of_mem a ha')) hdone h
  exact hfold l [] start (fun _ ha => ha) hnil h

theorem collectM_induction {f : List β → Nat → α → Except ε β} {P : List β → Prop}
    (hnil : P []) (hstep : ∀ done i a b, P done → f done i a = .ok b → P (done ++ [b]))
    {items : List α} {l : List β} (h : collectM f items = .ok l) : P l := by
  refine @foldlM_induction _ _ _ _ (fun _ out => P out) _ _ _ hnil ?_ h
  intro _ item out out' _ hout hround
  obtain ⟨parsed, hparsed, hround⟩ := bind_eq_ok.mp hround
  cases hround
  exact hstep out item.2 item.1 parsed hout hparsed

theorem of_mem_zip_collectM {f : List β → Nat → α → Except ε β} {items : List α} {l : List β}
    (h : collectM f items = .ok l) :
    items.length = l.length ∧ ∀ e ∈ items.zip l, ∃ done i, f done i e.1 = .ok e.2 := by
  have hzip : items.zipIdx.map Prod.fst = items := List.zipIdx_map_fst 0 items
  rw [← hzip, List.length_map]
  refine @foldlM_induction _ _ _ _ (fun done out => done.length = out.length ∧
    ∀ e ∈ (done.map Prod.fst).zip out, ∃ before i, f before i e.1 = .ok e.2) _ _ _ ?_ ?_ h
  · exact ⟨rfl, List.forall_mem_nil _⟩
  · rintro done item out out' _ ⟨hlen, hout⟩ hround
    obtain ⟨parsed, hparsed, hround⟩ := bind_eq_ok.mp hround
    cases hround
    refine ⟨by rw [List.length_append, List.length_append, hlen]; rfl, ?_⟩
    rw [List.map_append, List.zip_append (by rw [List.length_map, hlen])]
    intro e he
    rcases List.mem_append.mp he with he | he
    · exact hout e he
    · obtain rfl := List.mem_singleton.mp he
      exact ⟨out, item.2, hparsed⟩

theorem collectM_map_eq_ok {γ : Type} {f : List β → Nat → α → Except ε β} {h : γ → α}
    {g : Nat → γ → β} {l : List γ}
    (hf : ∀ done c rest, l = done ++ c :: rest →
      f (done.mapIdx g) done.length (h c) = .ok (g done.length c)) :
    collectM f (l.map h) = .ok (l.mapIdx g) := by
  have hfold : ∀ rest done : List γ, l = done ++ rest →
      ((rest.map h).zipIdx done.length).foldlM (fun out item => do
        let parsed ← f out item.2 item.1
        .ok (out ++ [parsed])) (done.mapIdx g) = .ok (l.mapIdx g) := by
    intro rest
    induction rest with
    | nil =>
      rintro done hl
      rw [hl, List.append_nil]
      rfl
    | cons c rest ih =>
      intro done hl
      have hnext := ih (done ++ [c]) (by rw [hl, List.append_assoc, List.singleton_append])
      rw [List.mapIdx_concat, List.length_append, List.length_singleton] at hnext
      rw [List.map_cons, List.zipIdx_cons, List.foldlM_cons, hf done c rest hl, ok_bind, ok_bind]
      exact hnext
  exact hfold l [] rfl

end Foundation.Result
