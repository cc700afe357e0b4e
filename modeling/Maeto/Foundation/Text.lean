import Mathlib.Data.List.Basic
import Mathlib.Data.Nat.Digits.Defs
import Mathlib.Data.Nat.Bitwise
import Mathlib.Tactic.Ring

/-!
# Texts that can be read back

A text is a list of characters. Numbers are written in a base up to sixteen, and
fields are put together with separator characters. What is shown is that nothing
is lost: the digits of a number determine it (`toDigits_injective`), two texts
that agree and are split at the first or at the last separator agree on both
parts (`append_sep_inj`, `append_sep_inj_last`, `append_sep_ne`), and words without the separator
are determined by the text that joins them (`joined_injective`).

A number is also determined by its chunks of equal width (`eq_of_chunks`).
-/

namespace Foundation

namespace Text

section Digits

variable {b : ℕ}

theorem digit_of_mem_toDigits (hb : 1 < b) {n : ℕ} {c : Char} (h : c ∈ Nat.toDigits b n) :
    ∃ d < b, c = Nat.digitChar d := by
  induction n using Nat.strong_induction_on with
  | _ n ih =>
    rw [Nat.toDigits_eq_if hb] at h
    split_ifs at h with hn
    · exact ⟨n, hn, by simpa using h⟩
    · rcases List.mem_append.mp h with h | h
      · exact ih (n / b) (Nat.div_lt_self (by omega) hb) h
      · exact ⟨n % b, Nat.mod_lt n (by omega), by simpa using h⟩

theorem digitChar_injOn {d d' : ℕ} (hd : d < 16) (hd' : d' < 16)
    (h : Nat.digitChar d = Nat.digitChar d') : d = d' := by
  have hfin : ∀ i j : Fin 16, Nat.digitChar i = Nat.digitChar j → i = j := by decide
  exact congrArg Fin.val (hfin ⟨d, hd⟩ ⟨d', hd'⟩ h)

theorem toDigits_injective (hb : 1 < b) (hb' : b ≤ 16) :
    Function.Injective (Nat.toDigits b) := by
  intro n
  induction n using Nat.strong_induction_on with
  | _ n ih =>
    intro m h
    have hpos : ∀ k, 0 < (Nat.toDigits b k).length := fun k =>
      List.length_pos_of_ne_nil Nat.toDigits_ne_nil
    rw [Nat.toDigits_eq_if (n := n) hb, Nat.toDigits_eq_if (n := m) hb] at h
    have hlength := congrArg List.length h
    split_ifs at h hlength with hn hm hm
    · exact digitChar_injOn (by omega) (by omega) (List.singleton_inj.mp h)
    · have := hpos (m / b)
      simp only [List.length_append, List.length_singleton] at hlength
      omega
    · have := hpos (n / b)
      simp only [List.length_append, List.length_singleton] at hlength
      omega
    · obtain ⟨hinit, hlast⟩ := List.append_inj' h rfl
      have hdiv := ih (n / b) (Nat.div_lt_self (by omega) hb) hinit
      have hmod := digitChar_injOn ((Nat.mod_lt n (by omega)).trans_le hb')
        ((Nat.mod_lt m (by omega)).trans_le hb') (List.singleton_inj.mp hlast)
      rw [← Nat.div_add_mod n b, ← Nat.div_add_mod m b, hdiv, hmod]

theorem notMem_toDigits (hb : 1 < b) (hb' : b ≤ 16) (n : ℕ) {c : Char}
    (hc : c = '.' ∨ c = ':' ∨ c = '/' ∨ c = ' ' ∨ c = '-') : c ∉ Nat.toDigits b n := by
  intro h
  obtain ⟨d, hd, hdc⟩ := digit_of_mem_toDigits hb h
  have hfin : ∀ i : Fin 16, Nat.digitChar i ≠ '.' ∧ Nat.digitChar i ≠ ':' ∧
      Nat.digitChar i ≠ '/' ∧ Nat.digitChar i ≠ ' ' ∧ Nat.digitChar i ≠ '-' := by decide
  have hne := hfin ⟨d, hd.trans_le hb'⟩
  rcases hc with rfl | rfl | rfl | rfl | rfl
  · exact hne.1 hdc.symm
  · exact hne.2.1 hdc.symm
  · exact hne.2.2.1 hdc.symm
  · exact hne.2.2.2.1 hdc.symm
  · exact hne.2.2.2.2 hdc.symm

end Digits

def decimal (n : ℤ) : List Char :=
  if n < 0 then '-' :: Nat.toDigits 10 n.natAbs else Nat.toDigits 10 n.natAbs

theorem decimal_natCast (n : ℕ) : decimal n = Nat.toDigits 10 n := by
  rw [decimal, if_neg (by omega), Int.natAbs_natCast]

theorem decimal_natCast_ne_nil (n : ℕ) : decimal n ≠ [] := by
  rw [decimal_natCast]
  exact Nat.toDigits_ne_nil

theorem digit_of_mem_decimal {n : ℕ} {c : Char} (h : c ∈ decimal n) :
    ∃ d < 10, c = Nat.digitChar d := by
  rw [decimal_natCast] at h
  exact digit_of_mem_toDigits (by decide) h

theorem notMem_decimal {c : Char} (hc : ∀ d < 10, c ≠ Nat.digitChar d) (n : ℕ) :
    c ∉ decimal n := by
  intro h
  obtain ⟨d, hd, heq⟩ := digit_of_mem_decimal h
  exact hc d hd heq

theorem dot_notMem_decimal (n : ℤ) : '.' ∉ decimal n := by
  have hdigits : '.' ∉ Nat.toDigits 10 n.natAbs :=
    notMem_toDigits (by decide) (by decide) _ (Or.inl rfl)
  unfold decimal
  split_ifs
  · rw [List.mem_cons, not_or]
    exact ⟨by decide, hdigits⟩
  · exact hdigits

theorem decimal_injective : Function.Injective decimal := by
  have hminus : ∀ n m : ℕ, Nat.toDigits 10 n ≠ '-' :: Nat.toDigits 10 m := fun n m h =>
    notMem_toDigits (b := 10) (by decide) (by decide) n (c := '-') (by simp)
      (h ▸ List.mem_cons_self)
  have hinj := toDigits_injective (b := 10) (by decide) (by decide)
  intro n m h
  unfold decimal at h
  split_ifs at h with hn hm hm
  · have := hinj (List.cons_injective h)
    omega
  · exact absurd h.symm (hminus _ _)
  · exact absurd h (hminus _ _)
  · have := hinj h
    omega

section Separator

variable {α : Type*} {sep : α}

theorem append_sep_inj {a a' b b' : List α} (ha : sep ∉ a) (ha' : sep ∉ a') :
    a ++ sep :: b = a' ++ sep :: b' ↔ a = a' ∧ b = b' := by
  refine ⟨?_, by rintro ⟨rfl, rfl⟩; rfl⟩
  intro h
  induction a generalizing a' with
  | nil =>
    cases a' with
    | nil => exact ⟨rfl, List.cons_injective h⟩
    | cons x a' =>
      rw [List.nil_append, List.cons_append, List.cons.injEq] at h
      exact absurd (h.1 ▸ List.mem_cons_self) ha'
  | cons x a ih =>
    cases a' with
    | nil =>
      rw [List.nil_append, List.cons_append, List.cons.injEq] at h
      exact absurd (h.1 ▸ List.mem_cons_self) ha
    | cons y a' =>
      rw [List.cons_append, List.cons_append, List.cons.injEq] at h
      obtain ⟨rfl, hb⟩ := ih (fun hmem => ha (List.mem_cons_of_mem _ hmem))
        (fun hmem => ha' (List.mem_cons_of_mem _ hmem)) h.2
      exact ⟨by rw [h.1], hb⟩

theorem append_sep_inj_last {a a' b b' : List α} (hb : sep ∉ b) (hb' : sep ∉ b') :
    a ++ sep :: b = a' ++ sep :: b' ↔ a = a' ∧ b = b' := by
  rw [← List.reverse_inj, List.reverse_append, List.reverse_append, List.reverse_cons,
    List.reverse_cons, List.append_assoc, List.append_assoc, List.singleton_append,
    List.singleton_append, append_sep_inj (by simpa using hb) (by simpa using hb'),
    List.reverse_inj, List.reverse_inj, and_comm]

theorem append_sep_ne {sep' : α} (hne : sep ≠ sep') {a a' : List α} (ha : sep' ∉ a)
    (ha' : sep ∉ a') (b b' : List α) : a ++ sep :: b ≠ a' ++ sep' :: b' := by
  induction a generalizing a' with
  | nil =>
    cases a' with
    | nil => simp [hne]
    | cons y a' =>
      intro h
      exact ha' ((List.cons.inj h).1 ▸ List.mem_cons_self)
  | cons x a ih =>
    cases a' with
    | nil =>
      intro h
      exact ha ((List.cons.inj h).1 ▸ List.mem_cons_self)
    | cons y a' =>
      intro h
      exact ih (fun hmem => ha (List.mem_cons_of_mem _ hmem))
        (fun hmem => ha' (List.mem_cons_of_mem _ hmem)) (List.cons.inj h).2

end Separator

theorem of_decimal_dot {n m : ℤ} {a b : List Char}
    (h : decimal n ++ '.' :: a = decimal m ++ '.' :: b) : n = m ∧ a = b := by
  obtain ⟨hn, hab⟩ := (append_sep_inj (dot_notMem_decimal n) (dot_notMem_decimal m)).mp h
  exact ⟨decimal_injective hn, hab⟩

theorem of_dot_decimal {n m : ℤ} {a b : List Char}
    (h : a ++ '.' :: decimal n = b ++ '.' :: decimal m) : a = b ∧ n = m := by
  obtain ⟨hab, hn⟩ := (append_sep_inj_last (dot_notMem_decimal n) (dot_notMem_decimal m)).mp h
  exact ⟨hab, decimal_injective hn⟩

section Joined

variable {α : Type*} {sep : α}

def joined (sep : α) : List (List α) → List α
  | [] => []
  | [w] => w
  | w :: ws => w ++ sep :: joined sep ws

@[simp] theorem joined_cons_cons (w v : List α) (ws : List (List α)) :
    joined sep (w :: v :: ws) = w ++ sep :: joined sep (v :: ws) := rfl

def IsWord (sep : α) (w : List α) : Prop := w ≠ [] ∧ sep ∉ w

theorem joined_ne_sep_cons {ws : List (List α)} (h : ∀ w ∈ ws, IsWord sep w) (rest : List α)
    (tail : List α) (hne : ws ≠ []) : joined sep ws ++ tail ≠ sep :: rest := by
  cases ws with
  | nil => exact absurd rfl hne
  | cons w ws =>
    obtain ⟨hw, hsep⟩ := h w List.mem_cons_self
    obtain ⟨x, w', rfl⟩ := List.exists_cons_of_ne_nil hw
    intro heq
    have hx : x = sep := by
      cases ws with
      | nil => exact (List.cons.inj heq).1
      | cons v ws => exact (List.cons.inj heq).1
    exact hsep (hx ▸ List.mem_cons_self)

theorem joined_injective {ws ws' : List (List α)} (h : ∀ w ∈ ws, IsWord sep w)
    (h' : ∀ w ∈ ws', IsWord sep w) (heq : joined sep ws = joined sep ws') : ws = ws' := by
  induction ws generalizing ws' with
  | nil =>
    cases ws' with
    | nil => rfl
    | cons w ws' =>
      cases ws' with
      | nil => exact absurd heq.symm (h' w List.mem_cons_self).1
      | cons v ws' => simp [joined] at heq
  | cons w ws ih =>
    have hw := h w List.mem_cons_self
    cases ws' with
    | nil =>
      cases ws with
      | nil => exact absurd heq hw.1
      | cons v ws => simp [joined] at heq
    | cons w' ws' =>
      have hw' := h' w' List.mem_cons_self
      have htail : ∀ u ∈ ws, IsWord sep u := fun u hu => h u (List.mem_cons_of_mem w hu)
      have htail' : ∀ u ∈ ws', IsWord sep u := fun u hu => h' u (List.mem_cons_of_mem w' hu)
      cases ws with
      | nil =>
        cases ws' with
        | nil => exact congrArg (fun x => [x]) heq
        | cons v' ws' =>
          refine absurd ?_ hw.2
          rw [show w = _ from heq]
          simp
      | cons v ws =>
        cases ws' with
        | nil =>
          refine absurd ?_ hw'.2
          rw [show w' = _ from heq.symm]
          simp
        | cons v' ws' =>
          rw [joined_cons_cons, joined_cons_cons, append_sep_inj hw.2 hw'.2] at heq
          rw [heq.1, ih htail htail' heq.2]

theorem joined_append_inj {ws ws' : List (List α)} (h : ∀ w ∈ ws, IsWord sep w)
    (h' : ∀ w ∈ ws', IsWord sep w) (hne : ws ≠ []) (hlength : ws.length = ws'.length)
    {b b' : List α} (heq : joined sep ws ++ sep :: b = joined sep ws' ++ sep :: b') :
    ws = ws' ∧ b = b' := by
  induction ws generalizing ws' with
  | nil => exact absurd rfl hne
  | cons w ws ih =>
    obtain ⟨w', ws', rfl⟩ := List.exists_cons_of_length_eq_add_one hlength.symm
    have hw := (h w List.mem_cons_self).2
    have hw' := (h' w' List.mem_cons_self).2
    cases ws with
    | nil =>
      obtain rfl := List.eq_nil_of_length_eq_zero (Nat.succ.inj hlength).symm
      obtain ⟨rfl, rfl⟩ := (append_sep_inj hw hw').mp heq
      exact ⟨rfl, rfl⟩
    | cons v ws =>
      obtain ⟨v', ws', rfl⟩ :=
        List.exists_cons_of_length_eq_add_one (Nat.succ.inj hlength).symm
      rw [joined_cons_cons, joined_cons_cons, List.append_assoc, List.append_assoc,
        List.cons_append, List.cons_append, append_sep_inj hw hw'] at heq
      obtain ⟨rfl, hrest⟩ := heq
      obtain ⟨hws, rfl⟩ := ih (fun u hu => h u (List.mem_cons_of_mem w hu))
        (fun u hu => h' u (List.mem_cons_of_mem w hu)) (List.cons_ne_nil v ws)
        (Nat.succ.inj hlength) hrest
      exact ⟨by rw [hws], rfl⟩

theorem joined_sep_sep_inj {ws ws' : List (List α)} (h : ∀ w ∈ ws, IsWord sep w)
    (h' : ∀ w ∈ ws', IsWord sep w) {b b' : List α}
    (heq : joined sep ws ++ sep :: sep :: b = joined sep ws' ++ sep :: sep :: b') :
    ws = ws' ∧ b = b' := by
  induction ws generalizing ws' with
  | nil =>
    cases ws' with
    | nil => exact ⟨rfl, List.cons_injective (List.cons_injective heq)⟩
    | cons w' ws' => exact absurd heq.symm (joined_ne_sep_cons h' _ _ (List.cons_ne_nil _ _))
  | cons w ws ih =>
    have hw := h w List.mem_cons_self
    have htail : ∀ u ∈ ws, IsWord sep u := fun u hu => h u (List.mem_cons_of_mem w hu)
    cases ws' with
    | nil => exact absurd heq (joined_ne_sep_cons h _ _ (List.cons_ne_nil _ _))
    | cons w' ws' =>
      have hw' := h' w' List.mem_cons_self
      have htail' : ∀ u ∈ ws', IsWord sep u := fun u hu => h' u (List.mem_cons_of_mem w' hu)
      cases ws with
      | nil =>
        cases ws' with
        | nil =>
          obtain ⟨rfl, hb⟩ := (append_sep_inj hw.2 hw'.2).mp heq
          exact ⟨rfl, List.cons_injective hb⟩
        | cons v' ws' =>
          rw [joined_cons_cons, List.append_assoc, List.cons_append] at heq
          have hrest := ((append_sep_inj hw.2 hw'.2).mp heq).2
          exact absurd hrest.symm (joined_ne_sep_cons htail' _ _ (List.cons_ne_nil _ _))
      | cons v ws =>
        cases ws' with
        | nil =>
          rw [joined_cons_cons, List.append_assoc, List.cons_append] at heq
          have hrest := ((append_sep_inj hw.2 hw'.2).mp heq).2
          exact absurd hrest (joined_ne_sep_cons htail _ _ (List.cons_ne_nil _ _))
        | cons v' ws' =>
          rw [joined_cons_cons, joined_cons_cons, List.append_assoc, List.append_assoc,
            List.cons_append, List.cons_append, append_sep_inj hw.2 hw'.2] at heq
          obtain ⟨hws, hb⟩ := ih htail htail' heq.2
          exact ⟨by rw [heq.1, hws], hb⟩

theorem joined_ne_sep_sep {ws ws' : List (List α)} (h : ∀ w ∈ ws, IsWord sep w)
    (h' : ∀ w ∈ ws', IsWord sep w) (b : List α) :
    joined sep ws ≠ joined sep ws' ++ sep :: sep :: b := by
  induction ws generalizing ws' with
  | nil => simp [joined]
  | cons w ws ih =>
    have hw := h w List.mem_cons_self
    have htail : ∀ u ∈ ws, IsWord sep u := fun u hu => h u (List.mem_cons_of_mem w hu)
    intro heq
    cases ws' with
    | nil =>
      have hstart := joined_ne_sep_cons h (sep :: b) [] (List.cons_ne_nil w ws)
      rw [List.append_nil] at hstart
      exact hstart heq
    | cons w' ws' =>
      have hw' := h' w' List.mem_cons_self
      have htail' : ∀ u ∈ ws', IsWord sep u := fun u hu => h' u (List.mem_cons_of_mem w' hu)
      cases ws with
      | nil =>
        refine absurd ?_ hw.2
        rw [show w = _ from heq]
        simp
      | cons v ws =>
        cases ws' with
        | nil =>
          rw [joined_cons_cons] at heq
          have hrest := ((append_sep_inj hw.2 hw'.2).mp heq).2
          have hstart := joined_ne_sep_cons htail b [] (List.cons_ne_nil v ws)
          rw [List.append_nil] at hstart
          exact hstart hrest
        | cons v' ws' =>
          rw [joined_cons_cons, joined_cons_cons, List.append_assoc, List.cons_append,
            append_sep_inj hw.2 hw'.2] at heq
          exact ih htail htail' heq.2

theorem mem_joined {ws : List (List α)} {x : α} (hx : x ∈ joined sep ws) :
    x = sep ∨ ∃ w ∈ ws, x ∈ w := by
  induction ws with
  | nil => simp [joined] at hx
  | cons w ws ih =>
    cases ws with
    | nil => exact Or.inr ⟨w, List.mem_cons_self, hx⟩
    | cons v ws =>
      rw [joined_cons_cons, List.mem_append, List.mem_cons] at hx
      rcases hx with hx | hx | hx
      · exact Or.inr ⟨w, List.mem_cons_self, hx⟩
      · exact Or.inl hx
      · obtain hsep | ⟨u, hu, hmem⟩ := ih hx
        · exact Or.inl hsep
        · exact Or.inr ⟨u, List.mem_cons_of_mem w hu, hmem⟩

end Joined

theorem eq_of_chunks {w n a b : ℕ} (hw : 0 < w) (ha : a < 2 ^ (w * n)) (hb : b < 2 ^ (w * n))
    (h : ∀ i < n, (a >>> (w * i)) % 2 ^ w = (b >>> (w * i)) % 2 ^ w) : a = b := by
  apply Nat.eq_of_testBit_eq
  intro k
  by_cases hk : k < w * n
  · have hi : k / w < n := Nat.div_lt_of_lt_mul hk
    have hbit := congrArg (fun x => x.testBit (k % w)) (h (k / w) hi)
    simp only [Nat.testBit_mod_two_pow, Nat.mod_lt k hw, decide_true, Bool.true_and,
      Nat.testBit_shiftRight, Nat.div_add_mod] at hbit
    exact hbit
  · have hpow : 2 ^ (w * n) ≤ 2 ^ k := Nat.pow_le_pow_right (by decide) (not_lt.mp hk)
    rw [Nat.testBit_lt_two_pow (ha.trans_le hpow), Nat.testBit_lt_two_pow (hb.trans_le hpow)]

end Text

end Foundation
