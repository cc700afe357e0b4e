import Mathlib.Data.List.Flatten
import Mathlib.Data.List.Infix

/-!
# Texts written one after the other

The elements of a list are written one after the other with nothing between them. Two lists can
be written alike although they differ: then, at the first place where they differ, what is
written for one element is the beginning of what is written for the other, and the text is cut
elsewhere from there on (`flatMap_eq_iff`). This cannot happen with elements none of which is
written as the beginning of another.
-/

namespace Foundation

variable {α β : Type*} {enc : α → List β}

def CutElsewhere (enc : α → List β) (l l' : List α) : Prop :=
  ∃ common a b rest rest', l = common ++ a :: rest ∧ l' = common ++ b :: rest' ∧ a ≠ b ∧
    (enc a <+: enc b ∨ enc b <+: enc a) ∧ (a :: rest).flatMap enc = (b :: rest').flatMap enc

theorem CutElsewhere.ne {l l' : List α} (h : CutElsewhere enc l l') : l ≠ l' := by
  obtain ⟨common, a, b, rest, rest', rfl, rfl, hne, -, -⟩ := h
  intro heq
  exact hne (List.cons.inj (List.append_cancel_left heq)).1

theorem CutElsewhere.flatMap_eq {l l' : List α} (h : CutElsewhere enc l l') :
    l.flatMap enc = l'.flatMap enc := by
  obtain ⟨common, a, b, rest, rest', rfl, rfl, -, -, heq⟩ := h
  rw [List.flatMap_append, List.flatMap_append, heq]

theorem CutElsewhere.cons {l l' : List α} (h : CutElsewhere enc l l') (a : α) :
    CutElsewhere enc (a :: l) (a :: l') := by
  obtain ⟨common, x, y, rest, rest', rfl, rfl, hxy⟩ := h
  exact ⟨a :: common, x, y, rest, rest', rfl, rfl, hxy⟩

theorem flatMap_eq_iff (henc : ∀ a, enc a ≠ []) (l l' : List α) :
    l.flatMap enc = l'.flatMap enc ↔ l = l' ∨ CutElsewhere enc l l' := by
  constructor
  · intro heq
    induction l generalizing l' with
    | nil =>
      cases l' with
      | nil => exact Or.inl rfl
      | cons b l' =>
        rw [List.flatMap_nil, List.flatMap_cons] at heq
        exact absurd (List.append_eq_nil_iff.mp heq.symm).1 (henc b)
    | cons a l ih =>
      cases l' with
      | nil =>
        rw [List.flatMap_nil, List.flatMap_cons] at heq
        exact absurd (List.append_eq_nil_iff.mp heq).1 (henc a)
      | cons b l' =>
        by_cases hab : a = b
        · subst hab
          rw [List.flatMap_cons, List.flatMap_cons] at heq
          rcases ih l' (List.append_cancel_left heq) with rfl | hcut
          · exact Or.inl rfl
          · exact Or.inr (hcut.cons a)
        · refine Or.inr ⟨[], a, b, l, l', rfl, rfl, hab, ?_, heq⟩
          rw [List.flatMap_cons, List.flatMap_cons] at heq
          exact List.prefix_or_prefix_of_prefix ⟨_, heq⟩ (List.prefix_append _ _)
  · rintro (rfl | hcut)
    · rfl
    · exact hcut.flatMap_eq

/-- Lists of elements none of which is written as the beginning of another are not cut
elsewhere. -/
theorem not_cutElsewhere {P : α → Prop} (hfree : ∀ a b, P a → P b → enc a <+: enc b → a = b)
    {l l' : List α} (hl : ∀ a ∈ l, P a) (hl' : ∀ a ∈ l', P a) : ¬ CutElsewhere enc l l' := by
  rintro ⟨common, a, b, rest, rest', rfl, rfl, hne, hstart, -⟩
  have ha : P a := hl a (List.mem_append_right _ List.mem_cons_self)
  have hb : P b := hl' b (List.mem_append_right _ List.mem_cons_self)
  rcases hstart with hstart | hstart
  · exact hne (hfree a b ha hb hstart)
  · exact hne (hfree b a hb ha hstart).symm

end Foundation
