import Mathlib.Data.List.Sort

/-!
# Sorting and selecting

A stable sort of a list and the selection of some of its elements can be exchanged
(`filter_insertionSort`). When the selected elements come before all others in the order,
a sorted list starts with them (`filter_append_filter_of_pairwise`).
-/

namespace Foundation

variable {α : Type} {r : α → α → Prop} (p : α → Bool)

/-- A sorted list starts with the selected elements when nothing else comes before one of
them. -/
theorem filter_append_filter_of_pairwise {l : List α} (hl : l.Pairwise r)
    (hp : ∀ a ∈ l, ∀ b ∈ l, r a b → p b = true → p a = true) :
    l = l.filter p ++ l.filter fun a => !p a := by
  induction l with
  | nil => rfl
  | cons a l ih =>
    obtain ⟨ha, hl⟩ := List.pairwise_cons.mp hl
    have htail := ih hl fun b hb c hc =>
      hp b (List.mem_cons_of_mem a hb) c (List.mem_cons_of_mem a hc)
    by_cases hpa : p a = true
    · rw [List.filter_cons_of_pos hpa, List.filter_cons_of_neg (by simp [hpa]), List.cons_append,
        ← htail]
    · have hnone : l.filter p = [] := by
        rw [List.filter_eq_nil_iff]
        intro b hb hpb
        exact hpa (hp a List.mem_cons_self b (List.mem_cons_of_mem a hb) (ha b hb) hpb)
      rw [hnone, List.nil_append] at htail
      rw [List.filter_cons_of_neg hpa, List.filter_cons_of_pos (by simp [hpa]), hnone,
        List.nil_append, ← htail]

variable [DecidableRel r]

theorem filter_orderedInsert [IsTrans α r] {a : α} (ha : p a = true) {l : List α}
    (hl : l.Pairwise r) :
    (l.orderedInsert r a).filter p = (l.filter p).orderedInsert r a := by
  induction l with
  | nil => simp [ha]
  | cons b l ih =>
    obtain ⟨hb, hl⟩ := List.pairwise_cons.mp hl
    rw [List.orderedInsert_cons]
    split_ifs with hab
    · have hall : ∀ c ∈ (b :: l).filter p, r a c := by
        intro c hc
        rcases List.mem_cons.mp (List.mem_filter.mp hc).1 with rfl | hc
        · exact hab
        · exact IsTrans.trans a b c hab (hb c hc)
      rw [List.filter_cons_of_pos ha]
      cases hfilter : (b :: l).filter p with
      | nil => rfl
      | cons c rest =>
        rw [hfilter] at hall
        rw [List.orderedInsert_cons_of_le r rest (hall c List.mem_cons_self)]
    · rw [List.filter_cons, ih hl]
      by_cases hpb : p b = true
      · rw [if_pos hpb, List.filter_cons_of_pos hpb, List.orderedInsert_of_not_le r _ hab]
      · rw [if_neg hpb, List.filter_cons_of_neg hpb]

theorem filter_orderedInsert_of_neg {a : α} (ha : ¬ p a = true) (l : List α) :
    (l.orderedInsert r a).filter p = l.filter p := by
  induction l with
  | nil => simp [ha]
  | cons b l ih =>
    rw [List.orderedInsert_cons]
    split_ifs
    · rw [List.filter_cons_of_neg ha]
    · rw [List.filter_cons, ih, List.filter_cons]

theorem filter_insertionSort [IsTrans α r] [Std.Total r] (l : List α) :
    (l.insertionSort r).filter p = (l.filter p).insertionSort r := by
  induction l with
  | nil => rfl
  | cons a l ih =>
    rw [List.insertionSort_cons]
    by_cases ha : p a = true
    · rw [filter_orderedInsert p ha (List.pairwise_insertionSort r l), ih,
        List.filter_cons_of_pos ha, List.insertionSort_cons]
    · rw [filter_orderedInsert_of_neg p ha, ih, List.filter_cons_of_neg ha]

end Foundation
