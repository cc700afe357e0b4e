import Mathlib.Data.List.Sort
import Maeto.Foundation.GoMap

/-!
# Tables of a database

A table is a list of rows. A statement appends a row or replaces the one under its key, and
a query returns rows in the order of a column; rows that the column does not tell apart come
in an order of the server's own. The rows that a run of statements leaves are those of its
statements (`foldl_rows`), and writing rows with different keys appends them all
(`foldl_upsert`).
-/

namespace Foundation.Table

variable {ρ : Type}

section Write

variable {κ : Type} [DecidableEq κ]

def upsert (key : ρ → κ) (rows : List ρ) (row : ρ) : List ρ :=
  if key row ∈ rows.map key then rows.map fun r => if key r = key row then row else r
  else rows ++ [row]

theorem foldl_upsert {key : ρ → κ} {rows new : List ρ} (h : ((rows ++ new).map key).Nodup) :
    new.foldl (upsert key) rows = rows ++ new := by
  induction new generalizing rows with
  | nil => rw [List.foldl_nil, List.append_nil]
  | cons row new ih =>
    have hfresh : key row ∉ rows.map key := by
      rw [List.map_append, List.map_cons, List.nodup_append] at h
      intro hmem
      exact h.2.2 _ hmem _ List.mem_cons_self rfl
    have hstep : upsert key rows row = rows ++ [row] := if_neg hfresh
    rw [List.foldl_cons, hstep, ih, List.append_assoc, List.singleton_append]
    rwa [List.append_assoc, List.singleton_append]

end Write

/-- The rows of one table after a run of statements are made of the rows they write to
it. -/
theorem foldl_rows {σ ι : Type} {step : σ → ι → σ} {table : σ → List ρ} {row? : ι → Option ρ}
    {write : List ρ → ρ → List ρ} {l : List ι}
    (h : ∀ s, ∀ i ∈ l, table (step s i) = (row? i).toList.foldl write (table s)) (s : σ) :
    table (l.foldl step s) = (l.filterMap row?).foldl write (table s) := by
  induction l generalizing s with
  | nil => rfl
  | cons i l ih =>
    have hhead := h s i List.mem_cons_self
    rw [List.foldl_cons, ih (fun s' i' hi' => h s' i' (List.mem_cons_of_mem i hi')), hhead,
      List.filterMap_cons]
    cases row? i with
    | none => rfl
    | some row => rfl

theorem exists_of_forall₂ {β : Type} {R : ρ → β → Prop} {rows : List ρ} {l : List β}
    (h : List.Forall₂ R rows l) {b : β} (hb : b ∈ l) : ∃ row ∈ rows, R row b := by
  induction h with
  | nil => cases hb
  | cons hrow _ ih =>
    rcases List.mem_cons.mp hb with rfl | hb
    · exact ⟨_, List.mem_cons_self, hrow⟩
    · obtain ⟨row, hmem, hrow⟩ := ih hb
      exact ⟨row, List.mem_cons_of_mem _ hmem, hrow⟩

theorem foldl_append_rows (rows new : List ρ) :
    new.foldl (fun rows row => rows ++ [row]) rows = rows ++ new := by
  induction new generalizing rows with
  | nil => rw [List.foldl_nil, List.append_nil]
  | cons row new ih => rw [List.foldl_cons, ih, List.append_assoc, List.singleton_append]

def orderBy (ord : RangeOrder) (le : ρ → ρ → Prop) [DecidableRel le] (rows : List ρ) : List ρ :=
  (ord.visit rows).insertionSort le

theorem orderBy_perm (ord : RangeOrder) (le : ρ → ρ → Prop) [DecidableRel le] (rows : List ρ) :
    (orderBy ord le rows).Perm rows :=
  (List.perm_insertionSort le _).trans (ord.perm rows)

section Owner

variable {α β κ : Type} {l : List α} {owner : α → β} {rows : α → List ρ}

/-- Rows have different keys when their owners are different ones and the key of a row tells
its owner. -/
theorem nodup_flatMap {key : ρ → κ} (read : κ → β) (hl : (l.map owner).Nodup)
    (hread : ∀ a ∈ l, ∀ row ∈ rows a, read (key row) = owner a)
    (hrows : ∀ a ∈ l, ((rows a).map key).Nodup) : ((l.flatMap rows).map key).Nodup := by
  rw [List.map_flatMap, List.nodup_flatMap]
  refine ⟨hrows, (List.pairwise_map.mp hl).imp_of_mem ?_⟩
  intro a b ha hb hne k hka hkb
  obtain ⟨row, hrow, rfl⟩ := List.mem_map.mp hka
  obtain ⟨row', hrow', heq⟩ := List.mem_map.mp hkb
  exact hne (by rw [← hread a ha row hrow, ← hread b hb row' hrow', heq])

theorem filter_flatMap [DecidableEq β] {column : ρ → β} (hl : (l.map owner).Nodup)
    (hread : ∀ a ∈ l, ∀ row ∈ rows a, column row = owner a) {a : α} (ha : a ∈ l) :
    ((l.flatMap rows).filter fun row => column row = owner a) = rows a := by
  induction l with
  | nil => exact absurd ha List.not_mem_nil
  | cons b l ih =>
    obtain ⟨hb, hl⟩ := List.nodup_cons.mp hl
    have hreadl := fun c (hc : c ∈ l) => hread c (List.mem_cons_of_mem b hc)
    rw [List.flatMap_cons, List.filter_append]
    rcases List.mem_cons.mp ha with rfl | ha
    · have hnone : ((l.flatMap rows).filter fun row => column row = owner a) = [] := by
        rw [List.filter_eq_nil_iff]
        intro row hrow
        obtain ⟨c, hc, hrow⟩ := List.mem_flatMap.mp hrow
        have hne : owner c ≠ owner a := fun heq => hb (heq ▸ List.mem_map_of_mem hc)
        simpa [hreadl c hc row hrow] using hne
      rw [hnone, List.append_nil, List.filter_eq_self]
      intro row hrow
      simpa using hread a List.mem_cons_self row hrow
    · have hnone : ((rows b).filter fun row => column row = owner a) = [] := by
        rw [List.filter_eq_nil_iff]
        intro row hrow
        have hne : owner b ≠ owner a := fun heq => hb (heq ▸ List.mem_map_of_mem ha)
        simpa [hread b List.mem_cons_self row hrow] using hne
      rw [hnone, List.nil_append, ih hl hreadl ha]

end Owner

theorem flatMap_filter_perm {κ : Type} [DecidableEq κ] {key : ρ → κ} {keys : List κ}
    (hkeys : keys.Nodup) {rows : List ρ} (h : ∀ row ∈ rows, key row ∈ keys) :
    (keys.flatMap fun k => rows.filter fun row => key row = k).Perm rows := by
  induction keys generalizing rows with
  | nil =>
    cases rows with
    | nil => exact .nil
    | cons row rows => exact absurd (h row List.mem_cons_self) List.not_mem_nil
  | cons k keys ih =>
    obtain ⟨hk, hkeys⟩ := List.nodup_cons.mp hkeys
    have hrest : (keys.flatMap fun k' => rows.filter fun row => key row = k') =
        keys.flatMap fun k' =>
          (rows.filter fun row => !decide (key row = k)).filter fun row => key row = k' := by
      refine List.flatMap_congr fun k' hk' => ?_
      rw [List.filter_filter]
      refine List.filter_congr fun row _ => ?_
      by_cases hrow : key row = k'
      · have hne : key row ≠ k := fun heq => hk (heq ▸ hrow ▸ hk')
        simp [hrow, hrow ▸ hne]
      · simp [hrow]
    rw [List.flatMap_cons, hrest]
    refine (List.Perm.append_left _ (ih hkeys ?_)).trans (List.filter_append_perm _ rows)
    intro row hrow
    obtain ⟨hmem, hne⟩ := List.mem_filter.mp hrow
    exact (List.mem_cons.mp (h row hmem)).resolve_left (by simpa using hne)

end Foundation.Table
