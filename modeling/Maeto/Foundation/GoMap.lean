import Mathlib.Data.List.AList
import Mathlib.Data.List.Rotate

/-!
# Maps with an unspecified iteration order

`GoMap κ ν` is a finite map with at most one value per key. The order in which
its entries happen to be listed is not observable: a loop over a map visits the
entries in the order of a `RangeOrder`, which may be any permutation and may be
a different one for each loop. A function that loops over a map therefore takes
the order as an argument, and a statement about it holds for every order.

Lookup, insertion and deletion are those of `AList`. What is added here is the
zero-defaulted lookup `getD`, the list `range` of visited entries, and the two
facts the loops need: an entry is visited exactly when it is in the map, and no
key is visited twice. A loop that copies a part of one map into another
(`copyInto`) has a result that does not depend on the order (`lookup_copyInto`),
and storing the values of a list under their keys (`collect`) keeps for each key
the last value that has it.
-/

namespace Foundation

abbrev GoMap (κ ν : Type*) := AList (fun _ : κ => ν)

structure RangeOrder where
  visit : ∀ {α : Type}, List α → List α
  perm : ∀ {α : Type} (l : List α), (visit l).Perm l

namespace RangeOrder

def listed : RangeOrder where
  visit := fun l => l
  perm := fun _ => List.Perm.refl _

def rotated (n : ℕ) : RangeOrder where
  visit := fun l => l.rotate n
  perm := fun l => l.rotate_perm n

@[simp] theorem visit_rotated (n : ℕ) {α : Type} (l : List α) :
    (rotated n).visit l = l.rotate n := rfl

@[simp] theorem mem_visit (ord : RangeOrder) {α : Type} (l : List α) (a : α) :
    a ∈ ord.visit l ↔ a ∈ l :=
  (ord.perm l).mem_iff

end RangeOrder

namespace GoMap

variable {κ ν : Type} [DecidableEq κ]

def getD (m : GoMap κ ν) (k : κ) (z : ν) : ν :=
  (m.lookup k).getD z

theorem getD_insert (m : GoMap κ ν) (k k' : κ) (v z : ν) :
    getD (m.insert k v) k' z = if k' = k then v else getD m k' z := by
  by_cases h : k' = k
  · subst h
    simp [getD]
  · simp [getD, h, AList.lookup_insert_ne h]

theorem getD_empty (k : κ) (z : ν) : getD (∅ : GoMap κ ν) k z = z := by
  simp [getD]

theorem lookup_empty_ne (k : κ) (v : ν) : (∅ : GoMap κ ν).lookup k ≠ some v := by
  rw [AList.lookup_empty]
  exact (Option.some_ne_none v).symm

theorem forall_lookup_empty (P : κ → ν → Prop) :
    ∀ k v, (∅ : GoMap κ ν).lookup k = some v → P k v :=
  fun k v h => absurd h (lookup_empty_ne k v)

theorem mem_iff {m : GoMap κ ν} {k : κ} : k ∈ m ↔ ∃ v, m.lookup k = some v := by
  rw [← AList.lookup_isSome, Option.isSome_iff_exists]

theorem lookup_insert_eq (m : GoMap κ ν) (k k' : κ) (v : ν) :
    (m.insert k v).lookup k' = if k' = k then some v else m.lookup k' := by
  by_cases h : k' = k
  · subst h
    simp
  · simp [h, AList.lookup_insert_ne h]

theorem lookup_erase_eq (m : GoMap κ ν) (k k' : κ) :
    (m.erase k).lookup k' = if k' = k then none else m.lookup k' := by
  by_cases h : k' = k
  · subst h
    simp
  · simp [h, AList.lookup_erase_ne h]

theorem forall_lookup_insert {P : κ → ν → Prop} {m : GoMap κ ν} {k : κ} {v : ν}
    (hm : ∀ k v, m.lookup k = some v → P k v) (h : P k v) :
    ∀ k' v', (m.insert k v).lookup k' = some v' → P k' v' := by
  intro k' v' hv'
  rw [lookup_insert_eq] at hv'
  split_ifs at hv' with hk
  · cases hv'
    exact hk ▸ h
  · exact hm k' v' hv'

theorem forall_lookup_singleton {P : κ → ν → Prop} {k : κ} {v : ν} (h : P k v) :
    ∀ k' v', ((∅ : GoMap κ ν).insert k v).lookup k' = some v' → P k' v' :=
  forall_lookup_insert (forall_lookup_empty P) h

theorem forall_lookup_erase {P : κ → ν → Prop} {m : GoMap κ ν}
    (hm : ∀ k v, m.lookup k = some v → P k v) (k : κ) :
    ∀ k' v', (m.erase k).lookup k' = some v' → P k' v' := by
  intro k' v' hv'
  rw [lookup_erase_eq] at hv'
  split_ifs at hv'
  exact hm k' v' hv'

theorem erase_of_lookup_eq_none {m : GoMap κ ν} {k : κ} (h : m.lookup k = none) :
    m.erase k = m := by
  refine AList.ext (List.kerase_of_notMem_keys ?_)
  exact AList.lookup_eq_none.mp h

theorem insert_erase (m : GoMap κ ν) (k : κ) (v : ν) : (m.erase k).insert k v = m.insert k v := by
  refine AList.ext ?_
  rw [AList.entries_insert, AList.entries_insert]
  refine congrArg (List.cons _) (List.kerase_of_notMem_keys ?_)
  exact List.notMem_keys_kerase k m.nodupKeys

theorem entries_eq_nil_iff (m : GoMap κ ν) :
    m.entries = [] ↔ ∀ k, m.lookup k = none := by
  constructor
  · intro h k
    have hm : m = ∅ := AList.ext h
    rw [hm, AList.lookup_empty]
  · intro h
    rw [List.eq_nil_iff_forall_not_mem]
    rintro ⟨k, v⟩ hkv
    have hv : v ∈ m.lookup k := AList.mem_lookup_iff.mpr hkv
    rw [h k] at hv
    cases hv

end GoMap

section Range

variable {κ ν : Type}

def GoMap.range (ord : RangeOrder) (m : GoMap κ ν) : List (κ × ν) :=
  (ord.visit m.entries).map fun e => (e.1, e.2)

theorem GoMap.mem_range [DecidableEq κ] (ord : RangeOrder) (m : GoMap κ ν) (k : κ) (v : ν) :
    (k, v) ∈ GoMap.range ord m ↔ m.lookup k = some v := by
  rw [GoMap.range, List.mem_map]
  constructor
  · rintro ⟨⟨k', v'⟩, he, heq⟩
    rw [RangeOrder.mem_visit] at he
    simp only [Prod.mk.injEq] at heq
    obtain ⟨rfl, rfl⟩ := heq
    exact AList.mem_lookup_iff.mpr he
  · intro h
    refine ⟨⟨k, v⟩, ?_, rfl⟩
    rw [RangeOrder.mem_visit]
    exact AList.mem_lookup_iff.mp h

theorem GoMap.range_listed_insert [DecidableEq κ] (m : GoMap κ ν) (k : κ) (v : ν) :
    GoMap.range .listed (m.insert k v) = (k, v) :: GoMap.range .listed (m.erase k) := by
  rw [GoMap.range, AList.entries_insert]
  rfl

theorem GoMap.range_listed_erase_sublist [DecidableEq κ] (m : GoMap κ ν) (k : κ) :
    (GoMap.range .listed (m.erase k)).Sublist (GoMap.range .listed m) :=
  (List.kerase_sublist k m.entries).map _

theorem GoMap.range_perm (ord : RangeOrder) (m : GoMap κ ν) :
    (GoMap.range ord m).Perm (m.entries.map fun e => (e.1, e.2)) :=
  (ord.perm m.entries).map _

theorem GoMap.range_insert_perm [DecidableEq κ] {m : GoMap κ ν} {k : κ} (h : m.lookup k = none)
    (v : ν) (ord ord' : RangeOrder) :
    (GoMap.range ord (m.insert k v)).Perm ((k, v) :: GoMap.range ord' m) := by
  have hlisted := range_listed_insert m k v
  rw [erase_of_lookup_eq_none h] at hlisted
  refine ((range_perm ord _).trans (range_perm .listed _).symm).trans ?_
  rw [hlisted]
  exact ((range_perm .listed m).trans (range_perm ord' m).symm).cons _

theorem GoMap.range_keys_nodup (ord : RangeOrder) (m : GoMap κ ν) :
    ((GoMap.range ord m).map Prod.fst).Nodup := by
  have hperm := (range_perm ord m).map Prod.fst
  rw [hperm.nodup_iff, List.map_map]
  exact m.nodupKeys

theorem GoMap.range_nodup (ord : RangeOrder) (m : GoMap κ ν) : (GoMap.range ord m).Nodup :=
  (range_keys_nodup ord m).of_map

theorem GoMap.length_range (ord : RangeOrder) (m : GoMap κ ν) :
    (GoMap.range ord m).length = m.keys.length := by
  rw [(range_perm ord m).length_eq, List.length_map, AList.keys, List.keys, List.length_map]

theorem exists_eq_takeWhile_append [DecidableEq κ] {l : List (κ × ν)}
    (hnodup : (l.map Prod.fst).Nodup) {k : κ} {v : ν} (h : (k, v) ∈ l) :
    ∃ after, l = (l.takeWhile fun e => e.1 ≠ k) ++ (k, v) :: after ∧ k ∉ after.map Prod.fst := by
  induction l with
  | nil => cases h
  | cons e l ih =>
    obtain ⟨hhead, htail⟩ := List.nodup_cons.mp hnodup
    rcases List.mem_cons.mp h with rfl | hmem
    · exact ⟨l, by simp, hhead⟩
    · have hne : e.1 ≠ k := fun heq => hhead (heq ▸ List.mem_map_of_mem hmem)
      obtain ⟨after, hsplit, hafter⟩ := ih htail hmem
      refine ⟨after, ?_, hafter⟩
      rw [List.takeWhile_cons_of_pos (by simpa using hne), List.cons_append, ← hsplit]

theorem GoMap.range_eq_takeWhile_append [DecidableEq κ] (ord : RangeOrder) {m : GoMap κ ν} {k : κ}
    {v : ν} (h : m.lookup k = some v) :
    ∃ after, GoMap.range ord m =
      ((GoMap.range ord m).takeWhile fun e => e.1 ≠ k) ++ (k, v) :: after ∧
        k ∉ after.map Prod.fst :=
  exists_eq_takeWhile_append (range_keys_nodup ord m) ((mem_range ord m k v).mpr h)

theorem GoMap.mem_range_keys [DecidableEq κ] (ord : RangeOrder) (m : GoMap κ ν) (k : κ) :
    k ∈ (GoMap.range ord m).map Prod.fst ↔ k ∈ m := by
  rw [List.mem_map, mem_iff]
  constructor
  · rintro ⟨⟨k, v⟩, hv, rfl⟩
    exact ⟨v, (mem_range ord m k v).mp hv⟩
  · rintro ⟨v, hv⟩
    exact ⟨(k, v), (mem_range ord m k v).mpr hv, rfl⟩

theorem GoMap.range_insert_empty [DecidableEq κ] (ord : RangeOrder) (k : κ) (v : ν) :
    GoMap.range ord ((∅ : GoMap κ ν).insert k v) = [(k, v)] := by
  have hperm := range_perm ord ((∅ : GoMap κ ν).insert k v)
  exact List.perm_singleton.mp hperm

/-- What the first match satisfies in every order: there is a match, and every match
satisfies it, because each of them is the first one in some order. -/
theorem GoMap.forall_find?_range_iff [DecidableEq κ] (m : GoMap κ ν) (p : κ × ν → Bool)
    (Q : κ × ν → Prop) :
    (∀ ord, ∃ e, (GoMap.range ord m).find? p = some e ∧ Q e) ↔
      (∃ e : κ × ν, m.lookup e.1 = some e.2 ∧ p e) ∧
        ∀ e : κ × ν, m.lookup e.1 = some e.2 → p e → Q e := by
  constructor
  · intro h
    refine ⟨?_, ?_⟩
    · obtain ⟨e, he, -⟩ := h .listed
      exact ⟨e, (mem_range _ _ _ _).mp (List.mem_of_find?_eq_some he), List.find?_some he⟩
    · rintro ⟨k, v⟩ hlookup hp
      have hmem : (⟨k, v⟩ : Sigma fun _ : κ => ν) ∈ m.entries := AList.mem_lookup_iff.mp hlookup
      obtain ⟨n, hn, hentry⟩ := List.getElem_of_mem hmem
      obtain ⟨e, he, hQ⟩ := h (.rotated n)
      have hfirst : GoMap.range (.rotated n) m =
          (k, v) :: ((m.entries.drop (n + 1) ++ m.entries.take n).map fun e => (e.1, e.2)) := by
        rw [GoMap.range, RangeOrder.visit_rotated, List.rotate_eq_drop_append_take hn.le,
          List.drop_eq_getElem_cons hn, hentry]
        rfl
      rw [hfirst, List.find?_cons_of_pos hp] at he
      cases he
      exact hQ
  · rintro ⟨⟨⟨k, v⟩, hlookup, hp⟩, hall⟩ ord
    have hsome : ((GoMap.range ord m).find? p).isSome :=
      List.find?_isSome.mpr ⟨(k, v), (mem_range _ _ _ _).mpr hlookup, hp⟩
    obtain ⟨e, he⟩ := Option.isSome_iff_exists.mp hsome
    have hmem := (mem_range ord m e.1 e.2).mp (List.mem_of_find?_eq_some he)
    exact ⟨e, he, hall e hmem (List.find?_some he)⟩

end Range

section Copy

variable {κ ν ω : Type} [DecidableEq κ]

def GoMap.copyRound (f : κ → ν → Option ω) (acc : GoMap κ ω) (e : κ × ν) : GoMap κ ω :=
  match f e.1 e.2 with
  | none => acc
  | some w => acc.insert e.1 w

def GoMap.copyInto (ord : RangeOrder) (f : κ → ν → Option ω) (m : GoMap κ ν)
    (start : GoMap κ ω) : GoMap κ ω :=
  (m.range ord).foldl (GoMap.copyRound f) start

theorem GoMap.lookup_copyRound_ne (f : κ → ν → Option ω) (acc : GoMap κ ω) {e : κ × ν} {k : κ}
    (h : k ≠ e.1) : (GoMap.copyRound f acc e).lookup k = acc.lookup k := by
  unfold GoMap.copyRound
  split
  · rfl
  · rw [lookup_insert_eq, if_neg h]

theorem GoMap.lookup_foldl_copyRound_of_notMem (f : κ → ν → Option ω) (l : List (κ × ν))
    (acc : GoMap κ ω) {k : κ} (h : k ∉ l.map Prod.fst) :
    (l.foldl (GoMap.copyRound f) acc).lookup k = acc.lookup k := by
  induction l generalizing acc with
  | nil => rfl
  | cons e l ih =>
    rw [List.map_cons, List.mem_cons, not_or] at h
    rw [List.foldl_cons, ih _ h.2, lookup_copyRound_ne f acc h.1]

theorem GoMap.lookup_foldl_copyRound (f : κ → ν → Option ω) {l : List (κ × ν)}
    (hl : (l.map Prod.fst).Nodup) (acc : GoMap κ ω) {k : κ} {v : ν} (h : (k, v) ∈ l) :
    (l.foldl (GoMap.copyRound f) acc).lookup k = (f k v).or (acc.lookup k) := by
  induction l generalizing acc with
  | nil => cases h
  | cons e l ih =>
    rw [List.map_cons, List.nodup_cons] at hl
    rw [List.foldl_cons]
    rcases List.mem_cons.mp h with rfl | hmem
    · rw [lookup_foldl_copyRound_of_notMem f l _ hl.1, GoMap.copyRound]
      cases f k v with
      | none => rfl
      | some w => simp
    · have hne : k ≠ e.1 := fun hk => hl.1 (hk ▸ List.mem_map_of_mem hmem)
      rw [ih hl.2 _ hmem, lookup_copyRound_ne f acc hne]

theorem GoMap.lookup_copyInto (ord : RangeOrder) (f : κ → ν → Option ω) (m : GoMap κ ν)
    (start : GoMap κ ω) (k : κ) :
    (m.copyInto ord f start).lookup k = ((m.lookup k).bind (f k)).or (start.lookup k) := by
  cases hv : m.lookup k with
  | none =>
    apply lookup_foldl_copyRound_of_notMem
    intro hmem
    obtain ⟨⟨k', v⟩, he, rfl⟩ := List.mem_map.mp hmem
    rw [(mem_range ord m _ _).mp he] at hv
    cases hv
  | some v =>
    exact lookup_foldl_copyRound f (range_keys_nodup ord m) start
      ((mem_range ord m k v).mpr hv)

theorem GoMap.range_copyInto_perm (ord ord' ord'' : RangeOrder) (f : κ → ν → ω) (m : GoMap κ ν) :
    ((m.copyInto ord (fun k v => some (f k v)) ∅).range ord').Perm
      ((m.range ord'').map fun e => (e.1, f e.1 e.2)) := by
  have hkeys : (((m.range ord'').map fun e => (e.1, f e.1 e.2)).map Prod.fst).Nodup := by
    rw [List.map_map]
    exact range_keys_nodup ord'' m
  refine (List.perm_ext_iff_of_nodup (range_keys_nodup ord' _).of_map hkeys.of_map).mpr ?_
  rintro ⟨k, w⟩
  rw [mem_range, lookup_copyInto, AList.lookup_empty, Option.or_none,
    Option.bind_eq_some_iff, List.mem_map]
  constructor
  · rintro ⟨v, hv, hw⟩
    exact ⟨(k, v), (mem_range ord'' m k v).mpr hv, by rw [← Option.some.inj hw]⟩
  · rintro ⟨⟨k', v⟩, hv, heq⟩
    obtain ⟨rfl, rfl⟩ := Prod.mk.inj heq
    exact ⟨v, (mem_range ord'' m k' v).mp hv, rfl⟩

theorem GoMap.mem_of_mem_copyInto {ord : RangeOrder} {f : κ → ν → Option ω} {m : GoMap κ ν}
    {k : κ} (h : k ∈ m.copyInto ord f ∅) : k ∈ m := by
  rw [← AList.lookup_isSome, lookup_copyInto, AList.lookup_empty, Option.or_none] at h
  rw [← AList.lookup_isSome]
  cases hv : m.lookup k with
  | none => simp [hv] at h
  | some v => rfl

end Copy

section Store

variable {α κ ν : Type} [DecidableEq κ]

def GoMap.storeEach (key : α → κ) (value : α → ν) (l : List α) (start : GoMap κ ν) : GoMap κ ν :=
  l.foldl (fun m a => m.insert (key a) (value a)) start

theorem GoMap.storeEach_append (key : α → κ) (value : α → ν) (l l' : List α)
    (start : GoMap κ ν) :
    GoMap.storeEach key value (l ++ l') start =
      GoMap.storeEach key value l' (GoMap.storeEach key value l start) :=
  List.foldl_append

theorem GoMap.lookup_storeEach (key : α → κ) (value : α → ν) (l : List α) (start : GoMap κ ν)
    (k : κ) :
    (GoMap.storeEach key value l start).lookup k =
      ((l.reverse.find? fun a => key a = k).map value).or (start.lookup k) := by
  induction l using List.reverseRecOn with
  | nil => rfl
  | append_singleton l a ih =>
    have hstep : GoMap.storeEach key value (l ++ [a]) start =
        (GoMap.storeEach key value l start).insert (key a) (value a) := by
      rw [GoMap.storeEach, List.foldl_append]
      rfl
    rw [hstep, lookup_insert_eq, List.reverse_concat, List.find?_cons]
    by_cases h : k = key a
    · simp [h]
    · simp [h, Ne.symm h, ih]

theorem GoMap.of_lookup_storeEach {key : α → κ} {value : α → ν} {l : List α} {start : GoMap κ ν}
    {k : κ} {v : ν} (h : (GoMap.storeEach key value l start).lookup k = some v) :
    (∃ a ∈ l, key a = k ∧ value a = v) ∨ start.lookup k = some v := by
  rw [lookup_storeEach] at h
  cases hfind : l.reverse.find? fun a => key a = k with
  | none =>
    rw [hfind] at h
    exact Or.inr h
  | some a =>
    rw [hfind] at h
    cases h
    exact Or.inl ⟨a, List.mem_reverse.mp (List.mem_of_find?_eq_some hfind),
      by simpa using List.find?_some hfind, rfl⟩

theorem GoMap.exists_lookup_storeEach (key : α → κ) (value : α → ν) {l : List α}
    (start : GoMap κ ν) {a : α} (ha : a ∈ l) :
    ∃ a' ∈ l, key a' = key a ∧
      (GoMap.storeEach key value l start).lookup (key a) = some (value a') := by
  have hsome : (l.reverse.find? fun a' => key a' = key a).isSome := by
    rw [List.find?_isSome]
    exact ⟨a, List.mem_reverse.mpr ha, by simp⟩
  obtain ⟨a', hfind⟩ := Option.isSome_iff_exists.mp hsome
  refine ⟨a', List.mem_reverse.mp (List.mem_of_find?_eq_some hfind),
    by simpa using List.find?_some hfind, ?_⟩
  rw [lookup_storeEach, hfind]
  rfl

theorem GoMap.lookup_storeEach_iff_of_nodup {key : α → κ} {value : α → ν} {l : List α}
    (h : (l.map key).Nodup) {k : κ} {v : ν} :
    (GoMap.storeEach key value l ∅).lookup k = some v ↔ ∃ a ∈ l, key a = k ∧ value a = v := by
  constructor
  · intro hlookup
    exact (of_lookup_storeEach hlookup).resolve_right (lookup_empty_ne k v)
  · rintro ⟨a, ha, rfl, rfl⟩
    obtain ⟨a', ha', hkey, hlookup⟩ := exists_lookup_storeEach key value ∅ ha
    rw [hlookup, List.inj_on_of_nodup_map h ha' ha hkey]

theorem GoMap.range_storeEach_perm {key : α → κ} {value : α → ν} {l : List α}
    (h : (l.map key).Nodup) (ord : RangeOrder) :
    ((GoMap.storeEach key value l ∅).range ord).Perm (l.map fun a => (key a, value a)) := by
  have hkeys : ((l.map fun a => (key a, value a)).map Prod.fst).Nodup := by
    rw [List.map_map]
    exact h
  refine (List.perm_ext_iff_of_nodup (range_keys_nodup ord _).of_map hkeys.of_map).mpr ?_
  rintro ⟨k, v⟩
  rw [mem_range, lookup_storeEach_iff_of_nodup h, List.mem_map]
  simp only [Prod.mk.injEq]

end Store

section Collect

variable {κ ν : Type} [DecidableEq κ]

def GoMap.collect (key : ν → κ) (l : List ν) : GoMap κ ν :=
  l.foldl (fun m v => m.insert (key v) v) ∅

theorem GoMap.lookup_collect (key : ν → κ) (l : List ν) (k : κ) :
    (GoMap.collect key l).lookup k = l.reverse.find? fun v => key v = k := by
  have hstore := lookup_storeEach key id l ∅ k
  rw [AList.lookup_empty, Option.or_none, Option.map_id] at hstore
  exact hstore

theorem GoMap.of_lookup_collect {key : ν → κ} {l : List ν} {k : κ} {v : ν}
    (h : (GoMap.collect key l).lookup k = some v) : v ∈ l ∧ key v = k := by
  rw [lookup_collect] at h
  refine ⟨List.mem_reverse.mp (List.mem_of_find?_eq_some h), ?_⟩
  simpa using List.find?_some h

theorem GoMap.mem_collect (key : ν → κ) (l : List ν) (k : κ) :
    k ∈ GoMap.collect key l ↔ ∃ v ∈ l, key v = k := by
  rw [← AList.lookup_isSome, lookup_collect, List.find?_isSome]
  simp

theorem GoMap.lookup_collect_of_unique {key : ν → κ} {l : List ν} {v : ν} (hv : v ∈ l)
    (h : ∀ w ∈ l, key w = key v → w = v) : (GoMap.collect key l).lookup (key v) = some v := by
  have hmem : key v ∈ GoMap.collect key l := (mem_collect key l _).mpr ⟨v, hv, rfl⟩
  obtain ⟨w, hw⟩ := mem_iff.mp hmem
  obtain ⟨hwl, hwk⟩ := of_lookup_collect hw
  rw [hw, h w hwl hwk]

theorem GoMap.collect_concat (key : ν → κ) (l : List ν) (v : ν) :
    GoMap.collect key (l ++ [v]) = (GoMap.collect key l).insert (key v) v := by
  rw [GoMap.collect, List.foldl_append]
  rfl

theorem GoMap.lookup_collect_eq_none {key : ν → κ} {l : List ν} {k : κ} :
    (GoMap.collect key l).lookup k = none ↔ k ∉ l.map key := by
  rw [AList.lookup_eq_none, mem_collect, List.mem_map]

theorem GoMap.lookup_collect_iff_of_nodup {key : ν → κ} {l : List ν} (h : (l.map key).Nodup)
    {k : κ} {v : ν} : (GoMap.collect key l).lookup k = some v ↔ v ∈ l ∧ key v = k := by
  constructor
  · exact of_lookup_collect
  · rintro ⟨hv, rfl⟩
    exact lookup_collect_of_unique hv fun w hw heq => List.inj_on_of_nodup_map h hw hv heq

theorem GoMap.lookup_eq_lookup_collect {key : ν → κ} {m : GoMap κ ν}
    (h : ∀ k v, m.lookup k = some v → key v = k) (ord : RangeOrder) (k : κ) :
    m.lookup k = (GoMap.collect key ((m.range ord).map Prod.snd)).lookup k := by
  have hkeys : ((m.range ord).map Prod.snd).map key = (m.range ord).map Prod.fst := by
    rw [List.map_map]
    refine List.map_congr_left ?_
    rintro ⟨k', v⟩ hmem
    exact h k' v ((mem_range ord m k' v).mp hmem)
  have hnodup : (((m.range ord).map Prod.snd).map key).Nodup :=
    hkeys ▸ range_keys_nodup ord m
  refine Option.ext fun v => ?_
  rw [lookup_collect_iff_of_nodup hnodup, List.mem_map]
  constructor
  · intro hv
    exact ⟨⟨(k, v), (mem_range ord m k v).mpr hv, rfl⟩, h k v hv⟩
  · rintro ⟨⟨⟨k', v'⟩, hmem, rfl⟩, rfl⟩
    have hv := (mem_range ord m k' v').mp hmem
    rw [h k' v' hv, hv]

/-- Two collections agree on what is seen of their values when they are made of values that
look the same. -/
theorem GoMap.lookup_collect_view {β : Type} {view : ν → β} {key : ν → κ} (read : β → κ)
    (hread : ∀ v, read (view v) = key v) {l l' : List ν} (hnodup : (l.map key).Nodup)
    (hl : (l.map view).Perm (l'.map view)) (k : κ) :
    ((GoMap.collect key l).lookup k).map view = ((GoMap.collect key l').lookup k).map view := by
  have hkeys : ∀ l : List ν, (l.map view).map read = l.map key := by
    intro l
    rw [List.map_map]
    exact List.map_congr_left fun v _ => hread v
  have hnodup' : (l'.map key).Nodup := by
    rw [← hkeys, ← (hl.map read).nodup_iff, hkeys]
    exact hnodup
  have hmem : ∀ l : List ν, (l.map key).Nodup → ∀ w,
      ((GoMap.collect key l).lookup k).map view = some w ↔ w ∈ l.map view ∧ read w = k := by
    intro l hl w
    simp only [Option.map_eq_some_iff, lookup_collect_iff_of_nodup hl, List.mem_map]
    constructor
    · rintro ⟨v, ⟨hv, rfl⟩, rfl⟩
      exact ⟨⟨v, hv, rfl⟩, hread v⟩
    · rintro ⟨⟨v, hv, rfl⟩, hk⟩
      exact ⟨v, ⟨hv, (hread v).symm.trans hk⟩, rfl⟩
  refine Option.ext fun w => ?_
  rw [hmem l hnodup, hmem l' hnodup', hl.mem_iff]

def GoMap.group (key : ν → κ) (l : List ν) : GoMap κ (List ν) :=
  l.foldl (fun m v => m.insert (key v) (m.getD (key v) [] ++ [v])) ∅

theorem GoMap.group_concat (key : ν → κ) (l : List ν) (v : ν) :
    GoMap.group key (l ++ [v]) =
      (GoMap.group key l).insert (key v) ((GoMap.group key l).getD (key v) [] ++ [v]) := by
  rw [GoMap.group, List.foldl_append]
  rfl

theorem GoMap.lookup_group (key : ν → κ) (l : List ν) (k : κ) :
    (GoMap.group key l).lookup k =
      if l.filter (fun v => key v = k) = [] then none
      else some (l.filter fun v => key v = k) := by
  induction l using List.reverseRecOn with
  | nil => rfl
  | append_singleton l v ih =>
    rw [group_concat, lookup_insert_eq, List.filter_append]
    by_cases hk : k = key v
    · subst hk
      have hgetD : (GoMap.group key l).getD (key v) [] = l.filter fun w => key w = key v := by
        rw [GoMap.getD, ih]
        split_ifs with hnil
        · rw [hnil]
          rfl
        · rfl
      simp [hgetD]
    · rw [if_neg hk, ih]
      simp [Ne.symm hk]

end Collect

end Foundation
