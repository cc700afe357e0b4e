import Maeto.Foundation.Run
import Maeto.Foundation.Text
import Maeto.Simulator.Lab
import Mathlib.Data.List.Sort
import Mathlib.Data.String.Basic

/-!
# The lab of a generated build

`load` numbers the core links between two PoPs in the order of the data file, and files each link
under the ids of its two PoPs and its number, written one after the other. A reference `A-B#k` is
split at its first `#` and at its first `-`, and names the links between the two PoPs whose ids
end in `k`.

Two links may be filed under one id, so that only one of them is in the lab, and a reference may
name other links than it is meant to. When neither happens is read off the ids of the PoPs
(`seesEveryLink_iff`).
-/

namespace Maeto.Simulator

open Foundation GoMap

structure EndSpec where
  id : String
  node : String
  interface : String
  deriving DecidableEq

structure CoreSpec where
  a : EndSpec
  b : EndSpec
  deriving DecidableEq

structure Generated where
  name : String
  shaped : GoMap (String × String) Shape

def Generated.endOf (build : Generated) (spec : EndSpec) : End where
  pop := spec.id
  iface := spec.interface
  container := "clab-" ++ build.name ++ "-" ++ spec.node
  shape := build.shaped.getD (spec.node, spec.interface) {}

def sortedPair (a b : String) : String × String := if b < a then (b, a) else (a, b)

structure Member where
  spec : CoreSpec
  member : ℕ
  deriving DecidableEq

def numberRound (st : GoMap (String × String) ℕ × List Member) (spec : CoreSpec) :
    GoMap (String × String) ℕ × List Member :=
  let pair := sortedPair spec.a.id spec.b.id
  let seen : GoMap (String × String) ℕ := st.1.insert pair (st.1.getD pair 0 + 1)
  (seen, st.2 ++ [⟨spec, seen.getD pair 0⟩])

def members (core : List CoreSpec) : List Member := (core.foldl numberRound (∅, [])).2

def Generated.link (build : Generated) (m : Member) : Link where
  id := m.spec.a.id ++ m.spec.b.id ++ String.ofList (Text.decimal m.member)
  a := build.endOf m.spec.a
  b := build.endOf m.spec.b

def load (build : Generated) (core : List CoreSpec) (pops : List String) : Lab :=
  Lab.load ((members core).map build.link) (pops.insertionSort (· ≤ ·))

section Numbers

def CoreSpec.Joins (spec : CoreSpec) (a b : String) : Prop :=
  (spec.a.id = a ∧ spec.b.id = b) ∨ (spec.a.id = b ∧ spec.b.id = a)

instance (spec : CoreSpec) (a b : String) : Decidable (spec.Joins a b) :=
  inferInstanceAs (Decidable (_ ∨ _))

theorem CoreSpec.joins_self (spec : CoreSpec) : spec.Joins spec.a.id spec.b.id :=
  Or.inl ⟨rfl, rfl⟩

theorem sortedPair_comm (a b : String) : sortedPair a b = sortedPair b a := by
  unfold sortedPair
  rcases lt_trichotomy a b with h | rfl | h
  · rw [if_neg h.asymm, if_pos h]
  · rfl
  · rw [if_pos h, if_neg h.asymm]

theorem sortedPair_eq_iff (spec : CoreSpec) (a b : String) :
    sortedPair spec.a.id spec.b.id = sortedPair a b ↔ spec.Joins a b := by
  constructor
  · intro h
    unfold sortedPair at h
    unfold CoreSpec.Joins
    split_ifs at h <;> rw [Prod.mk.injEq] at h
    · exact Or.inl ⟨h.2, h.1⟩
    · exact Or.inr ⟨h.2, h.1⟩
    · exact Or.inr h
    · exact Or.inl h
  · rintro (⟨ha, hb⟩ | ⟨ha, hb⟩)
    · rw [ha, hb]
    · rw [ha, hb, sortedPair_comm]

def between (core : List CoreSpec) (a b : String) : List CoreSpec :=
  core.filter fun spec => spec.Joins a b

theorem between_concat (core : List CoreSpec) (spec : CoreSpec) (a b : String) :
    between (core ++ [spec]) a b =
      between core a b ++ if spec.Joins a b then [spec] else [] := by
  unfold between
  rw [List.filter_append, List.filter_singleton]
  by_cases h : spec.Joins a b
  · simp [h]
  · simp [h]

theorem between_congr (core : List CoreSpec) {spec : CoreSpec} {a b : String}
    (h : spec.Joins a b) : between core a b = between core spec.a.id spec.b.id := by
  refine List.filter_congr fun other _ => ?_
  rw [decide_eq_decide, ← sortedPair_eq_iff, ← sortedPair_eq_iff, (sortedPair_eq_iff _ _ _).mpr h]

theorem getD_seen (core : List CoreSpec) (a b : String) :
    (core.foldl numberRound (∅, [])).1.getD (sortedPair a b) 0 = (between core a b).length := by
  induction core using List.reverseRecOn with
  | nil => rfl
  | append_singleton core spec ih =>
    rw [List.foldl_append, List.foldl_cons, List.foldl_nil, between_concat, List.length_append,
      numberRound, getD_insert]
    by_cases h : spec.Joins a b
    · rw [if_pos ((sortedPair_eq_iff spec a b).mpr h).symm, (sortedPair_eq_iff spec a b).mpr h,
        ih, if_pos h]
      rfl
    · rw [if_neg (fun heq => h ((sortedPair_eq_iff spec a b).mp heq.symm)), ih, if_neg h]
      rfl

theorem members_concat (core : List CoreSpec) (spec : CoreSpec) :
    members (core ++ [spec]) =
      members core ++ [⟨spec, (between core spec.a.id spec.b.id).length + 1⟩] := by
  unfold members
  rw [List.foldl_append, List.foldl_cons, List.foldl_nil, ← getD_seen, numberRound,
    getD_insert, if_pos rfl]

theorem map_spec_members (core : List CoreSpec) : (members core).map Member.spec = core := by
  induction core using List.reverseRecOn with
  | nil => rfl
  | append_singleton core spec ih => rw [members_concat, List.map_append, ih, List.map_singleton]

theorem mem_members_iff (core : List CoreSpec) {a b : String} {m : Member}
    (hm : m.spec.Joins a b) :
    m ∈ members core ↔ 1 ≤ m.member ∧ (between core a b)[m.member - 1]? = some m.spec := by
  induction core using List.reverseRecOn with
  | nil => simp [members, between]
  | append_singleton core spec ih =>
    rw [members_concat, List.mem_append, ih, List.mem_singleton, between_concat]
    by_cases h : spec.Joins a b
    · rw [if_pos h, Run.getElem?_concat_eq_some_iff, between_congr core h]
      obtain ⟨mspec, member⟩ := m
      simp only [Member.mk.injEq]
      constructor
      · rintro (⟨hpos, hold⟩ | ⟨rfl, rfl⟩)
        · exact ⟨hpos, Or.inl hold⟩
        · exact ⟨Nat.le_add_left 1 _, Or.inr ⟨Nat.add_sub_cancel _ 1, rfl⟩⟩
      · rintro ⟨hpos, hold | ⟨hlast, rfl⟩⟩
        · exact Or.inl ⟨hpos, hold⟩
        · exact Or.inr ⟨rfl, by omega⟩
    · rw [if_neg h, List.append_nil]
      refine or_iff_left ?_
      rintro rfl
      exact h hm

end Numbers

section Loaded

variable {build : Generated} {core : List CoreSpec} {pops : List String}

def reference (a b : String) (k : ℕ) : String :=
  a ++ "-" ++ b ++ "#" ++ String.ofList (Text.decimal k)

def CoreSpec.ReadFrom (spec : CoreSpec) (a b : String) : Prop :=
  spec.Joins (String.ofList (partition '-' (a ++ "-" ++ b).toList).1)
    (String.ofList (partition '-' (a ++ "-" ++ b).toList).2)

/-- The lab has one link for every core link, and every reference to the `k`-th link between two
PoPs finds that link and no other. -/
structure SeesEveryLink (build : Generated) (core : List CoreSpec) (pops : List String) : Prop where
  every : (load build core pops).all.Perm ((members core).map build.link)
  find : ∀ a ∈ pops, ∀ b ∈ pops, ∀ k, 1 ≤ k →
    (load build core pops).find (reference a b k) =
      ((between core a b)[k - 1]?.map fun spec => build.link ⟨spec, k⟩).toList

/-- What the ids of the PoPs must be like: the ids of two links of one number, written one after
the other, are the same text only between the same PoPs; there is no `#` in them, and a `-` does
not make a reference read as one to other PoPs; and they end in nothing that makes the number of a
link look like another number. -/
structure Discernible (core : List CoreSpec) (pops : List String) : Prop where
  apart : ∀ x ∈ members core, ∀ y ∈ members core, x.member = y.member →
    x.spec.a.id ++ x.spec.b.id = y.spec.a.id ++ y.spec.b.id →
      y.spec.Joins x.spec.a.id x.spec.b.id
  hash : ∀ spec ∈ core, '#' ∉ spec.a.id.toList ∧ '#' ∉ spec.b.id.toList
  dash : ∀ a ∈ pops, ∀ b ∈ pops, '#' ∉ a.toList → '#' ∉ b.toList →
    ∀ spec ∈ core, spec.Joins a b ↔ spec.ReadFrom a b
  number : ∀ x ∈ members core, ∀ k : ℕ, 1 ≤ k →
    Text.decimal k <:+ (x.spec.a.id ++ x.spec.b.id).toList ++ Text.decimal x.member →
      k = x.member

instance (spec : CoreSpec) (a b : String) : Decidable (spec.ReadFrom a b) :=
  inferInstanceAs (Decidable (spec.Joins _ _))

theorem mem_core_of_mem_between {spec : CoreSpec} {a b : String} (h : spec ∈ between core a b) :
    spec ∈ core ∧ spec.Joins a b := by
  rw [between, List.mem_filter, decide_eq_true_eq] at h
  exact h

theorem members_nodup (core : List CoreSpec) : (members core).Nodup := by
  induction core using List.reverseRecOn with
  | nil => exact List.nodup_nil
  | append_singleton core spec ih =>
    rw [members_concat, List.nodup_append]
    refine ⟨ih, List.nodup_singleton _, ?_⟩
    rintro m hm _ hnew rfl
    rw [List.mem_singleton.mp hnew] at hm
    have hplace := ((mem_members_iff core spec.joins_self).mp hm).2
    rw [Nat.add_sub_cancel, List.getElem?_eq_none (Nat.le_refl _)] at hplace
    cases hplace

theorem exists_member {spec : CoreSpec} (h : spec ∈ core) :
    ∃ m ∈ members core, m.spec = spec := by
  rw [← map_spec_members core, List.mem_map] at h
  exact h

theorem mem_core {m : Member} (h : m ∈ members core) : m.spec ∈ core := by
  rw [← map_spec_members core]
  exact List.mem_map_of_mem h

theorem one_le_member {m : Member} (h : m ∈ members core) : 1 ≤ m.member :=
  ((mem_members_iff core m.spec.joins_self).mp h).1

section Labs

theorem map_id_all_nodup (lab : Lab) : (lab.all.map Link.id).Nodup := by
  have hkeys : lab.all.map Link.id = (lab.links.range .listed).map Prod.fst := by
    unfold Lab.all
    rw [List.map_map]
    refine List.map_congr_left ?_
    rintro ⟨id, link⟩ h
    exact lab.links_id id link ((mem_range _ _ _ _).mp h)
  rw [hkeys]
  exact range_keys_nodup _ _

theorem all_load_perm_iff (links : List Link) (pops : List String) :
    (Lab.load links pops).all.Perm links ↔ (links.map Link.id).Nodup := by
  constructor
  · intro h
    exact (h.map Link.id).nodup_iff.mp (map_id_all_nodup _)
  · intro h
    refine (List.perm_ext_iff_of_nodup (map_id_all_nodup _).of_map h.of_map).mpr fun link => ?_
    rw [Lab.mem_all]
    change (GoMap.collect Link.id links).lookup link.id = some link ↔ _
    rw [lookup_collect_iff_of_nodup h]
    exact and_iff_left rfl

theorem partition_append {sep : Char} {a b : List Char} (h : sep ∉ a) :
    partition sep (a ++ sep :: b) = (a, b) := by
  have hne : ∀ c ∈ a, decide (c ≠ sep) = true := fun c hc =>
    decide_eq_true fun heq => h (heq ▸ hc)
  unfold partition
  rw [List.takeWhile_append_of_pos hne, List.dropWhile_append_of_pos hne]
  simp

theorem mem_partition {sep c : Char} {text : List Char}
    (h : c ∈ (partition sep text).1 ∨ c ∈ (partition sep text).2) : c ∈ text := by
  rcases h with h | h
  · exact (List.takeWhile_sublist _).subset h
  · exact (List.dropWhile_sublist _).subset (List.mem_of_mem_drop h)

end Labs

section References

theorem toList_reference (a b : String) (k : ℕ) :
    (reference a b k).toList = (a ++ "-" ++ b).toList ++ '#' :: Text.decimal k := by
  have hhash : "#".toList = ['#'] := by decide
  rw [reference, String.toList_append, String.toList_append, hhash, String.toList_ofList,
    List.append_assoc, List.singleton_append]

theorem toList_link_id (build : Generated) (m : Member) :
    (build.link m).id.toList =
      (m.spec.a.id ++ m.spec.b.id).toList ++ Text.decimal m.member := by
  change (m.spec.a.id ++ m.spec.b.id ++ String.ofList (Text.decimal m.member)).toList = _
  rw [String.toList_append, String.toList_ofList]

theorem toList_eq_iff (s : String) (l : List Char) : s.toList = l ↔ s = String.ofList l :=
  ⟨fun h => by rw [← h, String.ofList_toList], fun h => by rw [h, String.toList_ofList]⟩

theorem mem_find_iff {lab : Lab} {a b : String} (h : '#' ∉ (a ++ "-" ++ b).toList) (k : ℕ)
    (m : Member) :
    build.link m ∈ lab.find (reference a b k) ↔
      build.link m ∈ lab.all ∧ m.spec.ReadFrom a b ∧
        Text.decimal k <:+ (m.spec.a.id ++ m.spec.b.id).toList ++ Text.decimal m.member := by
  unfold Lab.find
  rw [toList_reference, partition_append h]
  dsimp only
  rw [if_neg (Text.decimal_natCast_ne_nil k), List.mem_filter, List.mem_filter, decide_eq_true_eq,
    List.isSuffixOf_iff_suffix, toList_link_id, and_assoc]
  simp only [toList_eq_iff]
  rfl

theorem find_of_hash {lab : Lab} (hlab : ∀ link ∈ lab.all, ∃ m, build.link m = link) {a b : String}
    (h : '#' ∈ (a ++ "-" ++ b).toList) (k : ℕ) : lab.find (reference a b k) = [] := by
  obtain ⟨p, q, hpq, hp⟩ := List.eq_append_cons_of_mem h
  have hsplit : partition '#' (reference a b k).toList = (p, q ++ '#' :: Text.decimal k) := by
    rw [toList_reference, hpq, List.append_assoc, List.cons_append, partition_append hp]
  refine List.eq_nil_iff_forall_not_mem.mpr fun link hlink => ?_
  unfold Lab.find at hlink
  rw [hsplit] at hlink
  dsimp only at hlink
  rw [if_neg (by simp), List.mem_filter, List.mem_filter, decide_eq_true_eq,
    List.isSuffixOf_iff_suffix] at hlink
  obtain ⟨⟨hall, hpops⟩, hsuffix⟩ := hlink
  obtain ⟨m, rfl⟩ := hlab link hall
  have hid : '#' ∈ (build.link m).id.toList := hsuffix.subset (by simp)
  have hparts : '#' ∉ (partition '-' p).1 ∧ '#' ∉ (partition '-' p).2 :=
    ⟨fun hmem => hp (mem_partition (Or.inl hmem)), fun hmem => hp (mem_partition (Or.inr hmem))⟩
  rw [toList_link_id, String.toList_append, List.mem_append, List.mem_append] at hid
  change (m.spec.a.id.toList = _ ∧ m.spec.b.id.toList = _) ∨
    (m.spec.a.id.toList = _ ∧ m.spec.b.id.toList = _) at hpops
  rcases hid with (hid | hid) | hid
  · rcases hpops with ⟨ha, -⟩ | ⟨ha, -⟩
    · exact hparts.1 (ha ▸ hid)
    · exact hparts.2 (ha ▸ hid)
  · rcases hpops with ⟨-, hb⟩ | ⟨-, hb⟩
    · exact hparts.2 (hb ▸ hid)
    · exact hparts.1 (hb ▸ hid)
  · exact Text.notMem_decimal (by decide) _ hid

theorem hash_mem_pair_iff (a b : String) :
    '#' ∈ (a ++ "-" ++ b).toList ↔ '#' ∈ a.toList ∨ '#' ∈ b.toList := by
  have hdash : '#' ∉ "-".toList := by decide
  rw [String.toList_append, String.toList_append, List.mem_append, List.mem_append,
    or_iff_left hdash]

end References

section Sees

theorem of_link_eq {x y : Member} (h : build.link x = build.link y) :
    x.spec.a.id = y.spec.a.id ∧ x.spec.b.id = y.spec.b.id ∧ x.member = y.member := by
  have ha : x.spec.a.id = y.spec.a.id := congrArg (fun link => link.a.pop) h
  have hb : x.spec.b.id = y.spec.b.id := congrArg (fun link => link.b.pop) h
  have hid := congrArg (fun link => link.id.toList) h
  rw [toList_link_id, toList_link_id, ha, hb, List.append_cancel_left_eq] at hid
  exact ⟨ha, hb, Int.ofNat_inj.mp (Text.decimal_injective hid)⟩

theorem exists_member_of_mem_all {link : Link} (h : link ∈ (load build core pops).all) :
    ∃ m ∈ members core, build.link m = link := by
  rw [Lab.mem_all] at h
  exact List.mem_map.mp (of_lookup_collect h).1

theorem find_nodup (lab : Lab) (ref : String) : (lab.find ref).Nodup := by
  have hall : lab.all.Nodup := (map_id_all_nodup lab).of_map
  simp only [Lab.find]
  split_ifs
  · exact hall.filter _
  · exact (hall.filter _).filter _

theorem eq_toList_of_mem_iff {α : Type*} {l : List α} {o : Option α} (hl : l.Nodup)
    (h : ∀ x, x ∈ l ↔ o = some x) : l = o.toList := by
  cases o with
  | none => exact List.eq_nil_iff_forall_not_mem.mpr fun x hx => by cases (h x).mp hx
  | some v =>
    refine List.perm_singleton.mp
      ((List.perm_ext_iff_of_nodup hl (List.nodup_singleton v)).mpr fun x => ?_)
    rw [h, List.mem_singleton, Option.some.injEq, eq_comm]

theorem Discernible.ids_nodup (h : Discernible core pops) :
    (((members core).map build.link).map Link.id).Nodup := by
  rw [List.map_map]
  refine List.Nodup.map_on ?_ (members_nodup core)
  intro x hx y hy hid
  have htext : (x.spec.a.id ++ x.spec.b.id).toList ++ Text.decimal x.member =
      (y.spec.a.id ++ y.spec.b.id).toList ++ Text.decimal y.member := by
    rw [← toList_link_id build, ← toList_link_id build]
    exact congrArg String.toList hid
  have hmember : x.member = y.member :=
    (h.number x hx y.member (one_le_member hy) (htext ▸ List.suffix_append _ _)).symm
  rw [hmember, List.append_cancel_right_eq, String.toList_inj] at htext
  -- Both have the one place among the links between the two PoPs.
  have hyplace := ((mem_members_iff core (h.apart x hx y hy hmember htext)).mp hy).2
  have hxplace := ((mem_members_iff core x.spec.joins_self).mp hx).2
  rw [hmember, hyplace, Option.some.injEq] at hxplace
  obtain ⟨spec, member⟩ := x
  obtain ⟨spec', member'⟩ := y
  exact congrArg₂ Member.mk hxplace.symm hmember

theorem Discernible.sees (h : Discernible core pops) : SeesEveryLink build core pops := by
  have hevery : (load build core pops).all.Perm ((members core).map build.link) :=
    (all_load_perm_iff _ _).mpr h.ids_nodup
  refine ⟨hevery, fun a ha b hb k hk => ?_⟩
  by_cases hhash : '#' ∈ (a ++ "-" ++ b).toList
  · have hnone : between core a b = [] := by
      refine List.eq_nil_iff_forall_not_mem.mpr fun spec hspec => ?_
      obtain ⟨hcore, hjoins⟩ := mem_core_of_mem_between hspec
      obtain ⟨hna, hnb⟩ := h.hash spec hcore
      rw [hash_mem_pair_iff] at hhash
      rcases hjoins with ⟨rfl, rfl⟩ | ⟨rfl, rfl⟩
      · exact hhash.elim hna hnb
      · exact hhash.elim hnb hna
    rw [hnone, find_of_hash (fun link hlink => (exists_member_of_mem_all hlink).imp
      fun _ hm => hm.2) hhash]
    rfl
  · have hab : '#' ∉ a.toList ∧ '#' ∉ b.toList := by
      rwa [hash_mem_pair_iff, not_or] at hhash
    refine eq_toList_of_mem_iff (find_nodup _ _) fun link => ?_
    rw [Option.map_eq_some_iff]
    constructor
    · intro hlink
      obtain ⟨m, hm, rfl⟩ := exists_member_of_mem_all (Lab.mem_all_of_mem_find hlink)
      obtain ⟨-, hread, hsuffix⟩ := (mem_find_iff hhash k m).mp hlink
      have hjoins := (h.dash a ha b hb hab.1 hab.2 m.spec (mem_core hm)).mpr hread
      obtain rfl := h.number m hm k hk hsuffix
      exact ⟨m.spec, ((mem_members_iff core hjoins).mp hm).2, rfl⟩
    · rintro ⟨spec, hplace, rfl⟩
      obtain ⟨hcore, hjoins⟩ := mem_core_of_mem_between (List.mem_of_getElem? hplace)
      have hm : (⟨spec, k⟩ : Member) ∈ members core :=
        (mem_members_iff core hjoins).mpr ⟨hk, hplace⟩
      exact (mem_find_iff hhash k ⟨spec, k⟩).mpr
        ⟨hevery.mem_iff.mpr (List.mem_map_of_mem hm),
          (h.dash a ha b hb hab.1 hab.2 spec hcore).mp hjoins, List.suffix_append _ _⟩

namespace SeesEveryLink

variable (h : SeesEveryLink build core pops) {a b : String} (ha : a ∈ pops) (hb : b ∈ pops)
include h

theorem mem_all {m : Member} (hm : m ∈ members core) :
    build.link m ∈ (load build core pops).all :=
  h.every.mem_iff.mpr (List.mem_map_of_mem hm)

include ha hb

theorem mem_find {m : Member} (hm : m ∈ members core) (hjoins : m.spec.Joins a b) :
    build.link m ∈ (load build core pops).find (reference a b m.member) := by
  obtain ⟨hpos, hplace⟩ := (mem_members_iff core hjoins).mp hm
  rw [h.find a ha b hb m.member hpos, hplace]
  exact List.mem_singleton_self _

theorem of_mem_find {k : ℕ} (hk : 1 ≤ k) {m : Member}
    (hm : build.link m ∈ (load build core pops).find (reference a b k)) :
    m.spec.Joins a b ∧ k = m.member := by
  rw [h.find a ha b hb k hk, Option.mem_toList, Option.map_eq_some_iff] at hm
  obtain ⟨spec, hplace, hlink⟩ := hm
  obtain ⟨hida, hidb, hmember⟩ := of_link_eq hlink
  have hjoins := (mem_core_of_mem_between (List.mem_of_getElem? hplace)).2
  unfold CoreSpec.Joins at hjoins ⊢
  rw [← hida, ← hidb]
  exact ⟨hjoins, hmember⟩

end SeesEveryLink

theorem SeesEveryLink.discernible (h : SeesEveryLink build core pops)
    (hpops : ∀ spec ∈ core, spec.a.id ∈ pops ∧ spec.b.id ∈ pops) : Discernible core pops := by
  have hhash : ∀ spec ∈ core, '#' ∉ spec.a.id.toList ∧ '#' ∉ spec.b.id.toList := by
    intro spec hspec
    obtain ⟨m, hm, rfl⟩ := exists_member hspec
    have hfound := h.mem_find (hpops _ hspec).1 (hpops _ hspec).2 hm m.spec.joins_self
    rw [← not_or, ← hash_mem_pair_iff]
    intro hmem
    rw [find_of_hash (fun link hlink => (exists_member_of_mem_all hlink).imp
      fun _ hm => hm.2) hmem] at hfound
    exact absurd hfound List.not_mem_nil
  have hdash : ∀ a ∈ pops, ∀ b ∈ pops, '#' ∉ a.toList → '#' ∉ b.toList →
      ∀ spec ∈ core, spec.Joins a b ↔ spec.ReadFrom a b := by
    intro a ha b hb hna hnb spec hspec
    obtain ⟨m, hm, rfl⟩ := exists_member hspec
    have hpair : '#' ∉ (a ++ "-" ++ b).toList := fun hmem =>
      ((hash_mem_pair_iff a b).mp hmem).elim hna hnb
    constructor
    · intro hjoins
      exact ((mem_find_iff hpair _ m).mp (h.mem_find ha hb hm hjoins)).2.1
    · intro hread
      exact (h.of_mem_find ha hb (one_le_member hm)
        ((mem_find_iff hpair _ m).mpr ⟨h.mem_all hm, hread, List.suffix_append _ _⟩)).1
  refine ⟨?_, hhash, hdash, ?_⟩
  · intro x hx y hy hmember hids
    have hid : (build.link x).id = (build.link y).id := by
      rw [← String.toList_inj, toList_link_id, toList_link_id, hids, hmember]
    have hlink := List.inj_on_of_nodup_map ((all_load_perm_iff _ _).mp h.every)
      (List.mem_map_of_mem hx) (List.mem_map_of_mem hy) hid
    obtain ⟨hida, hidb, -⟩ := of_link_eq hlink
    exact Or.inl ⟨hida.symm, hidb.symm⟩
  · intro x hx k hk hsuffix
    have hspec := mem_core hx
    obtain ⟨ha, hb⟩ := hpops _ hspec
    obtain ⟨hna, hnb⟩ := hhash _ hspec
    have hread := (hdash _ ha _ hb hna hnb _ hspec).mp x.spec.joins_self
    have hpair : '#' ∉ (x.spec.a.id ++ "-" ++ x.spec.b.id).toList := fun hmem =>
      ((hash_mem_pair_iff _ _).mp hmem).elim hna hnb
    exact (h.of_mem_find ha hb hk
      ((mem_find_iff hpair k x).mpr ⟨h.mem_all hx, hread, hsuffix⟩)).2

/-- The simulator sees every core link, and a reference finds the link it is meant for, exactly
when the ids of the PoPs are discernible. -/
theorem seesEveryLink_iff (build : Generated) (core : List CoreSpec) (pops : List String)
    (hpops : ∀ spec ∈ core, spec.a.id ∈ pops ∧ spec.b.id ∈ pops) :
    SeesEveryLink build core pops ↔ Discernible core pops :=
  ⟨fun h => h.discernible hpops, fun h => h.sees⟩

def doubled : List CoreSpec :=
  [⟨⟨"A", "a", "eth1"⟩, ⟨"B", "b", "eth1"⟩⟩, ⟨⟨"A", "a", "eth2"⟩, ⟨"B", "b", "eth2"⟩⟩]

theorem members_doubled : members doubled =
    [⟨⟨⟨"A", "a", "eth1"⟩, ⟨"B", "b", "eth1"⟩⟩, 1⟩,
      ⟨⟨⟨"A", "a", "eth2"⟩, ⟨"B", "b", "eth2"⟩⟩, 2⟩] := by
  decide +kernel

theorem eq_of_decimal_suffix {k d : ℕ} (hd : d < 10) {text : List Char} {c : Char}
    (hc : ∀ d < 10, c ≠ Nat.digitChar d)
    (h : Text.decimal k <:+ text ++ [c] ++ Text.decimal d) : k = d := by
  rw [Text.decimal_natCast d, Nat.toDigits_of_lt_base hd, List.suffix_concat_iff,
    or_iff_right (Text.decimal_natCast_ne_nil k)] at h
  obtain ⟨init, hk, hinit⟩ := h
  rcases List.suffix_concat_iff.mp hinit with rfl | ⟨front, rfl, -⟩
  · rw [List.nil_append, ← Nat.toDigits_of_lt_base hd, ← Text.decimal_natCast] at hk
    exact Int.ofNat_inj.mp (Text.decimal_injective hk)
  · exact absurd (hk ▸ by simp) (Text.notMem_decimal hc k)

theorem seesEveryLink_doubled : SeesEveryLink ⟨"maeto", ∅⟩ doubled ["A", "B"] := by
  refine (seesEveryLink_iff _ _ _ (by decide +kernel)).mpr
    ⟨by decide +kernel, by decide +kernel, by decide +kernel, ?_⟩
  intro x hx k _ h
  rw [members_doubled] at hx
  simp only [List.mem_cons, List.not_mem_nil, or_false] at hx
  rcases hx with rfl | rfl
  · exact @eq_of_decimal_suffix k 1 (by decide) ['A'] 'B' (by decide) h
  · exact @eq_of_decimal_suffix k 2 (by decide) ['A'] 'B' (by decide) h

def alike : List CoreSpec :=
  [⟨⟨"A", "a", "eth1"⟩, ⟨"BC", "bc", "eth1"⟩⟩, ⟨⟨"AB", "ab", "eth1"⟩, ⟨"C", "c", "eth1"⟩⟩]

theorem alike_not_seen :
    (load ⟨"maeto", ∅⟩ alike ["A", "AB", "BC", "C"]).all.map Link.id = ["ABC1"] ∧
      ¬SeesEveryLink ⟨"maeto", ∅⟩ alike ["A", "AB", "BC", "C"] := by
  refine ⟨by decide +kernel, fun h => ?_⟩
  have hlength := h.every.length_eq
  revert hlength
  decide +kernel

end Sees

end Loaded

end Maeto.Simulator
