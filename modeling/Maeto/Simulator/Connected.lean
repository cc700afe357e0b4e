import Maeto.Foundation.Explore
import Maeto.Simulator.Lab

/-!
# When the PoPs of a lab hang together

`connected` searches the links that stay up from the first PoP and compares the number
of PoPs it reaches with all of them. When it answers yes, every PoP has a path to every
other (`Joined`, `joined_of_connected`); when the lab names each PoP once and no others,
its answer is that (`connected_eq_some_true_iff`).
-/

namespace Maeto.Simulator

open Foundation

namespace Lab

def up (lab : Lab) (down : List String) : List Link :=
  lab.all.filter fun link => link.id ∉ down

def neighbours (lab : Lab) (down : List String) (pop : String) : List String :=
  (lab.up down).flatMap fun link =>
    (if link.a.pop = pop then [link.b.pop] else []) ++
      (if link.b.pop = pop then [link.a.pop] else [])

end Lab

def connected (lab : Lab) (down : List String) : Option Bool :=
  if (lab.up down).all fun link => link.a.pop ∈ lab.pops ∧ link.b.pop ∈ lab.pops then
    lab.pops.head?.map fun start =>
      let reached := Explore.explore (lab.neighbours down) lab.pops.length [start] [start]
      reached.length = lab.pops.length
  else none

namespace Lab

variable {lab : Lab} {down : List String}

theorem mem_neighbours {pop peer : String} :
    peer ∈ lab.neighbours down pop ↔ ∃ link ∈ lab.all, link.id ∉ down ∧
      ((link.a.pop = pop ∧ link.b.pop = peer) ∨ (link.b.pop = pop ∧ link.a.pop = peer)) := by
  simp only [neighbours, up, List.mem_flatMap, List.mem_filter, decide_eq_true_eq, and_assoc,
    List.mem_append]
  refine exists_congr fun link => and_congr_right fun _ => and_congr_right fun _ => ?_
  by_cases ha : link.a.pop = pop <;> by_cases hb : link.b.pop = pop <;> simp [ha, hb, eq_comm]

/-- Every PoP has a path to every other over the links that are up. -/
def Joined (lab : Lab) (down : List String) : Prop :=
  ∀ pop ∈ lab.pops, ∀ peer ∈ lab.pops,
    Relation.ReflTransGen (fun a b => b ∈ lab.neighbours down a) pop peer

theorem Joined.of_subset {down' : List String} (h : lab.Joined down) (hsub : down' ⊆ down) :
    lab.Joined down' := by
  intro pop hpop peer hpeer
  refine Relation.ReflTransGen.mono ?_ _ _ (h pop hpop peer hpeer)
  intro a b hab
  obtain ⟨link, hlink, hup, hends⟩ := mem_neighbours.mp hab
  exact mem_neighbours.mpr ⟨link, hlink, fun hdown => hup (hsub hdown), hends⟩

theorem neighbours_symm {a b : String} (h : b ∈ lab.neighbours down a) :
    a ∈ lab.neighbours down b := by
  obtain ⟨link, hlink, hup, hends⟩ := mem_neighbours.mp h
  exact mem_neighbours.mpr ⟨link, hlink, hup, hends.symm.imp And.symm And.symm⟩

variable {start : String}

theorem joined_of_paths
    (h : ∀ pop ∈ lab.pops, Relation.ReflTransGen (fun a b => b ∈ lab.neighbours down a) start pop) :
    lab.Joined down := by
  intro pop hpop peer hpeer
  have hsymm : Std.Symm (fun a b => b ∈ lab.neighbours down a) := ⟨fun _ _ => neighbours_symm⟩
  exact (Relation.ReflTransGen.stdSymm.symm _ _ (h pop hpop)).trans (h peer hpeer)

theorem neighbours_mem_pops
    (hends : (lab.up down).all fun link => link.a.pop ∈ lab.pops ∧ link.b.pop ∈ lab.pops) :
    ∀ a ∈ lab.pops.toFinset, ∀ b ∈ lab.neighbours down a, b ∈ lab.pops.toFinset := by
  intro a _ b hb
  obtain ⟨link, hlink, hup, hpops⟩ := mem_neighbours.mp hb
  have hlinkUp : link ∈ lab.up down := List.mem_filter.mpr ⟨hlink, decide_eq_true hup⟩
  have hin := of_decide_eq_true (List.all_eq_true.mp hends link hlinkUp)
  rw [List.mem_toFinset]
  rcases hpops with ⟨-, rfl⟩ | ⟨-, rfl⟩
  · exact hin.2
  · exact hin.1

theorem mem_explore_iff (hstart : start ∈ lab.pops)
    (hends : (lab.up down).all fun link => link.a.pop ∈ lab.pops ∧ link.b.pop ∈ lab.pops)
    (pop : String) :
    pop ∈ Explore.explore (lab.neighbours down) lab.pops.length [start] [start] ↔
      Relation.ReflTransGen (fun a b => b ∈ lab.neighbours down a) start pop :=
  Explore.mem_explore_iff (List.mem_toFinset.mpr hstart) (neighbours_mem_pops hends)
    lab.pops.toFinset_card_le pop

theorem mem_pops_of_path {pop : String} (hstart : start ∈ lab.pops)
    (hends : (lab.up down).all fun link => link.a.pop ∈ lab.pops ∧ link.b.pop ∈ lab.pops)
    (h : Relation.ReflTransGen (fun a b => b ∈ lab.neighbours down a) start pop) :
    pop ∈ lab.pops := by
  induction h with
  | refl => exact hstart
  | tail _ hstep ih =>
    exact List.mem_toFinset.mp
      (neighbours_mem_pops hends _ (List.mem_toFinset.mpr ih) _ hstep)

theorem connected_eq_some_iff {answer : Bool} : connected lab down = some answer ↔
    ((lab.up down).all fun link => link.a.pop ∈ lab.pops ∧ link.b.pop ∈ lab.pops) = true ∧
      ∃ start ∈ lab.pops.head?, answer = decide
        ((Explore.explore (lab.neighbours down) lab.pops.length [start] [start]).length =
          lab.pops.length) := by
  unfold connected
  split_ifs with h
  · simp only [h, true_and, Option.map_eq_some_iff, Option.mem_def, eq_comm (a := answer)]
  · exact iff_of_false (by simp) fun hends => h hends.1

theorem joined_of_connected (h : connected lab down = some true) : lab.Joined down := by
  obtain ⟨hends, start, hhead, hcount⟩ := connected_eq_some_iff.mp h
  have hstart : start ∈ lab.pops := List.mem_of_mem_head? hhead
  have hmem := mem_explore_iff hstart hends
  -- as many PoPs are reached as there are, and none twice: all are reached
  have hall : (Explore.explore (lab.neighbours down) lab.pops.length [start] [start]).toFinset =
      lab.pops.toFinset := by
    refine Finset.eq_of_subset_of_card_le ?_ ?_
    · intro pop hpop
      rw [List.mem_toFinset] at hpop ⊢
      exact mem_pops_of_path hstart hends ((hmem pop).mp hpop)
    · rw [List.toFinset_card_of_nodup (Explore.nodup_explore _ _ _),
        of_decide_eq_true hcount.symm]
      exact lab.pops.toFinset_card_le
  refine joined_of_paths fun pop hpop => (hmem pop).mp ?_
  rw [← List.mem_toFinset, hall, List.mem_toFinset]
  exact hpop

/-- The PoPs are named once each, there is one, and the links end at them. -/
structure WellFormed (lab : Lab) : Prop where
  nonempty : lab.pops ≠ []
  nodup : lab.pops.Nodup
  ends : ∀ link ∈ lab.all, link.a.pop ∈ lab.pops ∧ link.b.pop ∈ lab.pops

/-- On a well-formed lab the check answers, and it answers yes exactly when the PoPs
hang together. -/
theorem connected_eq_some_true_iff (hlab : lab.WellFormed) :
    connected lab down = some true ↔ lab.Joined down := by
  refine ⟨joined_of_connected, fun hjoined => connected_eq_some_iff.mpr ?_⟩
  have hends : ((lab.up down).all fun link => link.a.pop ∈ lab.pops ∧ link.b.pop ∈ lab.pops) := by
    refine List.all_eq_true.mpr fun link hlink => decide_eq_true ?_
    exact hlab.ends link (List.mem_of_mem_filter hlink)
  refine ⟨hends, lab.pops.head hlab.nonempty, List.head?_eq_some_head hlab.nonempty, ?_⟩
  have hstart := List.head_mem hlab.nonempty
  have hmem := mem_explore_iff hstart hends
  refine (decide_eq_true ?_).symm
  have hperm : (Explore.explore (lab.neighbours down) lab.pops.length [lab.pops.head hlab.nonempty]
      [lab.pops.head hlab.nonempty]).Perm lab.pops := by
    refine (List.perm_ext_iff_of_nodup (Explore.nodup_explore _ _ _) hlab.nodup).mpr fun pop => ?_
    rw [hmem]
    exact ⟨mem_pops_of_path hstart hends, hjoined _ hstart pop⟩
  exact hperm.length_eq

end Lab

end Maeto.Simulator
