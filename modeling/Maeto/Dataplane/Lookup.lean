import Maeto.Dataplane.Steering

/-!
# Looking up packets

What the objects of a kernel are for. A packet that comes in over a VRF is looked up in the tables
of the rules of ours that take it, one after the other, and then in the table of the VRF. In a
table the longest prefix takes it, and the least metric among those. A table without a route for
the packet is passed over, so that a packet that no table takes leaves the VRF.

A packet to a SID of ours in the main table is taken out and goes on in the table of the SID.
-/

namespace Maeto.Dataplane

open Foundation Netip

namespace Kernel

def tableRoute (k : Kernel) (table : UInt32) (dst : Addr) : Option KernelRoute :=
  (k.routes.filter fun r => r.table = table ∧ r.dst.contains dst).argmin fun r =>
    toLex (129 - r.dst.net.bits.getD 0, r.metric)

def rulesFor (k : Kernel) (pkt : Packet) : List KernelRule :=
  (k.rules.filter fun r => r.protocol = maetoRouteProto && r.matches pkt).insertionSort
    fun r r' => r.priority ≤ r'.priority

def vrfRoute (k : Kernel) (pkt : Packet) (dst : Addr) : Option KernelRoute :=
  ((k.rulesFor pkt).findSome? fun r => k.tableRoute r.table dst).or
    ((k.linkByName pkt.iif).bind fun l =>
      match l.2.kind with
      | .vrf table => k.tableRoute table dst
      | _ => none)

def decapTable (k : Kernel) (sid : Addr) : Option UInt32 :=
  (k.routes.find? fun r => r.table = rtTableMain ∧ r.protocol = maetoSIDProto ∧
      Linux.sidNet sid = some r.dst).bind fun r =>
    match r.action with
    | .seg6local .dt46 table => some table
    | _ => none

variable {k : Kernel} {pkt : Packet} {dst : Addr} {r : KernelRoute}

theorem of_tableRoute {table : UInt32} (h : k.tableRoute table dst = some r) :
    r ∈ k.routes ∧ r.table = table := by
  obtain ⟨hr, hmatch⟩ := List.mem_filter.mp (List.argmin_mem h)
  exact ⟨hr, (of_decide_eq_true hmatch).1⟩

theorem of_vrfRoute (h : k.vrfRoute pkt dst = some r) :
    r ∈ k.routes ∧
      ((∃ rule ∈ k.rules, rule.protocol = maetoRouteProto ∧ rule.matches pkt = true ∧
          r.table = rule.table) ∨
        ∃ i l, k.links.lookup i = some l ∧ l.name = pkt.iif ∧ l.kind = .vrf r.table) := by
  rw [vrfRoute, Option.or_eq_some_iff] at h
  rcases h with h | ⟨-, h⟩
  · obtain ⟨rule, hrule, hroute⟩ := List.exists_of_findSome?_eq_some h
    obtain ⟨hr, htable⟩ := of_tableRoute hroute
    rw [rulesFor, List.mem_insertionSort, List.mem_filter, Bool.and_eq_true,
      decide_eq_true_eq] at hrule
    exact ⟨hr, Or.inl ⟨rule, hrule.1, hrule.2.1, hrule.2.2, htable⟩⟩
  · obtain ⟨⟨i, l⟩, hlink, hroute⟩ := Option.bind_eq_some_iff.mp h
    obtain ⟨hl, hname⟩ := linkByName_eq_some hlink
    dsimp only at hroute
    cases hkind : l.kind with
    | vrf table =>
      rw [hkind] at hroute
      obtain ⟨hr, rfl⟩ := of_tableRoute hroute
      exact ⟨hr, Or.inr ⟨i, l, hl, hname, hkind⟩⟩
    | xfrm ifID =>
      rw [hkind] at hroute
      cases hroute
    | other goType =>
      rw [hkind] at hroute
      cases hroute

theorem of_decapTable {sid : Addr} {table : UInt32} (h : k.decapTable sid = some table) :
    ∃ r ∈ k.routes, r.protocol = maetoSIDProto ∧ Linux.sidNet sid = some r.dst ∧
      r.action = .seg6local .dt46 table := by
  obtain ⟨r, hfind, haction⟩ := Option.bind_eq_some_iff.mp h
  have hmatch := List.find?_some hfind
  obtain ⟨-, hproto, hnet⟩ := of_decide_eq_true hmatch
  refine ⟨r, List.mem_of_find?_eq_some hfind, hproto, hnet, ?_⟩
  split at haction
  · rename_i table' hr
    cases haction
    exact hr
  · cases haction

end Kernel

end Maeto.Dataplane
