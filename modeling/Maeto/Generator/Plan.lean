import Maeto.Generator.Parse

/-!
# The address plan of a topology

`buildPlan` gives every PoP its locator, every core link its subnet, and every PoP with
sites a slice of the edge prefix: the uplink of its transit router and one subnet for
each site behind it. It fails when an index does not fit in its prefix. Interface names
and the jitter of the delays are not part of the plan here.
-/

namespace Maeto.Generator

open Foundation Result

inductive NodeKind
  | pop | transit | cpe | host
  deriving DecidableEq

structure Endpoint where
  kind : NodeKind
  id : String
  node : String
  address : HostAddress
  deriving DecidableEq

inductive LinkKind
  | core | transit | cpe | lan
  deriving DecidableEq

structure PlannedLink where
  index : ℕ
  kind : LinkKind
  inst : ℕ
  subnet : Network
  a : Endpoint
  b : Endpoint
  deriving DecidableEq

structure AccessPlan where
  address : HostAddress
  aggregate : Network
  nexthop : HostAddress

structure PopPlan where
  pop : Pop
  locatorPrefix : Network
  loopback : HostAddress
  access : Option AccessPlan

structure Plan where
  pops : List PopPlan
  links : List PlannedLink

namespace Topology

def popById (topo : Topology) (id : String) : Option Pop := topo.pops.find? fun pop => pop.id = id

def attached (topo : Topology) (id : String) : List Cpe := topo.cpes.filter fun c => c.attach = id

end Topology

def planAccess (topo : Topology) (pop : Pop) : Except TopologyError (Option AccessPlan) :=
  if (topo.attached pop.id).isEmpty then .ok none
  else do
    let (_, near, far) ← edgeAddrs topo.defaults.edgePrefix (edgeSubnetIndex pop.index 0)
    let aggregate ← edgeAggregate topo.defaults.edgePrefix pop.index
    .ok (some { address := near, aggregate := aggregate, nexthop := far })

def planPop (topo : Topology) (pop : Pop) : Except TopologyError PopPlan := do
  let access ← planAccess topo pop
  let (locatorPrefix, loopback) ← locator topo.defaults.locatorPrefix pop.index
  .ok { pop := pop, locatorPrefix := locatorPrefix, loopback := loopback, access := access }

def planCore (topo : Topology) (link : CoreLink) : Except TopologyError PlannedLink := do
  let (subnet, near, far) ← linkAddrs topo.defaults.linkPrefix link.index
  match topo.popById link.a, topo.popById link.b with
  | some a, some b =>
    .ok { index := link.index, kind := .core, inst := link.inst, subnet := subnet,
          a := ⟨.pop, a.id, a.nodeName, near⟩, b := ⟨.pop, b.id, b.nodeName, far⟩ }
  | _, _ => fail "unknown pop"

def transitNodeName (pop : Pop) : String := "Transit" ++ pop.id

def hostNodeName (cpe : Cpe) : String := "Host" ++ String.ofList cpe.id.toList.tail

def planUplink (topo : Topology) (pop : Pop) : Except TopologyError PlannedLink := do
  let index := edgeSubnetIndex pop.index 0
  let (subnet, near, far) ← edgeAddrs topo.defaults.edgePrefix index
  .ok { index := index, kind := .transit, inst := 0, subnet := subnet,
        a := ⟨.pop, pop.id, pop.nodeName, near⟩,
        b := ⟨.transit, pop.id, transitNodeName pop, far⟩ }

def planCpe (topo : Topology) (pop : Pop) (cpe : Cpe × ℕ) : Except TopologyError PlannedLink := do
  let index := edgeSubnetIndex pop.index cpe.2
  let (subnet, near, far) ← edgeAddrs topo.defaults.edgePrefix index
  .ok { index := index, kind := .cpe, inst := cpe.2, subnet := subnet,
        a := ⟨.transit, pop.id, transitNodeName pop, near⟩,
        b := ⟨.cpe, cpe.1.id, cpe.1.nodeName, far⟩ }

def planLan (digest : String → ℕ) (pop : Pop) (cpe : Cpe × ℕ) :
    Except TopologyError PlannedLink := do
  let (subnet, near, far) ← lanAddrs digest cpe.1.sitePrefix cpe.1.id
  .ok { index := edgeSubnetIndex pop.index cpe.2, kind := .lan, inst := cpe.2, subnet := subnet,
        a := ⟨.cpe, cpe.1.id, cpe.1.nodeName, near⟩,
        b := ⟨.host, cpe.1.id, hostNodeName cpe.1, far⟩ }

def planEdges (topo : Topology) (pop : Pop) : Except TopologyError (List PlannedLink) :=
  if (topo.attached pop.id).isEmpty then .ok []
  else do
    let uplink ← planUplink topo pop
    let cpes ← ((topo.attached pop.id).zipIdx 1).mapM (planCpe topo pop)
    .ok (uplink :: cpes)

def planLans (digest : String → ℕ) (topo : Topology) (pop : Pop) :
    Except TopologyError (List PlannedLink) :=
  ((topo.attached pop.id).zipIdx 1).mapM (planLan digest pop)

def buildPlan (digest : String → ℕ) (topo : Topology) : Except TopologyError Plan := do
  let pops ← topo.pops.mapM (planPop topo)
  let core ← (topo.links.insertionSort fun l l' => l.index ≤ l'.index).mapM (planCore topo)
  let edges ← topo.pops.mapM (planEdges topo)
  let lans ← topo.pops.mapM (planLans digest topo)
  .ok { pops := pops, links := core ++ edges.flatten ++ lans.flatten }

theorem find?_id {pops : List Pop} (hids : (pops.map Pop.id).Nodup) {pop : Pop}
    (h : pop ∈ pops) : (pops.find? fun p => p.id = pop.id) = some pop := by
  cases hfind : pops.find? fun p => p.id = pop.id with
  | none => simpa using List.find?_eq_none.mp hfind pop h
  | some found =>
    have hid : found.id = pop.id := by simpa using List.find?_some hfind
    rw [List.inj_on_of_nodup_map hids (List.mem_of_find?_eq_some hfind) h hid]

/-! ### What the links of a plan are -/

section Kinds

variable {digest : String → ℕ} {topo : Topology} {planned : PlannedLink} {pop : Pop}

theorem planCore_eq_ok {link : CoreLink} (h : planCore topo link = .ok planned) :
    planned.kind = .core ∧
      nthSubnet topo.defaults.linkPrefix 64 link.index = .ok planned.subnet := by
  obtain ⟨⟨subnet, near, far⟩, hsubnet, h⟩ := bind_eq_ok.mp h
  obtain ⟨net, hnet, hsubnet⟩ := bind_eq_ok.mp hsubnet
  cases hsubnet
  dsimp only at h
  split at h
  · cases h
    exact ⟨rfl, hnet⟩
  · cases h

theorem planUplink_eq_ok (h : planUplink topo pop = .ok planned) :
    planned.kind = .transit ∧ planned.a.id = pop.id ∧
      nthSubnet topo.defaults.edgePrefix 64 (edgeSubnetIndex pop.index 0) = .ok planned.subnet := by
  obtain ⟨⟨subnet, near, far⟩, hsubnet, h⟩ := bind_eq_ok.mp h
  obtain ⟨net, hnet, hsubnet⟩ := bind_eq_ok.mp hsubnet
  cases hsubnet
  cases h
  exact ⟨rfl, rfl, hnet⟩

theorem planCpe_eq_ok {cpe : Cpe × ℕ} (h : planCpe topo pop cpe = .ok planned) :
    planned.kind = .cpe ∧ planned.a.id = pop.id ∧
      nthSubnet topo.defaults.edgePrefix 64 (edgeSubnetIndex pop.index cpe.2) =
        .ok planned.subnet := by
  obtain ⟨⟨subnet, near, far⟩, hsubnet, h⟩ := bind_eq_ok.mp h
  obtain ⟨net, hnet, hsubnet⟩ := bind_eq_ok.mp hsubnet
  cases hsubnet
  cases h
  exact ⟨rfl, rfl, hnet⟩

theorem planLan_eq_ok {cpe : Cpe × ℕ}
    (h : planLan digest pop cpe = .ok planned) : planned.kind = .lan := by
  obtain ⟨addrs, -, h⟩ := bind_eq_ok.mp h
  cases h
  rfl

theorem planPop_eq_ok {plan : PopPlan} (h : planPop topo pop = .ok plan) :
    plan.pop = pop ∧
      nthSubnet topo.defaults.locatorPrefix 48 pop.index = .ok plan.locatorPrefix ∧
      (∀ access ∈ plan.access,
        edgeAggregate topo.defaults.edgePrefix pop.index = .ok access.aggregate) ∧
      ((topo.attached pop.id).isEmpty = false → ∃ access, plan.access = some access) := by
  obtain ⟨access, haccess, h⟩ := bind_eq_ok.mp h
  obtain ⟨⟨locatorPrefix, loopback⟩, hlocator, h⟩ := bind_eq_ok.mp h
  obtain ⟨net, hnet, hlocator⟩ := bind_eq_ok.mp hlocator
  cases hlocator
  cases h
  unfold planAccess at haccess
  split_ifs at haccess with hempty
  · cases haccess
    exact ⟨rfl, hnet, fun _ hmem => (nomatch hmem), fun hne => absurd hempty (by simp [hne])⟩
  · obtain ⟨addrs, -, haccess⟩ := bind_eq_ok.mp haccess
    obtain ⟨aggregate, haggregate, haccess⟩ := bind_eq_ok.mp haccess
    cases haccess
    refine ⟨rfl, hnet, fun access hmem => ?_, fun _ => ⟨_, rfl⟩⟩
    cases hmem
    exact haggregate

end Kinds

end Maeto.Generator
