import Mathlib.Data.List.Sort
import Mathlib.Data.Rat.Floor
import Maeto.Foundation.Result
import Maeto.Generator.Addressing

/-!
# Parsing a topology

The parser goes through the document once, in the order of the source, and refuses what
does not fit. Lists are parsed element by element, each checked against those before it;
the ids, indexes and prefixes seen so far are those of the elements parsed so far.

IPv6 prefixes are read by Python's `ipaddress`, given here as the function `ipNetwork`.
-/

namespace Maeto.Generator

open Foundation

inductive IpNetwork
  | invalid (err : String)
  | v4
  | v6 (net : Network)

structure Defaults where
  locatorPrefix : Network
  linkPrefix : Network
  edgePrefix : Network

structure Pop where
  id : String
  index : ℕ
  nodeName : String
  clabLabel : String
  data : Dict

structure TrafficClass where
  name : String
  label : ℕ
  index : ℕ
  dscp : List ℕ
  objective : GoMap String ℚ

structure Tier where
  name : String
  index : ℕ
  shares : GoMap String ℚ

structure Tenant where
  id : ℕ
  allocation : Network
  tier : String
  data : Dict

structure Cpe where
  id : String
  nodeName : String
  clabLabel : String
  attach : String
  tenant : ℕ
  sitePrefix : Network
  portalId : Yaml
  reservationMbps : ℚ
  classMbps : GoMap String ℚ
  data : Dict

structure CoreLink where
  index : ℕ
  a : String
  b : String
  inst : ℕ
  bandwidthMbps : ℚ
  delayMs : ℚ
  startJitter : ℚ

structure Topology where
  name : String
  defaults : Defaults
  pops : List Pop
  tenants : List Tenant
  cpes : List Cpe
  links : List CoreLink
  classes : List TrafficClass
  tiers : List Tier

def require (condition : Prop) [Decidable condition] (text : String)
    (value : Option Yaml := none) : Except TopologyError Unit :=
  if condition then .ok () else .error { text := text, value := value }

theorem require_eq_ok {condition : Prop} [Decidable condition] {text : String}
    {value : Option Yaml} {u : Unit} : require condition text value = .ok u ↔ condition := by
  unfold require
  split_ifs with h
  · exact iff_of_true rfl h
  · exact iff_of_false (fun h => nomatch h) h

/-! ### Single values -/

def isSpace (c : Char) : Bool :=
  (9 ≤ c.toNat && c.toNat ≤ 13) || (28 ≤ c.toNat && c.toNat ≤ 32) ||
    (0x2000 ≤ c.toNat && c.toNat ≤ 0x200a) ||
    c.toNat ∈ [0x85, 0xa0, 0x1680, 0x2028, 0x2029, 0x202f, 0x205f, 0x3000]

def strip (s : String) : String :=
  String.ofList ((s.toList.dropWhile isSpace).reverse.dropWhile isSpace).reverse

def rejectUnknown (d : Dict) (allowed : List String) (place : String) :
    Except TopologyError Unit :=
  let extra := (d.map Prod.fst).filter fun key => !allowed.any fun name => key.isStr name
  let names := ", ".intercalate (extra.filterMap Yaml.asStr).mergeSort
  require (extra.isEmpty = true) s!"unknown key(s) in {place}: {names}"

def mapping (value : Option Yaml) (text : String) : Except TopologyError Dict :=
  match value with
  | some (.map d) => .ok d
  | _ => fail text

def requireId (raw : Dict) (place : String) : Except TopologyError String :=
  match Dict.get raw "id" with
  | some (.str id) => if id = "" then fail s!"{place}.id must be a non-empty string" else .ok id
  | _ => fail s!"{place}.id must be a non-empty string"

def clabLabel (raw : Dict) (default place : String) : Except TopologyError String :=
  match Dict.get raw "override" with
  | none => .ok default
  | some .null => .ok default
  | some (.map override) => do
      rejectUnknown override ["clab_label"] s!"{place}.override"
      match Dict.get override "clab_label" with
      | none => .ok default
      | some (.str label) =>
        if label = "" then fail s!"{place}.override.clab_label must be a non-empty string"
        else .ok label
      | some _ => fail s!"{place}.override.clab_label must be a non-empty string"
  | some _ => fail s!"{place}.override must be a mapping"

def data (raw : Dict) (place : String) : Except TopologyError Dict :=
  match Dict.get raw "data" with
  | none => .ok []
  | some .null => .ok []
  | some (.map d) => .ok d
  | some _ => fail s!"{place}.data must be a mapping"

def mbps (value : Option Yaml) (place : String) : Except TopologyError ℚ :=
  match value.bind Yaml.number with
  | none => fail s!"{place} must be a number in Mbps"
  | some q => if q ≤ 0 then fail s!"{place} must be greater than zero" else .ok q

def delayMs (value : Option Yaml) (place : String) : Except TopologyError ℚ :=
  match value.bind Yaml.number with
  | none => fail s!"{place} must be a number in milliseconds"
  | some q => if q < 0 then fail s!"{place} must not be negative" else .ok q

def startJitter (value : Option Yaml) (place : String) : Except TopologyError ℚ :=
  match value with
  | none => .ok 0
  | some .null => .ok 0
  | some value =>
    match value.number with
    | none => fail s!"{place} must be a number between 0 and 1"
    | some q => if 0 ≤ q ∧ q ≤ 1 then .ok q else fail s!"{place} must be between 0 and 1"

def fraction (value : Option Yaml) (place : String) : Except TopologyError ℚ :=
  match value.bind Yaml.number with
  | none => fail s!"{place} must be a fraction in (0, 1]"
  | some q => if 0 < q ∧ q ≤ 1 then .ok q else fail s!"{place} must be a fraction in (0, 1]"

def definedName (key : Yaml) (what : String) : Except TopologyError String :=
  match key with
  | .str name =>
    if strip name = "" then fail s!"{what} names must be non-empty strings" else .ok name
  | _ => fail s!"{what} names must be non-empty strings"

def atLeast (minimum : ℕ) (value : Option Yaml) (text : String) : Except TopologyError ℕ :=
  match value with
  | some (.int n) => if n < minimum then fail text else .ok n.toNat
  | _ => fail text

/-! ### PoPs -/

def popIndex (raw : Dict) (i : ℕ) (place : String) : Except TopologyError ℕ :=
  let cap := 2 ^ linkPopBits - 1
  match Dict.get raw "index" with
  | none => .ok (i + 1)
  | some value => do
      let n ← atLeast 1 (some value) s!"{place}.index must be a positive integer"
      require (n ≤ cap) s!"{place}.index must be <= {cap}"
      .ok n

def parsePop (pops : List Pop) (i : ℕ) (raw : Yaml) : Except TopologyError Pop := do
  let place := s!"pops[{i}]"
  let raw ← mapping (some raw) s!"{place} must be a mapping"
  rejectUnknown raw ["id", "index", "data", "override"] place
  let id ← requireId raw place
  require (id ∉ pops.map Pop.id) s!"duplicate pop id: {id}"
  let index ← popIndex raw i place
  require (index ∉ pops.map Pop.index) s!"duplicate pop index: {index}"
  let nodeName := "Pop" ++ id
  let label ← clabLabel raw nodeName place
  let data ← data raw place
  .ok { id := id, index := index, nodeName := nodeName, clabLabel := label, data := data }

def parsePops (root : Dict) : Except TopologyError (List Pop) :=
  match Dict.get root "pops" with
  | some (.list (raw :: items)) => Result.collectM parsePop (raw :: items)
  | _ => fail "pops must be a non-empty list"

/-! ### Classes and tiers -/

def dscpMax : ℕ := 63
def dscpUnmarked : ℕ := 0
def defaultClassName : String := "default"
def defaultClassLabel : ℕ := 0

def nameOf (owner : Option TrafficClass) : String := (owner.map TrafficClass.name).getD ""

def matchDscp (classes : List TrafficClass) (value : Option Yaml) (place : String) :
    Except TopologyError (List ℕ) := do
  let raw ← mapping value s!"{place} must be a mapping"
  rejectUnknown raw ["dscp"] place
  match Dict.get raw "dscp" with
  | some (.list (first :: rest)) => do
      let codepoints ← Result.collectM (fun out (_ : ℕ) value => do
        let n ← atLeast 0 (some value)
          s!"{place}.dscp values must be integers in 0..{dscpMax}: {value.shown}"
        require (n ≤ dscpMax) s!"{place}.dscp values must be integers in 0..{dscpMax}: {n}"
        require (n ≠ dscpUnmarked)
          s!"{place}.dscp {n} is unmarked traffic and always rides the default class"
        require (n ∉ out) s!"{place}.dscp {n} is listed twice"
        let owner := nameOf (classes.find? fun c => n ∈ c.dscp)
        require (∀ c ∈ classes, n ∉ c.dscp)
          s!"{place}.dscp {n} is already matched by class {owner}"
        .ok n) (first :: rest)
      .ok (codepoints.insertionSort (· ≤ ·))
  | _ => fail s!"{place}.dscp must be a non-empty list of codepoints"

def objective (value : Option Yaml) (place : String) :
    Except TopologyError (GoMap String ℚ) := do
  let text := s!"{place} must be a non-empty mapping of dimension to weight"
  let raw ← mapping value text
  require (raw.isEmpty = false) text
  rejectUnknown raw ["latency", "jitter", "loss"] place
  raw.foldlM (fun out entry => do
    let text := s!"{place}.{entry.1.shown} must be a number greater than zero"
    match entry.1.asStr, entry.2.number with
    | some dim, some weight => do
        require (0 < weight) text
        .ok (out.insert dim weight)
    | _, _ => fail text) ∅

def priorityIndex (seen : List (ℕ × String)) (raw : Dict) (place : String) :
    Except TopologyError ℕ := do
  let index ← atLeast 1 (Dict.get raw "index") s!"{place}.index must be an integer >= 1"
  let owner := ((seen.find? fun e => e.1 = index).map Prod.snd).getD ""
  require (index ∉ seen.map Prod.fst) s!"{place}.index {index} is already used by {owner}"
  .ok index

def parseClass (classes : List TrafficClass) (_ : ℕ) (entry : Yaml × Yaml) :
    Except TopologyError TrafficClass := do
  let name ← definedName entry.1 "class"
  let place := s!"classes.{name}"
  require (name ≠ defaultClassName) s!"{place}: 'default' is implicit and cannot be declared"
  let raw ← mapping (some entry.2) s!"{place} must be a mapping"
  rejectUnknown raw ["label", "index", "match", "objective"] place
  let label ← atLeast 0 (Dict.get raw "label") s!"{place}.label must be a non-negative integer"
  require (label ≠ defaultClassLabel) s!"{place}.label 0 is reserved for the default class"
  let owner := nameOf (classes.find? fun c => c.label = label)
  require (label ∉ classes.map TrafficClass.label)
    s!"{place}.label {label} is already used by class {owner}"
  let index ← priorityIndex (classes.map fun c => (c.index, c.name)) raw place
  let dscp ← matchDscp classes (Dict.get raw "match") s!"{place}.match"
  let objective ← objective (Dict.get raw "objective") s!"{place}.objective"
  .ok { name := name, label := label, index := index, dscp := dscp, objective := objective }

def parseClasses (root : Dict) : Except TopologyError (List TrafficClass) := do
  let items ← mapping (some ((Dict.getTruthy root "classes").getD (.map [])))
    "classes must be a mapping of class name to definition"
  Result.collectM parseClass items

def classSplit (value : Option Yaml) (classNames : List String) (place : String)
    (valueOf : Option Yaml → String → Except TopologyError ℚ) :
    Except TopologyError (GoMap String ℚ) :=
  match value with
  | none => .ok ∅
  | some .null => .ok ∅
  | some (.map entries) =>
    entries.foldlM (fun out entry =>
      match entry.1 with
      | .str name => do
          require (name ∈ classNames) s!"{place}.{name} does not reference a declared class"
          let amount ← valueOf (some entry.2) s!"{place}.{name}"
          .ok (out.insert name amount)
      | key => fail s!"{place}.{key.shown} does not reference a declared class") ∅
  | some _ => fail s!"{place} must be a mapping of class name to amount"

def total (amounts : GoMap String ℚ) : ℚ := ((amounts.range .listed).map Prod.snd).sum

def parseTier (classNames : List String) (tiers : List Tier) (_ : ℕ) (entry : Yaml × Yaml) :
    Except TopologyError Tier := do
  let name ← definedName entry.1 "tier"
  let place := s!"tiers.{name}"
  let raw ← mapping (some entry.2) s!"{place} must be a mapping"
  rejectUnknown raw ["index", "classes"] place
  let shares ← classSplit (Dict.get raw "classes") classNames s!"{place}.classes" fraction
  require (total shares ≤ 1) s!"{place}.classes add up to more than 1"
  let index ← priorityIndex (tiers.map fun t => (t.index, t.name)) raw place
  .ok { name := name, index := index, shares := shares }

def parseTiers (root : Dict) (classNames : List String) : Except TopologyError (List Tier) := do
  let items ← mapping (some ((Dict.getTruthy root "tiers").getD (.map [])))
    "tiers must be a mapping of tier name to definition"
  Result.collectM (parseTier classNames) items

/-! ### Tenants and sites -/

section Networks

variable (ipNetwork : Yaml → IpNetwork)

def checkPrefix (name : String) (value : Yaml) (carve : ℕ) : Except TopologyError Network :=
  match ipNetwork value with
  | .invalid err => fail s!"defaults.{name} is not a valid ipv6 prefix: {err}"
  | .v4 => fail s!"defaults.{name} must be ipv6"
  | .v6 net => do
      require (net.prefixlen ≤ carve)
        s!"defaults.{name} must be /{carve} or shorter to carve subnets"
      .ok net

def parseDefaults (root : Dict) : Except TopologyError Defaults := do
  let d ← mapping (Dict.get root "defaults") "defaults must be a mapping"
  rejectUnknown d ["locator_prefix", "link_prefix", "edge_prefix"] "defaults"
  match Dict.get d "locator_prefix", Dict.get d "link_prefix", Dict.get d "edge_prefix" with
  | some locatorPrefix, some linkPrefix, some edgePrefix => do
      let locatorPrefix ← checkPrefix ipNetwork "locator_prefix" locatorPrefix 48
      let linkPrefix ← checkPrefix ipNetwork "link_prefix" linkPrefix 64
      let edgePrefix ← checkPrefix ipNetwork "edge_prefix" edgePrefix edgeAggregatePrefixlen
      .ok ⟨locatorPrefix, linkPrefix, edgePrefix⟩
  -- the keys are a set in the source, and any one that is left out may be named
  | none, _, _ => fail "defaults.locator_prefix is required"
  | _, none, _ => fail "defaults.link_prefix is required"
  | _, _, none => fail "defaults.edge_prefix is required"

def requireNetwork (value : Option Yaml) (place : String) : Except TopologyError Network :=
  match value with
  | some (.str s) =>
    match ipNetwork (.str s) with
    | .invalid err => fail s!"{place} is not a valid network: {err}"
    | .v4 => fail s!"{place} must be ipv6"
    | .v6 net => .ok net
  | _ => fail s!"{place} must be a string"

def tenantTier (raw : Dict) (place : String) : Except TopologyError String :=
  match (Dict.get raw "tier").getD (.str "standard") with
  | .str tier =>
    if strip tier = "" then fail s!"{place}.tier must be a non-empty string" else .ok (strip tier)
  | _ => fail s!"{place}.tier must be a non-empty string"

def parseTenant (tenants : List Tenant) (i : ℕ) (raw : Yaml) : Except TopologyError Tenant := do
  let place := s!"tenants[{i}]"
  let raw ← mapping (some raw) s!"{place} must be a mapping"
  rejectUnknown raw ["id", "allocation", "tier", "data"] place
  let id ← atLeast 1 (Dict.get raw "id") s!"{place}.id must be a positive integer"
  require (id ∉ tenants.map Tenant.id) s!"duplicate tenant id: {id}"
  let allocation ← requireNetwork ipNetwork (Dict.get raw "allocation") s!"{place}.allocation"
  let tier ← tenantTier raw place
  let data ← data raw place
  .ok { id := id, allocation := allocation, tier := tier, data := data }

def optionalList (root : Dict) (key : String) : Except TopologyError (List Yaml) :=
  match (Dict.getTruthy root key).getD (.list []) with
  | .list items => .ok items
  | _ => fail s!"{key} must be a list"

def parseTenants (root : Dict) : Except TopologyError (List Tenant) := do
  let items ← optionalList root "tenants"
  Result.collectM (parseTenant ipNetwork) items

def round6 (q : ℚ) : ℚ :=
  let scaled : ℚ := q * 10 ^ 6
  let low : ℤ := ⌊scaled⌋
  let rest : ℚ := scaled - low
  let nearest : ℤ := if rest < 1 / 2 ∨ (rest = 1 / 2 ∧ low % 2 = 0) then low else low + 1
  (nearest : ℚ) / 10 ^ 6

def siteClassMbps (raw : Dict) (reservation : ℚ) (tier : String) (tiers : List Tier)
    (classNames : List String) (place : String) : Except TopologyError (GoMap String ℚ) :=
  match Dict.get raw "classes" with
  | some value => do
      let split ← classSplit (some value) classNames s!"{place}.classes" mbps
      require (total split ≤ reservation)
        s!"{place}.classes add up to more than reservation_bandwidth" (some (.float reservation))
      .ok split
  | none =>
    match tiers.find? fun template => template.name = tier with
    | none => .ok ∅
    | some template =>
      .ok (template.shares.copyInto .listed
        (fun _ share => some (round6 (share * reservation))) ∅)

def cpeAttach (popIds : List String) (raw : Dict) (place : String) : Except TopologyError String :=
  match Dict.get raw "attach" with
  | some (.str attach) =>
    if attach ∈ popIds then .ok attach
    else fail s!"{place}.attach must reference an existing pop id: {attach}"
  | attach =>
    .error { text := s!"{place}.attach must reference an existing pop id", value := attach }

def cpeTenant (tenants : List Tenant) (raw : Dict) (place : String) :
    Except TopologyError Tenant :=
  match tenants.find? fun tenant =>
      (Dict.get raw "tenant").bind Yaml.numeric = some (tenant.id : ℚ) with
  | some tenant => .ok tenant
  | none =>
    .error { text := s!"{place}.tenant must reference an existing tenant id",
             value := Dict.get raw "tenant" }

def parseCpe (popIds : List String) (tenants : List Tenant) (tiers : List Tier)
    (classNames : List String) (cpes : List Cpe) (i : ℕ) (raw : Yaml) :
    Except TopologyError Cpe := do
  let place := s!"cpes[{i}]"
  let raw ← mapping (some raw) s!"{place} must be a mapping"
  rejectUnknown raw ["id", "attach", "tenant", "prefix", "portal_id", "reservation_bandwidth",
    "classes", "data", "override"] place
  let id ← requireId raw place
  require (id.toList.head? = some 'c' ∧ 1 < id.length)
    s!"cpe id must start with 'c' and have a suffix: {id}"
  require (id ∉ cpes.map Cpe.id) s!"duplicate cpe id: {id}"
  let attach ← cpeAttach popIds raw place
  -- they all share the pop's transit router, so they all come out of its aggregate
  require ((cpes.filter fun cpe => cpe.attach = attach).length + 1 ≤ maxCpesPerPop)
    s!"pop {attach} has more than {maxCpesPerPop} cpes attached"
  let tenant ← cpeTenant tenants raw place
  let sitePrefix ← requireNetwork ipNetwork (Dict.get raw "prefix") s!"{place}.prefix"
  let allocation := tenant.allocation.text
  require (sitePrefix.subnetOf tenant.allocation = true)
    s!"{place}.prefix {sitePrefix.text} is outside tenant {tenant.id} allocation {allocation}"
  let other := ((cpes.find? fun cpe => cpe.tenant = tenant.id ∧
    sitePrefix.overlaps cpe.sitePrefix = true).map fun cpe => cpe.sitePrefix.text).getD ""
  require (∀ cpe ∈ cpes, cpe.tenant = tenant.id → sitePrefix.overlaps cpe.sitePrefix = false)
    s!"{place}.prefix {sitePrefix.text} overlaps {other} on tenant {tenant.id}"
  let nodeName := "Cpe" ++ String.ofList id.toList.tail
  let portalId := (Dict.get raw "portal_id").getD (.str "")
  require (portalId.isStr "" = false) s!"{nodeName} is missing portal ID"
  require (∀ cpe ∈ cpes, cpe.portalId.same portalId = false)
    s!"{portalId.shown} is a duplicate. Portal IDs must be unique"
  require (portalId.len = some 12) "portal_id must be 12 character long"
  let reservation ← mbps (Dict.get raw "reservation_bandwidth") s!"{place}.reservation_bandwidth"
  let classMbps ← siteClassMbps raw reservation tenant.tier tiers classNames place
  let label ← clabLabel raw nodeName place
  let data ← data raw place
  .ok { id := id, nodeName := nodeName, clabLabel := label, attach := attach, tenant := tenant.id,
        sitePrefix := sitePrefix, portalId := portalId, reservationMbps := reservation,
        classMbps := classMbps, data := data }

def parseCpes (root : Dict) (popIds : List String) (tenants : List Tenant) (tiers : List Tier)
    (classNames : List String) : Except TopologyError (List Cpe) := do
  let items ← optionalList root "cpes"
  Result.collectM (parseCpe ipNetwork popIds tenants tiers classNames) items

end Networks

/-! ### Links -/

structure LinkSpec where
  bandwidth : ℚ
  delay : ℚ
  startJitter : ℚ

def parallelSpec (place : String) (raw : Yaml) : Except TopologyError LinkSpec := do
  let raw ← mapping (some raw) s!"{place} must be a mapping"
  rejectUnknown raw ["bandwidth", "delay", "start_jitter"] place
  let bandwidth ← mbps (Dict.get raw "bandwidth") s!"{place}.bandwidth"
  let delay ← delayMs (Dict.get raw "delay") s!"{place}.delay"
  let jitter ← startJitter (Dict.get raw "start_jitter") s!"{place}.start_jitter"
  .ok ⟨bandwidth, delay, jitter⟩

def linkParallel (raw : Dict) (i : ℕ) : Except TopologyError (List LinkSpec) :=
  match Dict.get raw "parallel" with
  | some (.list (first :: rest)) => do
      require ((first :: rest).length ≤ 2 ^ linkInstanceBits)
        s!"links[{i}].parallel must hold <= {2 ^ linkInstanceBits} links"
      (first :: rest).zipIdx.mapM fun spec => parallelSpec s!"links[{i}].parallel[{spec.2}]" spec.1
  | _ => fail s!"links[{i}].parallel must be a non-empty list"

structure LinkGroup where
  lo : Pop
  hi : Pop
  specs : List LinkSpec

def LinkGroup.links (group : LinkGroup) : List CoreLink :=
  (group.specs.zipIdx 1).map fun spec =>
    { index := linkSubnetIndex group.lo.index group.hi.index spec.2,
      a := group.lo.id, b := group.hi.id, inst := spec.2,
      bandwidthMbps := spec.1.bandwidth, delayMs := spec.1.delay,
      startJitter := spec.1.startJitter }

def linkEnd (pops : List Pop) (raw : Dict) (key : String) (i : ℕ) : Except TopologyError Pop :=
  match (Dict.get raw key).bind Yaml.asStr with
  | some id =>
    match pops.find? fun pop => pop.id = id with
    | some pop => .ok pop
    | none => fail s!"links[{i}] references unknown pop: {id}"
  | none => .error { text := s!"links[{i}] references unknown pop", value := Dict.get raw key }

def parseLink (pops : List Pop) (groups : List LinkGroup) (i : ℕ) (raw : Yaml) :
    Except TopologyError LinkGroup := do
  let raw ← mapping (some raw) s!"links[{i}] must be a mapping with a, b and parallel"
  rejectUnknown raw ["a", "b", "parallel"] s!"links[{i}]"
  let a ← linkEnd pops raw "a" i
  let b ← linkEnd pops raw "b" i
  require (a.id ≠ b.id) s!"links[{i}] cannot connect a pop to itself: {a.id}"
  require (∀ group ∈ groups, ¬ ((group.lo.id = a.id ∧ group.hi.id = b.id) ∨
    (group.lo.id = b.id ∧ group.hi.id = a.id))) s!"duplicate link: [{a.id}, {b.id}]"
  let specs ← linkParallel raw i
  -- the ends in the order of their indexes, whichever is written first
  .ok (if a.index ≤ b.index then ⟨a, b, specs⟩ else ⟨b, a, specs⟩)

def parseLinks (root : Dict) (pops : List Pop) : Except TopologyError (List CoreLink) := do
  let items ← optionalList root "links"
  let groups ← Result.collectM (parseLink pops) items
  .ok (groups.flatMap LinkGroup.links)

/-! ### The whole document -/

def requireName (root : Dict) : Except TopologyError String :=
  match Dict.get root "name" with
  | some (.str name) =>
    if strip name = "" then fail "name must be a non-empty string" else .ok name
  | _ => fail "name must be a non-empty string"

def parseTopology (ipNetwork : Yaml → IpNetwork) (source : Yaml) :
    Except TopologyError Topology := do
  let root ← mapping (some source) "topology must be a mapping"
  rejectUnknown root ["name", "defaults", "classes", "tiers", "pops", "tenants", "cpes", "links"]
    "top level"
  let name ← requireName root
  let defaults ← parseDefaults ipNetwork root
  let pops ← parsePops root
  let classes ← parseClasses root
  let classNames := classes.map TrafficClass.name
  let tiers ← parseTiers root classNames
  let tenants ← parseTenants ipNetwork root
  let cpes ← parseCpes ipNetwork root (pops.map Pop.id) tenants tiers classNames
  let links ← parseLinks root pops
  .ok { name := name, defaults := defaults, pops := pops, tenants := tenants, cpes := cpes,
        links := links, classes := classes, tiers := tiers }

end Maeto.Generator
