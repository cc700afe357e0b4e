import Mathlib.Data.List.MinMax
import Maeto.Dataplane.Render

/-!
# The part of the Linux kernel that is configured

Links, routes, policy rules and the elements of one nftables map, with the
operations on them that the dataplane uses, each with the errors it can meet. A
link has an index that is never given out again. Links are not renamed, so what
the kernel keeps by index (the parent and the master of a link, the device of a
route) is kept here by the name that a read translates it to.

A route is stored in place of the one with the same table, destination and metric.
A deletion without a metric takes the matching route of least metric. Deleting a
link takes the routes over it away and leaves the links that refer to it without
their reference. A deletion of a rule only compares what it is given. The elements
of the map are changed through a queue, all at once or not at all.
-/

namespace Maeto.Dataplane

open Foundation Netip

inductive Errno where
  | enoent
  | esrch
  | eexist
  | enodev
  | einval
  | erange
  | eopnotsupp
  deriving DecidableEq, Repr

def Errno.text : Errno → String
  | enoent => "no such file or directory"
  | esrch => "no such process"
  | eexist => "file exists"
  | enodev => "no such device"
  | einval => "invalid argument"
  | erange => "numerical result out of range"
  | eopnotsupp => "operation not supported"

inductive LinkKind where
  | vrf (table : UInt32)
  | xfrm (ifID : UInt32)
  | other (goType : String)
  deriving DecidableEq

def LinkKind.goType : LinkKind → String
  | vrf _ => "*netlink.Vrf"
  | xfrm _ => "*netlink.Xfrmi"
  | other t => t

structure Link where
  name : String
  group : ℕ
  parent : String
  master : String
  kind : LinkKind
  deriving DecidableEq

def Link.detach (gone : String) (l : Link) : Link :=
  { l with
    parent := if l.parent = gone then "" else l.parent
    master := if l.master = gone then "" else l.master }

structure Network where
  net : Prefix
  valid : net.isValid = true
  masked : net.masked = net
  deriving DecidableEq

def prefixToIPNet (p : Prefix) : Option Network :=
  if h : p.masked.isValid = true ∧ p.masked.masked = p.masked then some ⟨p.masked, h.1, h.2⟩
  else none

def Network.default6 : Network := ⟨Prefix.default6, by decide, by decide⟩

inductive RouteAction where
  | unicast
  | gateway (gw : Addr)
  | unreachable
  | seg6local (action : EncapType) (vrfTable : UInt32)
  | seg6 (segments : List Addr)
  deriving DecidableEq

structure KernelRoute where
  table : UInt32
  dst : Network
  metric : ℕ
  protocol : ℕ
  dev : String
  action : RouteAction
  deriving DecidableEq

structure KernelRule where
  priority : ℤ
  src : Option Network
  table : UInt32
  mark : UInt32
  iif : String
  protocol : ℕ
  deriving DecidableEq

inductive ElementChange where
  | add (key : List UInt8) (mark : UInt32)
  | delete (key : List UInt8)
  deriving DecidableEq

structure Kernel where
  links : GoMap ℕ Link
  nextIndex : ℕ
  onLink : GoMap Addr String
  routes : List KernelRoute
  rules : List KernelRule
  classes : Option (GoMap UInt8 UInt32)
  queue : List ElementChange
  index_lt : ∀ i ∈ links, 0 < i ∧ i < nextIndex
  nextIndex_pos : 0 < nextIndex

namespace Kernel

section Links

def linkList (k : Kernel) : List (ℕ × Link) := k.links.range .listed

def linkByName (k : Kernel) (name : String) : Option (ℕ × Link) :=
  k.linkList.find? fun l => l.2.name = name

def linkByIndex (k : Kernel) (index : ℤ) : Option (ℕ × Link) :=
  if 0 < index then (k.links.lookup index.toNat).map fun l => (index.toNat, l) else none

def validLinkName (name : String) : Bool :=
  name ≠ "" && name ≠ "." && name ≠ ".." &&
    name.toList.all fun c => c ≠ '/' && c ≠ ':' && !c.isWhitespace

def linkAddError (k : Kernel) (l : Link) : Option Errno :=
  if 15 < (utf8 l.name).length then some .erange
  else if !validLinkName l.name then some .einval
  else if (k.linkByName l.name).isSome then some .eexist
  else match l.kind with
  | .vrf table => if table = 0 then some .einval else none
  | .xfrm ifID =>
    if ifID = 0 then some .einval
    else if k.linkList.any fun m => m.2.kind = .xfrm ifID then some .eexist
    else none
  | .other _ => none

def insertLink (k : Kernel) (l : Link) : Kernel :=
  { k with
    links := k.links.insert k.nextIndex l
    nextIndex := k.nextIndex + 1
    index_lt := by
      intro i hi
      rcases (AList.mem_insert k.links).mp hi with rfl | hi
      · exact ⟨k.nextIndex_pos, Nat.lt_succ_self _⟩
      · exact ⟨(k.index_lt i hi).1, Nat.lt_succ_of_lt (k.index_lt i hi).2⟩
    nextIndex_pos := Nat.succ_pos _ }

def linkAdd (k : Kernel) (l : Link) : Except Errno Kernel :=
  match k.linkAddError l with
  | some err => .error err
  | none => .ok (k.insertLink l)

def linkSetMaster (k : Kernel) (index : ℕ) (master : Link) : Except Errno Kernel :=
  match master.kind with
  | .vrf _ =>
    .ok { k with
      links := k.links.copyInto .listed
        (fun i l => some (if i = index then { l with master := master.name } else l)) ∅
      index_lt := fun i hi => k.index_lt i (GoMap.mem_of_mem_copyInto hi) }
  | _ => .error .eopnotsupp

def linkDel (k : Kernel) (index : ℕ) (name : String) : Kernel :=
  { k with
    links := k.links.copyInto .listed
      (fun i l => if i = index then none else some (l.detach name)) ∅
    routes := k.routes.filter fun r => r.dev ≠ name
    index_lt := fun i hi => k.index_lt i (GoMap.mem_of_mem_copyInto hi) }

end Links

section Routes

def routeReplace (k : Kernel) (r : KernelRoute) : Kernel :=
  { k with
    routes := (k.routes.filter fun r' =>
      ¬ (r'.table = r.table ∧ r'.dst = r.dst ∧ r'.metric = r.metric)) ++ [r] }

def routeDel (k : Kernel) (dst : Network) (table : UInt32) (protocol : ℕ) (metric : Option ℕ) :
    Except Errno Kernel :=
  match (k.routes.filter fun r =>
      r.dst = dst ∧ r.table = table ∧ r.protocol = protocol ∧
        metric.all fun n => r.metric = n).argmin KernelRoute.metric with
  | none => .error .esrch
  | some r => .ok { k with routes := k.routes.erase r }

def userMetric (dst : Network) : ℕ := if dst.net.ip.is6 then 1024 else 0

def vrfByTable (k : Kernel) (tableID : ℤ) : Option (ℕ × Link) :=
  k.linkList.find? fun l =>
    match l.2.kind with
    | .vrf table => (table.toNat : ℤ) = tableID
    | _ => false

end Routes

section Rules

def ruleAdd (k : Kernel) (r : KernelRule) : Except Errno Kernel :=
  if k.rules.any fun r' =>
      r'.priority = r.priority ∧ r'.src = r.src ∧ r'.table = r.table ∧ r'.mark = r.mark ∧
        r'.iif = r.iif then
    .error .eexist
  else .ok { k with rules := k.rules ++ [r] }

def ruleSelects (r r' : KernelRule) : Bool :=
  r'.priority = r.priority && r.src.all (fun src => r'.src = some src) && r'.table = r.table &&
    (r.mark = 0 || r'.mark = r.mark) && (r.iif = "" || r'.iif = r.iif) &&
    r'.protocol = r.protocol

def ruleDel (k : Kernel) (r : KernelRule) : Except Errno Kernel :=
  match k.rules.find? (ruleSelects r) with
  | none => .error .enoent
  | some r' => .ok { k with rules := k.rules.erase r' }

end Rules

section Classes

def changeElement (classes : GoMap UInt8 UInt32) : ElementChange → Except Errno (GoMap UInt8 UInt32)
  | .add [key] mark =>
    match classes.lookup key with
    | none => .ok (classes.insert key mark)
    | some mark' => if mark' = mark then .ok classes else .error .eexist
  | .delete [key] => if key ∈ classes then .ok (classes.erase key) else .error .enoent
  | _ => .error .einval

def flush (k : Kernel) : Option Errno × Kernel :=
  match k.queue.foldlM changeElement (k.classes.getD ∅) with
  | .error err => (some err, { k with queue := [] })
  | .ok classes => (none, { k with classes := some classes, queue := [] })

end Classes

def started : Kernel where
  links := (((∅ : GoMap ℕ Link).insert 1 ⟨"lo", 0, "", "", .other "*netlink.Device"⟩).insert 2
    ⟨"eth1", 0, "", "", .other "*netlink.Device"⟩).insert 3
    ⟨"sr0", 0, "", "", .other "*netlink.Dummy"⟩
  nextIndex := 4
  onLink := ∅
  routes := []
  rules := []
  classes := some ∅
  queue := []
  index_lt := by decide
  nextIndex_pos := by decide

end Kernel

end Maeto.Dataplane
