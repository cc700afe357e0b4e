import Maeto.Dataplane.Kernel

/-!
# The dataplane over netlink

`linuxNetlink` implements the dataplane on the kernel. Everything it installs
carries a group or a protocol of its own, by which the reads find it again. A VRF
comes with an unreachable default route in its table, which carries the protocol
of the prefix routes. A tunnel interface is created first and enslaved after that.

Bringing a link up, storing a route over an existing link and the sysctl that is
written after a VRF do not fail here.
-/

namespace Maeto.Dataplane

open Foundation Netip

def maetoLinkGroup : ℕ := 211

def maetoRouteProto : ℕ := 211

def maetoSIDProto : ℕ := 212

def maetoSIDSegsProto : ℕ := 213

def vrfUnreachableMetricValue : ℕ := 4278198272

def rtTableMain : UInt32 := 254

namespace Linux

def num (n : ℤ) : String := String.ofList (Text.decimal n)

def vrfCatchAll (tableID : ℤ) : KernelRoute where
  table := uint32OfInt tableID
  dst := .default6
  metric := vrfUnreachableMetricValue
  protocol := maetoRouteProto
  dev := "lo"
  action := .unreachable

section VRFs

def upsertVRF (tableName : String) (tableID : ℤ) : Call Kernel := fun k =>
  let vrf : Link := ⟨tableName, maetoLinkGroup, "", "", .vrf (uint32OfInt tableID)⟩
  match k.linkAdd vrf with
  | .ok k' => (none, k'.routeReplace (vrfCatchAll tableID))
  | .error .eexist =>
    match k.linkByName tableName with
    | none => (some ("lookup existing vrf " ++ tableName ++ ": Link not found"), k)
    | some (_, existing) =>
      match existing.kind with
      | .vrf table =>
        if table ≠ uint32OfInt tableID then
          (some ("vrf " ++ tableName ++ " exists with table " ++ num table.toNat ++ ", wanted " ++
            num (uint32OfInt tableID).toNat), k)
        else (none, k.routeReplace (vrfCatchAll tableID))
      | kind => (some (tableName ++ " exists but is " ++ kind.goType ++ ", not a vrf"), k)
  | .error err => (some ("create vrf device " ++ tableName ++ ": " ++ err.text), k)

def removeVRF (linkIndex : ℤ) : Call Kernel := fun k =>
  match k.linkByIndex linkIndex with
  | none => (none, k)
  | some (index, link) =>
    match link.kind with
    | .vrf table =>
      if link.group ≠ maetoLinkGroup then
        (some ("vrf " ++ link.name ++ " at index " ++ num linkIndex ++
          " is not maeto owned (group " ++ num link.group ++ ")"), k)
      else
        match k.routeDel .default6 table maetoRouteProto (some vrfUnreachableMetricValue) with
        | .ok k' => (none, k'.linkDel index link.name)
        | .error .esrch => (none, k.linkDel index link.name)
        | .error err =>
          (some ("remove vrf catch-all for table " ++ num table.toNat ++ ": " ++ err.text), k)
    | kind =>
      (some ("link at index " ++ num linkIndex ++ " is " ++ kind.goType ++ ", not a vrf"), k)

end VRFs

section Tunnels

def insertXFRMInterface (interfaceName underLayIface : String) (ifID : UInt32)
    (masterVRFName : Option String) : Call Kernel := fun k =>
  match k.linkByName underLayIface with
  | none => (some ("lookup underlay interface " ++ underLayIface ++ ": Link not found"), k)
  | some (_, underlay) =>
    match k.linkAdd ⟨interfaceName, maetoLinkGroup, underlay.name, "", .xfrm ifID⟩ with
    | .error .eexist => (some ("xfrm device " ++ interfaceName ++ " already exists"), k)
    | .error err => (some ("create xfrm device " ++ interfaceName ++ ": " ++ err.text), k)
    | .ok k' =>
      match masterVRFName with
      | none => (none, k')
      | some name =>
        match k'.linkByName name with
        | none => (some ("lookup vrf with name " ++ name ++ ": Link not found"), k')
        | some (_, vrf) =>
          match k'.linkSetMaster k.nextIndex vrf with
          | .error err =>
            (some ("enslave " ++ interfaceName ++ " to " ++ vrf.name ++ ": " ++ err.text), k')
          | .ok k'' => (none, k'')

def removeXFRMInterface (linkIndex : ℤ) : Call Kernel := fun k =>
  match k.linkByIndex linkIndex with
  | none => (none, k)
  | some (index, link) =>
    match link.kind with
    | .xfrm _ =>
      if link.group ≠ maetoLinkGroup then
        (some ("xfrm interface " ++ link.name ++ " at index " ++ num linkIndex ++
          " is not maeto owned (group " ++ num link.group ++ ")"), k)
      else (none, k.linkDel index link.name)
    | kind =>
      (some ("link at index " ++ num linkIndex ++ " is " ++ kind.goType ++
        ", not an xfrm interface"), k)

def getLinksByType (ifaceType : String) (k : Kernel) : Except String (List DataplaneLink) :=
  .ok (k.linkList.filterMap fun (index, l) =>
    if l.group ≠ maetoLinkGroup then none
    else match l.kind with
    | .vrf tableID =>
      if ifaceType = "vrf" then some (.vrf { name := l.name, index, tableID }) else none
    | .xfrm ifID =>
      if ifaceType = "xfrm" then
        some (.xfrm { name := l.name, index, parentName := l.parent, masterName := l.master, ifID })
      else none
    | .other _ => none)

end Tunnels

section Routes

def vrfByTableOrNil (k : Kernel) (tableID : ℤ) : Option (ℕ × Link) :=
  if tableID = rtTableMain.toNat ∨ tableID = 0 then none else k.vrfByTable tableID

def insertPrefixRoute (tunnelIface : String) (tableID : ℤ) (dst : Prefix) (via : Addr) :
    Call Kernel := fun k =>
  match prefixToIPNet dst with
  | none =>
    (some ("insert prefix route " ++ dst.toString ++ " (via " ++ via.toString ++ ", dev " ++
      tunnelIface ++ ", table " ++ num tableID ++ "): " ++ Errno.einval.text), k)
  | some net =>
    let route (dev : String) (action : RouteAction) : KernelRoute :=
      { table := uint32OfInt tableID, dst := net, metric := Kernel.userMetric net,
        protocol := maetoRouteProto, dev, action }
    if via.isValid then
      match k.onLink.lookup via with
      | none =>
        (some ("insert prefix route " ++ dst.toString ++ " (via " ++ via.toString ++ ", dev " ++
          tunnelIface ++ ", table " ++ num tableID ++ "): " ++ Errno.enodev.text), k)
      | some dev => (none, k.routeReplace (route dev (.gateway via)))
    else
      match k.linkByName tunnelIface with
      | none => (some ("lookup tunnel interface " ++ tunnelIface ++ ": Link not found"), k)
      | some (_, iface) =>
        match vrfByTableOrNil k tableID with
        | none => (none, k.routeReplace (route iface.name .unicast))
        | some (_, vrf) =>
          if iface.master ≠ vrf.name then
            (some (tunnelIface ++ " is not enslaved to " ++ vrf.name ++ " (table " ++
              num tableID ++ ")"), k)
          else (none, k.routeReplace (route iface.name .unicast))

def removeRoute (dst : Option Network) (table : UInt32) (protocol : ℕ) (missingOk : Bool)
    (message : String) : Call Kernel := fun k =>
  match dst with
  | none => (some (message ++ Errno.einval.text), k)
  | some net =>
    match k.routeDel net table protocol none with
    | .ok k' => (none, k')
    | .error err => if missingOk ∧ err = .esrch then (none, k) else (some (message ++ err.text), k)

def removePrefixRoute (dst : Prefix) (tableID : ℤ) : Call Kernel :=
  removeRoute (prefixToIPNet dst) (uint32OfInt tableID) maetoRouteProto true
    ("delete prefix route " ++ dst.toString ++ " from table " ++ num tableID ++ ": ")

def listRoute (r : KernelRoute) : DataplaneRoute where
  dev := r.dev
  dst := ⟨r.dst.net.ip, r.dst.net.bits.getD 0⟩
  table := r.table.toNat
  via := .invalid

def getPrefixRoutes (k : Kernel) : Except String (List DataplaneRoute) :=
  .ok ((k.routes.filter fun r => r.protocol = maetoRouteProto).map listRoute)

def insertSRRouteForPrefix (dst : Prefix) (tableID : ℤ) (segments : List Addr) : Call Kernel :=
  fun k =>
  if segments = [] then
    (some ("insert srv6 encap route " ++ dst.toString ++ ": no segments given"), k)
  else match segments.find? fun s => !s.is6 with
  | some s =>
    (some ("insert srv6 encap route " ++ dst.toString ++ ": segment " ++ s.toString ++
      " is not IPv6"), k)
  | none =>
    match k.linkByName "sr0" with
    | none => (some "lookup tunnel interface sr0: Link not found", k)
    | some (_, iface) =>
      match prefixToIPNet dst with
      | none =>
        (some ("insert srv6 encap route " ++ dst.toString ++ " (segs [" ++
          " ".intercalate (segments.map Addr.toString) ++ "], dev sr0, table " ++
          num tableID ++ "): " ++ Errno.einval.text), k)
      | some net =>
        (none, k.routeReplace
          { table := uint32OfInt tableID, dst := net, metric := Kernel.userMetric net,
            protocol := maetoSIDSegsProto, dev := iface.name, action := .seg6 segments })

def removeSRRouteForPrefix (dst : Prefix) (tableID : ℤ) : Call Kernel :=
  removeRoute (prefixToIPNet dst) (uint32OfInt tableID) maetoSIDSegsProto true
    ("delete sr prefix route " ++ dst.toString ++ " from table " ++ num tableID ++ ": ")

def getSRRoutes (k : Kernel) : Except String (List DataplaneSRRoute) :=
  .ok ((k.routes.filter fun r => r.protocol = maetoSIDSegsProto).filterMap fun r =>
    match r.action with
    | .seg6 segments =>
      some
        { dst := ⟨r.dst.net.ip, r.dst.net.bits.getD 0⟩, table := r.table.toNat, color := 0,
          segments }
    | _ => none)

end Routes

section SIDs

def sidNet (sid : Addr) : Option Network :=
  if sid.is6 then prefixToIPNet (Prefix.prefixFrom sid 128) else none

def upsertDT46SID (sid : Addr) (vrfTableID : ℤ) : Call Kernel := fun k =>
  match k.vrfByTable vrfTableID with
  | none =>
    (some ("lookup vrf by table " ++ num vrfTableID ++ ": no vrf device owns table " ++
      num vrfTableID), k)
  | some (_, vrf) =>
    match sidNet sid with
    | none =>
      (some ("upsert DT46 sid " ++ sid.toString ++ " (vrftable " ++ num vrfTableID ++ ", dev " ++
        vrf.name ++ "): " ++ Errno.einval.text), k)
    | some net =>
      (none, k.routeReplace
        { table := rtTableMain, dst := net, metric := Kernel.userMetric net,
          protocol := maetoSIDProto, dev := vrf.name,
          action := .seg6local .dt46 (uint32OfInt vrfTableID) })

def removeSID (sid : Addr) : Call Kernel :=
  removeRoute (sidNet sid) rtTableMain maetoSIDProto false ("remove sid " ++ sid.toString ++ ": ")

def listSID (r : KernelRoute) : Except String DataplaneSID :=
  match r.action with
  | .seg6local action vrfTable =>
    .ok
      { dst := ⟨r.dst.net.ip, r.dst.net.bits.getD 0⟩, vrfTableID := vrfTable.toNat,
        encapType := action }
  | _ => .error "failed to parse sid encap type as seg6localencap"

def getSIDs (k : Kernel) : Except String (List DataplaneSID) :=
  (k.routes.filter fun r => r.protocol = maetoSIDProto).mapM listSID

end SIDs

section Rules

def maetoRule (priority : ℤ) (src : Option Prefix) (tableID mark : ℤ) (iifName : String) :
    Option KernelRule :=
  let rule (src : Option Network) : KernelRule :=
    { priority, src, table := uint32OfInt tableID, mark := uint32OfInt mark, iif := iifName,
      protocol := maetoRouteProto }
  match src with
  | none => some (rule none)
  | some p => (prefixToIPNet p).map fun net => rule (some net)

def srcText (src : Option Prefix) : String := src.elim "<nil>" Prefix.toString

def upsertRule (priority : ℤ) (src : Option Prefix) (tableID mark : ℤ) (iifName : String) :
    Call Kernel := fun k =>
  match maetoRule priority src tableID mark iifName with
  | none =>
    (some ("add rule from " ++ srcText src ++ " lookup " ++ num tableID ++ ": " ++
      Errno.einval.text), k)
  | some rule =>
    match k.ruleAdd rule with
    | .ok k' => (none, k')
    | .error .eexist => (none, k)
    | .error err =>
      (some ("add rule from " ++ srcText src ++ " lookup " ++ num tableID ++ ": " ++ err.text), k)

def removeRule (priority : ℤ) (src : Option Prefix) (tableID mark : ℤ) (iifName : String) :
    Call Kernel := fun k =>
  match maetoRule priority src tableID mark iifName with
  | none =>
    (some ("delete rule from " ++ srcText src ++ " lookup " ++ num tableID ++ ": " ++
      Errno.einval.text), k)
  | some rule =>
    match k.ruleDel rule with
    | .ok k' => (none, k')
    | .error .enoent => (none, k)
    | .error err =>
      (some ("delete rule from " ++ srcText src ++ " lookup " ++ num tableID ++ ": " ++
        err.text), k)

def listRule (r : KernelRule) : DataplaneRule where
  priority := r.priority
  src := r.src.map Network.net
  table := r.table.toNat
  mark := r.mark.toNat
  iif := r.iif

def getRules (k : Kernel) : Except String (List DataplaneRule) :=
  .ok ((k.rules.filter fun r => r.protocol = maetoRouteProto).map listRule)

end Rules

section Classes

def ensureClassificationBase : Call Kernel := fun k =>
  match k.flush with
  | (none, k') => (none, k')
  | (some err, k') => (some ("flush table maeto_class: " ++ err.text), k')

def queueChange (change : ElementChange) : Call Kernel := fun k =>
  match k.classes with
  | none => (some Errno.enoent.text, k)
  | some _ => (none, { k with queue := k.queue ++ [change] })

def insertClassification (classifier mark : UInt32) : Call Kernel :=
  queueChange (.add [classifier.toUInt8] mark)

def removeClassification (classifier : UInt32) : Call Kernel :=
  queueChange (.delete
    [classifier.toUInt8, (classifier >>> 8).toUInt8, (classifier >>> 16).toUInt8,
      (classifier >>> 24).toUInt8])

def getClassifications (k : Kernel) : Except String (List DataplaneClassification) :=
  match k.classes with
  | none => .error Errno.enoent.text
  | some classes =>
    .ok ((classes.range .listed).map fun (key, mark) => { classifier := key.toUInt32, mark })

end Classes

end Linux

def linuxNetlink : Dataplane Kernel where
  upsertVRF := Linux.upsertVRF
  removeVRF := Linux.removeVRF
  getLinksByType := Linux.getLinksByType
  insertXFRMInterface := Linux.insertXFRMInterface
  removeXFRMInterface := Linux.removeXFRMInterface
  upsertRule := Linux.upsertRule
  removeRule := Linux.removeRule
  getRules := Linux.getRules
  insertPrefixRoute := Linux.insertPrefixRoute
  removePrefixRoute := Linux.removePrefixRoute
  getPrefixRoutes := Linux.getPrefixRoutes
  insertSRRouteForPrefix := Linux.insertSRRouteForPrefix
  getSRRoutes := Linux.getSRRoutes
  removeSRRouteForPrefix := Linux.removeSRRouteForPrefix
  upsertDT46SID := Linux.upsertDT46SID
  removeSID := Linux.removeSID
  getSIDs := Linux.getSIDs
  ensureClassificationBase := Linux.ensureClassificationBase
  insertClassification := Linux.insertClassification
  getClassifications := Linux.getClassifications
  removeClassification := Linux.removeClassification

end Maeto.Dataplane
