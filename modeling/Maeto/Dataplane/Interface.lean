import Maeto.Dataplane.Resource

/-!
# The dataplane interface

What the reconciler can read from a dataplane and what it can ask of it. The
state `σ` of the dataplane is left open: a read looks at it, and a call changes
it and may report an error, also after having changed something. Nothing is
assumed about the calls here; `Linux` is the implementation over netlink.

Of the records that are read, the fields that the reconciler looks at are kept.
-/

namespace Maeto.Dataplane

open Netip

structure IPNet where
  ip : Addr
  ones : ℕ
  deriving DecidableEq

structure DataplaneVRF where
  name : String
  index : ℤ
  tableID : UInt32
  deriving DecidableEq

structure DataplaneXFRM where
  name : String
  index : ℤ
  parentName : String
  masterName : String
  ifID : UInt32
  deriving DecidableEq

inductive DataplaneLink where
  | vrf (v : DataplaneVRF)
  | xfrm (x : DataplaneXFRM)
  deriving DecidableEq

structure DataplaneRoute where
  dev : String
  dst : IPNet
  table : ℤ
  via : Addr
  deriving DecidableEq

structure DataplaneRule where
  priority : ℤ
  src : Option Prefix
  table : ℤ
  mark : ℤ
  iif : String
  deriving DecidableEq

structure DataplaneSID where
  dst : IPNet
  vrfTableID : ℤ
  encapType : EncapType
  deriving DecidableEq

structure DataplaneSRRoute where
  dst : IPNet
  table : ℤ
  color : ℤ
  segments : List Addr
  deriving DecidableEq

structure DataplaneClassification where
  classifier : UInt32
  mark : UInt32
  deriving DecidableEq

abbrev Call (σ : Type) := σ → Option String × σ

set_option linter.dupNamespace false in
structure Dataplane (σ : Type) where
  upsertVRF : (tableName : String) → (tableID : ℤ) → Call σ
  removeVRF : (linkIndex : ℤ) → Call σ
  getLinksByType : (ifaceType : String) → σ → Except String (List DataplaneLink)
  insertXFRMInterface : (interfaceName underLayIface : String) → (ifID : UInt32) →
    (masterVRFName : Option String) → Call σ
  removeXFRMInterface : (linkIndex : ℤ) → Call σ
  upsertRule : (priority : ℤ) → (src : Option Prefix) → (tableID mark : ℤ) → (iifName : String) →
    Call σ
  removeRule : (priority : ℤ) → (src : Option Prefix) → (tableID mark : ℤ) → (iifName : String) →
    Call σ
  getRules : σ → Except String (List DataplaneRule)
  insertPrefixRoute : (tunnelIface : String) → (tableID : ℤ) → Prefix → (via : Addr) → Call σ
  removePrefixRoute : Prefix → (tableID : ℤ) → Call σ
  getPrefixRoutes : σ → Except String (List DataplaneRoute)
  insertSRRouteForPrefix : Prefix → (tableID : ℤ) → (segments : List Addr) → Call σ
  getSRRoutes : σ → Except String (List DataplaneSRRoute)
  removeSRRouteForPrefix : Prefix → (tableID : ℤ) → Call σ
  upsertDT46SID : (sid : Addr) → (vrfTableID : ℤ) → Call σ
  removeSID : (sid : Addr) → Call σ
  getSIDs : σ → Except String (List DataplaneSID)
  ensureClassificationBase : Call σ
  insertClassification : (classifier mark : UInt32) → Call σ
  getClassifications : σ → Except String (List DataplaneClassification)
  removeClassification : (classifier : UInt32) → Call σ

end Maeto.Dataplane
