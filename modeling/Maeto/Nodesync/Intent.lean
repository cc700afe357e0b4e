import Mathlib.Data.Prod.Lex
import Maeto.Foundation.GoMap
import Maeto.Netip.Addr

/-!
# Node intents

What the controller wants of a node. The intent of a provider edge lists, per
tenant, the portals of its sites, the SID that decapsulates into the VRF of the
tenant and the segment lists to install; the intent of a customer edge is one
tunnel. An intent carries a version, which changes when the controller starts
over, and a generation, which counts the changes within a version.
-/

namespace Maeto.Nodesync

open Foundation Netip

inductive NodeType where
  | cpe
  | pe
  deriving DecidableEq, Repr

def NodeType.text : NodeType → String
  | cpe => "cpe"
  | pe => "pe"

structure PEPortalIntent where
  hostFacingInterface : String
  tunnelInterfaceID : UInt32
  sitePrefix : Prefix
  tenantPrefix : Prefix
  deriving DecidableEq

structure PESIDInstallIntent where
  tenantID : String
  prefixRoutes : List Prefix
  segments : List Addr
  color : UInt64
  deriving DecidableEq

structure TenantIntent where
  portalIntents : GoMap String PEPortalIntent
  dt46SID : Addr
  installPaths : List PESIDInstallIntent

def TenantIntent.empty : TenantIntent where
  portalIntents := ∅
  dt46SID := .invalid
  installPaths := []

structure PETrafficClassIntent where
  color : UInt64
  dscp : List ℤ

structure PEIntent where
  nodeID : String
  tenants : GoMap String TenantIntent
  trafficClassIntent : List PETrafficClassIntent

structure CPEIntent where
  portalID : String
  tunnelInterfaceID : UInt32
  tunnelPE : String
  tunnelPEEndpointAddr : Addr
  tenantID : String
  tenantPrefix : Prefix
  sitePrefix : Prefix

inductive Intent where
  | pe (i : PEIntent)
  | cpe (i : CPEIntent)

def Intent.nodeType : Intent → NodeType
  | .pe _ => .pe
  | .cpe _ => .cpe

structure NodeIntent where
  id : String
  nodeType : NodeType
  intent : Intent
  timestamp : ℤ
  generation : UInt32
  version : UInt32

def key (keyPrefix id lane : String) : String := keyPrefix ++ "." ++ id ++ "." ++ lane

def NodeType.keyPrefix : NodeType → String
  | cpe => "cpe"
  | pe => "pop"

def laneIntent : String := "intent"

def NodeIntent.stamp (ni : NodeIntent) : ℕ ×ₗ ℕ :=
  toLex (ni.version.toNat, ni.generation.toNat)

end Maeto.Nodesync
