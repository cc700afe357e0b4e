import Maeto.ControlPlane.Topology
import Maeto.Dataplane.Resource
import Maeto.Nodesync.Intent

/-!
# The SIDs of the tenants

A tenant has at most one SID of a kind under the locator of a node. The function part
of a new SID comes from a cursor, through a permutation of the range of function
identifiers. An allocation is written to the database together with the cursor, in one
transaction, before it is kept in memory, and a SID that is already allocated is passed
over, a few times.

A call to the database may fail. What goes wrong in the calls to come is listed in the
database itself, and a call takes its outcome from the front of the list.
-/

namespace Maeto.ControlPlane

open Foundation Netip
open Dataplane (EncapType)
open Nodesync (NodeType)

namespace Permute

def low : UInt16 := 0xf001

def high : UInt16 := 0xffff

def n : UInt16 := high - low + 1

def a : UInt16 := 1366

def c : UInt16 := 1247

end Permute

def permute (cursor : UInt16) : UInt16 :=
  let x := cursor % Permute.n
  let x := (Permute.a * x + Permute.c) % Permute.n
  Permute.low + x

def withHextets (base : Prefix) (offsetBits : ℕ) (funcID : UInt16) : Addr :=
  let b := base.ip.as16
  let shift := 112 - 8 * (offsetBits / 8)
  .v6 ((b &&& ~~~(0xffff#128 <<< shift)) ||| (BitVec.ofNat 128 funcID.toNat <<< shift))

section Database

structure SIDAllocation where
  sid : Addr
  locator : Prefix
  tenantID : String
  sidType : String

structure NodeGeneration where
  version : ℤ
  generation : ℤ

structure Database where
  sidAllocations : List SIDAllocation
  sidCursor : ℤ
  nodeGenerations : GoMap (NodeType × String) NodeGeneration
  outcomes : List (Option String)

namespace Database

def empty : Database where
  sidAllocations := []
  sidCursor := 0
  nodeGenerations := ∅
  outcomes := []

def call (db : Database) : Option String × Database :=
  match db.outcomes with
  | [] => (none, db)
  | o :: outcomes => (o, { db with outcomes })

def inTx (db : Database) (fn : Database → Except String Database) : Option String × Database :=
  match db.call with
  | (some err, db) => (some err, db)
  | (none, db) =>
    match fn db with
    | .error err => (some err, db)
    | .ok db' => (none, db')

def createSIDAllocation (db : Database) (row : SIDAllocation) : Except String Database :=
  if ¬ row.locator.isValid then
    .error "null value in column locator violates not-null constraint"
  else if row.locator.masked ≠ row.locator then .error "invalid cidr value"
  else if db.sidAllocations.any fun r => r.sid = row.sid ∨
      r.locator = row.locator ∧ r.tenantID = row.tenantID ∧ r.sidType = row.sidType then
    .error "duplicate key value violates unique constraint"
  else .ok { db with sidAllocations := db.sidAllocations ++ [row] }

def setSIDCursor (cursor : ℤ) (db : Database) : Database := { db with sidCursor := cursor }

end Database

end Database

structure SIDState where
  sidAllocationMap : GoMap Addr Bool
  sidTenantMap : GoMap String Addr
  sidCursor : UInt16
  db : Database

def tenantMapKey (locatorPrefix : Prefix) (tenantID : String) (sidType : EncapType) : String :=
  locatorPrefix.ip.toString ++ "." ++ tenantID ++ "." ++ sidType.text

def maxSIDCollisionChecks : ℕ := 5

def generateSID (locatorPrefix : Prefix) (tenantID : String) (sidType : EncapType) :
    ℕ → SIDState → Except String Addr × SIDState
  | 0, s => (.error "couldn't generate SID: too many collisions, tried 5 times", s)
  | rounds + 1, s =>
    let sid := withHextets locatorPrefix 48 (permute s.sidCursor)
    if s.sidAllocationMap.getD sid false then
      generateSID locatorPrefix tenantID sidType rounds { s with sidCursor := s.sidCursor + 1 }
    else
      match s.db.inTx fun db =>
          (db.createSIDAllocation
            { sid, locator := locatorPrefix, tenantID, sidType := sidType.text }).map
          (Database.setSIDCursor (s.sidCursor + 1).toNat) with
      | (some err, db) => (.error err, { s with db })
      | (none, db) =>
        (.ok sid,
          { sidAllocationMap := s.sidAllocationMap.insert sid true
            sidTenantMap := s.sidTenantMap.insert (tenantMapKey locatorPrefix tenantID sidType) sid
            sidCursor := s.sidCursor + 1
            db })

def getOrGenerateSID (locatorPrefix : Prefix) (tenantID : String) (sidType : EncapType)
    (s : SIDState) : Except String Addr × SIDState :=
  match s.sidTenantMap.lookup (tenantMapKey locatorPrefix tenantID sidType) with
  | some existingSID =>
    (.ok existingSID, { s with sidAllocationMap := s.sidAllocationMap.insert existingSID true })
  | none => generateSID locatorPrefix tenantID sidType maxSIDCollisionChecks s

end Maeto.ControlPlane
