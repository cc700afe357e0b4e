import Mathlib.Algebra.Group.Nat.Defs
import Mathlib.Data.List.Infix
import Maeto.Foundation.GoMap

/-!
# Tunnel updates of a provider edge

The agent of a provider edge watches the events of the IKE daemon. For a child SA that
is installed it reads the interface id and the portal off the SA and sends them to the
controller. An SA in any other state is not reported: the controller does not learn that
a tunnel went down.
-/

namespace Maeto.Agent

open Foundation

structure ChildSA where
  state : String
  ifIDIn : String
  ifIDOut : String
  deriving DecidableEq

structure IKESA where
  state : String
  remoteID : String
  childSAs : GoMap String ChildSA

structure UpDownEvent where
  event : String
  ike : IKESA

inductive UpdateError where
  | notChildUpDown (event : String)
  | childSACount (n : ℕ)
  | invalidState (ikeState childState : String)
  | ifIDsDiffer (ifIDIn ifIDOut : String)
  | ifIDSyntax (ifID : String)
  | ifIDRange (ifID : String)
  | ifIDZero
  | remoteID (remoteID : String)
  deriving DecidableEq

structure PETunnelUpdateRequest where
  portalID : String
  ifID : UInt32
  nodeID : String
  deriving DecidableEq

section Parsing

def hexDigit (c : Char) : Option ℕ :=
  if '0' ≤ c ∧ c ≤ '9' then some (c.toNat - '0'.toNat)
  else if 'a' ≤ c ∧ c ≤ 'f' then some (c.toNat - 'a'.toNat + 10)
  else if 'A' ≤ c ∧ c ≤ 'F' then some (c.toNat - 'A'.toNat + 10)
  else none

def parseUint (s : String) : Except UpdateError ℕ :=
  let value := s.toList.foldlM (fun n c => (hexDigit c).map (16 * n + ·)) 0
  match s.toList, value with
  | [], _ => .error (.ifIDSyntax s)
  | _, none => .error (.ifIDSyntax s)
  | _, some n => if n < 2 ^ 32 then .ok n else .error (.ifIDRange s)

def ChildSA.ifID (c : ChildSA) : Except UpdateError UInt32 :=
  if c.ifIDIn ≠ c.ifIDOut then .error (.ifIDsDiffer c.ifIDIn c.ifIDOut)
  else
    match parseUint c.ifIDIn with
    | .error err => .error err
    | .ok n => if n = 0 then .error .ifIDZero else .ok (UInt32.ofNat n)

def cutSuffix (s tail : String) : Option String :=
  if tail.toList <:+ s.toList then
    some (String.ofList (s.toList.take (s.toList.length - tail.toList.length)))
  else none

end Parsing

def sendPETunnelUpdate (nodeID : String) (ikeSA : IKESA) (childSA : ChildSA) :
    Except UpdateError PETunnelUpdateRequest :=
  if ikeSA.state ≠ "ESTABLISHED" ∨ childSA.state ≠ "INSTALLED" then
    .error (.invalidState ikeSA.state childSA.state)
  else
    match childSA.ifID with
    | .error err => .error err
    | .ok ifID =>
      match cutSuffix ikeSA.remoteID ".cpe.maeto.net" with
      | none => .error (.remoteID ikeSA.remoteID)
      | some portalID =>
        if portalID = "" ∨ '.' ∈ portalID.toList then .error (.remoteID ikeSA.remoteID)
        else .ok { portalID, ifID, nodeID }

def watchTunnelUpdates (nodeID : String) (e : UpDownEvent) :
    Except UpdateError PETunnelUpdateRequest :=
  if e.event ≠ "child-updown" then .error (.notChildUpDown e.event)
  else
    match e.ike.childSAs.entries with
    | [childSA] => sendPETunnelUpdate nodeID e.ike childSA.2
    | childSAs => .error (.childSACount childSAs.length)

section Reported

variable {nodeID : String} {req : PETunnelUpdateRequest}

/-- The event is about an SA with an installed child. -/
def UpDownEvent.Installed (e : UpDownEvent) : Prop :=
  e.ike.state = "ESTABLISHED" ∧ ∃ childSA ∈ e.ike.childSAs.entries, childSA.2.state = "INSTALLED"

theorem parseUint_lt {s : String} {n : ℕ} (h : parseUint s = .ok n) : n < 2 ^ 32 := by
  unfold parseUint at h
  dsimp only at h
  split at h
  · cases h
  · cases h
  · split_ifs at h with hlt
    cases h
    exact hlt

theorem ChildSA.ifID_ne_zero {c : ChildSA} {id : UInt32} (h : c.ifID = .ok id) : id ≠ 0 := by
  unfold ChildSA.ifID at h
  split_ifs at h
  split at h
  · cases h
  · rename_i n hn
    split_ifs at h with hzero
    cases h
    intro hid
    have := congrArg UInt32.toNat hid
    rw [UInt32.toNat_ofNat', Nat.mod_eq_of_lt (parseUint_lt hn)] at this
    exact hzero this

theorem sendPETunnelUpdate_eq_ok {ikeSA : IKESA} {childSA : ChildSA}
    (h : sendPETunnelUpdate nodeID ikeSA childSA = .ok req) :
    ikeSA.state = "ESTABLISHED" ∧ childSA.state = "INSTALLED" ∧ req.ifID ≠ 0 := by
  unfold sendPETunnelUpdate at h
  split_ifs at h with hstate
  rw [not_or, not_not, not_not] at hstate
  refine ⟨hstate.1, hstate.2, ?_⟩
  split at h
  · cases h
  · rename_i ifID hifID
    split at h
    · cases h
    · split_ifs at h
      cases h
      exact ChildSA.ifID_ne_zero hifID

theorem watchTunnelUpdates_eq_ok {e : UpDownEvent} (h : watchTunnelUpdates nodeID e = .ok req) :
    e.Installed ∧ req.ifID ≠ 0 := by
  unfold watchTunnelUpdates at h
  split_ifs at h
  split at h
  · rename_i childSA hentries
    obtain ⟨hike, hchild, hifID⟩ := sendPETunnelUpdate_eq_ok h
    refine ⟨⟨hike, childSA, ?_, hchild⟩, hifID⟩
    rw [hentries]
    exact List.mem_singleton_self childSA
  · cases h

end Reported

end Maeto.Agent
