import Maeto.Generator.Yaml
import Maeto.Netip.Addr

/-!
# Addresses of the generated lab

Every subnet is the n-th one of its length inside a configured prefix, and `n` packs the
indexes of PoPs and the number of an instance into bit fields. The packing of edge
subnets is injective as long as an instance fits its eight bits. A link's index is not:
the upper bits of the second PoP's index fall into the field of the first
(`linkSubnetIndex_eq_iff`).
-/

namespace Maeto.Generator

open Foundation

structure Network where
  addr : ℕ
  prefixlen : ℕ
  prefixlen_le : prefixlen ≤ 128
  addr_lt : addr < 2 ^ 128
  aligned : 2 ^ (128 - prefixlen) ∣ addr
  deriving DecidableEq

namespace Network

def ofAddr (addr prefixlen : ℕ) : Except TopologyError Network :=
  if h : prefixlen ≤ 128 ∧ addr < 2 ^ 128 ∧ 2 ^ (128 - prefixlen) ∣ addr then
    .ok ⟨addr, prefixlen, h.1, h.2.1, h.2.2⟩
  else fail "has host bits set"

def text (n : Network) : String :=
  Netip.Addr.toString (.v6 (BitVec.ofNat 128 n.addr)) ++ "/" ++ toString n.prefixlen

def last (n : Network) : ℕ := n.addr + 2 ^ (128 - n.prefixlen) - 1

def subnetOf (n other : Network) : Bool := other.addr ≤ n.addr ∧ n.last ≤ other.last

def mem (addr : ℕ) (n : Network) : Bool := n.addr ≤ addr ∧ addr ≤ n.last

def overlaps (n other : Network) : Bool :=
  mem other.addr n || mem other.last n || mem n.addr other || mem n.last other

end Network

def linkPopBits : ℕ := 8
def linkInstanceBits : ℕ := 8
def cpeInstanceBits : ℕ := 8
def edgeAggregatePrefixlen : ℕ := 64 - cpeInstanceBits
def maxCpesPerPop : ℕ := 2 ^ cpeInstanceBits - 1
def lanHostBits : ℕ := 32

def nthSubnet (net : Network) (newPrefix n : ℕ) : Except TopologyError Network :=
  if 2 ^ (newPrefix - net.prefixlen) ≤ n then
    fail s!"subnet index {n} does not fit within the prefix"
  else Network.ofAddr (net.addr + n * 2 ^ (128 - newPrefix)) newPrefix

def linkSubnetIndex (lo hi inst : ℕ) : ℕ :=
  lo <<< (linkPopBits + linkInstanceBits) ||| hi <<< linkInstanceBits ||| (inst - 1)

def edgeSubnetIndex (attach inst : ℕ) : ℕ := attach <<< cpeInstanceBits ||| inst

structure HostAddress where
  addr : ℕ
  prefixlen : ℕ
  deriving DecidableEq

def host (net : Network) (offset prefixlen : ℕ) : HostAddress :=
  { addr := net.addr + offset, prefixlen := prefixlen }

def locator (net : Network) (idx : ℕ) : Except TopologyError (Network × HostAddress) := do
  let net ← nthSubnet net 48 idx
  .ok (net, host net 1 128)

def linkAddrs (net : Network) (idx : ℕ) :
    Except TopologyError (Network × HostAddress × HostAddress) := do
  let net ← nthSubnet net 64 idx
  .ok (net, host net 1 64, host net 2 64)

def edgeAddrs (net : Network) (idx : ℕ) :
    Except TopologyError (Network × HostAddress × HostAddress) :=
  linkAddrs net idx

def edgeAggregate (net : Network) (attach : ℕ) : Except TopologyError Network :=
  nthSubnet net edgeAggregatePrefixlen attach

def lanAddrs (digest : String → ℕ) (net : Network) (seed : String) :
    Except TopologyError (Network × HostAddress × HostAddress) :=
  if 128 - net.prefixlen ≤ lanHostBits then fail "site prefix is too small for a lan host"
  else
    let offset := 2 + digest seed % (2 ^ lanHostBits - 2)
    .ok (net, host net 1 net.prefixlen, host net offset net.prefixlen)

/-! ### Which indexes give the same subnet -/

def nthAddr (net : Network) (newPrefix n : ℕ) : ℕ := net.addr + n * 2 ^ (128 - newPrefix)

theorem nthAddr_injective (net : Network) (newPrefix : ℕ) :
    Function.Injective (nthAddr net newPrefix) := fun _ _ h =>
  Nat.eq_of_mul_eq_mul_right (Nat.two_pow_pos (128 - newPrefix)) (Nat.add_left_cancel h)

theorem nthSubnet_eq_ok {net : Network} {newPrefix n : ℕ} {sub : Network}
    (h : nthSubnet net newPrefix n = .ok sub) :
    n < 2 ^ (newPrefix - net.prefixlen) ∧ sub.addr = nthAddr net newPrefix n ∧
      sub.prefixlen = newPrefix := by
  unfold nthSubnet at h
  split_ifs at h with hn
  · cases h
  · unfold Network.ofAddr at h
    split_ifs at h
    · cases h
      exact ⟨not_le.mp hn, rfl, rfl⟩
    · cases h

/-- The indexes of two PoPs run together with those of two others: the fields of their
link indexes are the same. -/
def Overlap (lo hi lo' hi' : ℕ) : Prop :=
  hi % 256 = hi' % 256 ∧ lo ||| hi / 256 = lo' ||| hi' / 256

instance (lo hi lo' hi' : ℕ) : Decidable (Overlap lo hi lo' hi') :=
  inferInstanceAs (Decidable (_ ∧ _))

/-- The fields of a link's index. The second PoP's index takes eight bits, and what is
above them goes into the field of the first. -/
theorem linkSubnetIndex_eq {lo hi inst : ℕ} (hinst : inst - 1 < 256) :
    linkSubnetIndex lo hi inst = (lo ||| hi / 256) * 65536 + hi % 256 * 256 + (inst - 1) := by
  have hhi : hi <<< 8 = (hi / 256) <<< 16 ||| (hi % 256) <<< 8 := by
    have hsplit : hi = (hi / 256) <<< 8 ||| hi % 256 := by
      rw [← Nat.shiftLeft_add_eq_or_of_lt (Nat.mod_lt hi (by norm_num) : hi % 256 < 2 ^ 8),
        Nat.shiftLeft_eq]
      omega
    calc hi <<< 8 = ((hi / 256) <<< 8 ||| hi % 256) <<< 8 := by rw [← hsplit]
      _ = (hi / 256) <<< 16 ||| (hi % 256) <<< 8 := by
        rw [Nat.shiftLeft_or_distrib, ← Nat.shiftLeft_add]
  have hlow : (hi % 256) <<< 8 + (inst - 1) < 2 ^ 16 := by
    rw [Nat.shiftLeft_eq]
    omega
  calc linkSubnetIndex lo hi inst
      = (lo ||| hi / 256) <<< 16 ||| ((hi % 256) <<< 8 ||| (inst - 1)) := by
        rw [linkSubnetIndex, linkPopBits, linkInstanceBits, hhi, ← Nat.or_assoc,
          ← Nat.shiftLeft_or_distrib, Nat.or_assoc]
    _ = (lo ||| hi / 256) <<< 16 ||| ((hi % 256) <<< 8 + (inst - 1)) := by
        rw [Nat.shiftLeft_add_eq_or_of_lt (by omega : inst - 1 < 2 ^ 8)]
    _ = (lo ||| hi / 256) <<< 16 + ((hi % 256) <<< 8 + (inst - 1)) := by
        rw [Nat.shiftLeft_add_eq_or_of_lt hlow]
    _ = (lo ||| hi / 256) * 65536 + hi % 256 * 256 + (inst - 1) := by
        rw [Nat.shiftLeft_eq, Nat.shiftLeft_eq]
        ring

/-- Two links have the same index exactly when their instances agree and the indexes of
their PoPs run together. -/
theorem linkSubnetIndex_eq_iff {lo hi inst lo' hi' inst' : ℕ} (hinst : 1 ≤ inst ∧ inst ≤ 256)
    (hinst' : 1 ≤ inst' ∧ inst' ≤ 256) :
    linkSubnetIndex lo hi inst = linkSubnetIndex lo' hi' inst' ↔
      inst = inst' ∧ Overlap lo hi lo' hi' := by
  rw [linkSubnetIndex_eq (by omega), linkSubnetIndex_eq (by omega), Overlap]
  have hmod := Nat.mod_lt hi (by norm_num : 0 < 256)
  have hmod' := Nat.mod_lt hi' (by norm_num : 0 < 256)
  generalize lo ||| hi / 256 = x
  generalize lo' ||| hi' / 256 = x'
  omega

theorem overlap_iff_of_lt {lo hi lo' hi' : ℕ} (hhi : hi < 256) (hhi' : hi' < 256) :
    Overlap lo hi lo' hi' ↔ lo = lo' ∧ hi = hi' := by
  rw [Overlap, Nat.mod_eq_of_lt hhi, Nat.mod_eq_of_lt hhi', Nat.div_eq_of_lt hhi,
    Nat.div_eq_of_lt hhi', Nat.or_zero, Nat.or_zero, and_comm]

theorem edgeSubnetIndex_eq {attach inst : ℕ} (hinst : inst < 256) :
    edgeSubnetIndex attach inst = attach * 256 + inst := by
  rw [edgeSubnetIndex, cpeInstanceBits, ← Nat.shiftLeft_add_eq_or_of_lt (by omega : inst < 2 ^ 8),
    Nat.shiftLeft_eq]

theorem edge_subnetOf_iff {net sub agg : Network} {attach inst owner : ℕ} (hinst : inst < 256)
    (hsub : nthSubnet net 64 (edgeSubnetIndex attach inst) = .ok sub)
    (hagg : edgeAggregate net owner = .ok agg) : sub.subnetOf agg = true ↔ attach = owner := by
  obtain ⟨-, haddr, hlen⟩ := nthSubnet_eq_ok hsub
  obtain ⟨-, haddr', hlen'⟩ := nthSubnet_eq_ok hagg
  have hlen'' : agg.prefixlen = 56 := hlen'
  rw [edgeSubnetIndex_eq hinst, nthAddr] at haddr
  rw [nthAddr] at haddr'
  have hpow : (2 : ℕ) ^ (128 - edgeAggregatePrefixlen) = 256 * 2 ^ 64 := by decide
  rw [hpow] at haddr'
  simp only [Network.subnetOf, Network.last, hlen, hlen'', haddr, haddr', decide_eq_true_eq,
    show (128 - 64 : ℕ) = 64 from rfl, show (2 : ℕ) ^ (128 - 56) = 256 * 2 ^ 64 by decide]
  omega

end Maeto.Generator
