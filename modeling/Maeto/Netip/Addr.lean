import Maeto.Foundation.Text

/-!
# Internet addresses and prefixes

An address is invalid (the zero value), an IPv4 address or an IPv6 address. A
prefix is an address with a length, or an address with no length when it is
invalid, as `PrefixFrom` leaves it for a length out of range. Zones are not
represented: no intent or topology file carries one.

The text of an IPv6 address writes its eight hextets in lower-case hexadecimal
without leading zeros and abbreviates the first longest run of at least two
zero hextets to `::`. An IPv4 address mapped into IPv6 keeps its dotted form.
-/

namespace Maeto.Netip

open Foundation.Text

inductive Addr where
  | invalid
  | v4 (bits : BitVec 32)
  | v6 (bits : BitVec 128)
  deriving DecidableEq, Repr

namespace Addr

def isValid : Addr → Bool
  | invalid => false
  | _ => true

def is6 : Addr → Bool
  | v6 _ => true
  | _ => false

def bitLen : Addr → ℕ
  | invalid => 0
  | v4 _ => 32
  | v6 _ => 128

def as16 : Addr → BitVec 128
  | invalid => 0
  | v4 a => 0xffff#96 ++ a
  | v6 a => a

def ipv6Unspecified : Addr := v6 0

def hextet (a : BitVec 128) (i : ℕ) : ℕ :=
  (a.toNat >>> (16 * (7 - i))) % 65536

def hextets (a : BitVec 128) : List ℕ :=
  (List.range 8).map (hextet a)

def zeroRun (h : List ℕ) (i : ℕ) : ℕ :=
  ((h.drop i).takeWhile fun x => x == 0).length

def longestRun (h : List ℕ) : ℕ × ℕ :=
  (List.range 8).foldl
    (fun best i =>
      if 2 ≤ zeroRun h i ∧ best.2 - best.1 < zeroRun h i then (i, i + zeroRun h i) else best)
    (255, 255)

def hex (n : ℕ) : List Char := Nat.toDigits 16 n

def abbreviated (h : List ℕ) (s e : ℕ) : List Char :=
  joined ':' ((h.take s).map hex) ++ ':' :: ':' :: joined ':' ((h.drop e).map hex)

def text6 (h : List ℕ) : List Char :=
  if (longestRun h).1 = 255 then joined ':' (h.map hex)
  else abbreviated h (longestRun h).1 (longestRun h).2

def octet (a : BitVec 32) (i : ℕ) : ℕ :=
  (a.toNat >>> (8 * (3 - i))) % 256

def text4 (a : BitVec 32) : List Char :=
  joined '.' ((List.range 4).map fun i => Nat.toDigits 10 (octet a i))

def is4In6 (a : BitVec 128) : Bool :=
  a.toNat >>> 32 == 0xffff

def text : Addr → List Char
  | invalid => "invalid IP".toList
  | v4 a => text4 a
  | v6 a => if is4In6 a then "::ffff:".toList ++ text4 (a.setWidth 32) else text6 (hextets a)

def toString (a : Addr) : String := String.ofList a.text

example : toString (v6 0) = "::" := by decide +kernel

example : toString (v6 0xfc0000000001ff8c0000000000000000) = "fc00:0:1:ff8c::" := by
  decide +kernel

example : toString (v6 0x20010db8000000010001000100010001) = "2001:db8:0:1:1:1:1:1" := by
  decide +kernel

end Addr

structure Prefix where
  ip : Addr
  bits : Option ℕ
  bits_le : ∀ b ∈ bits, ip.isValid ∧ b ≤ ip.bitLen
  deriving DecidableEq

namespace Prefix

def invalid : Prefix where
  ip := .invalid
  bits := none
  bits_le := by simp

def prefixFrom (ip : Addr) (bits : ℕ) : Prefix where
  ip := ip
  bits := if ip.isValid ∧ bits ≤ ip.bitLen then some bits else none
  bits_le := by
    intro b hb
    split_ifs at hb with h
    · cases hb
      exact h
    · cases hb

def isValid (p : Prefix) : Bool := p.bits.isSome

def masked (p : Prefix) : Prefix :=
  match p.bits, p.ip with
  | none, _ => invalid
  | some _, .invalid => invalid
  | some b, .v4 a => prefixFrom (.v4 (a >>> (32 - b) <<< (32 - b))) b
  | some b, .v6 a => prefixFrom (.v6 (a >>> (128 - b) <<< (128 - b))) b

def text (p : Prefix) : List Char :=
  match p.bits with
  | none => "invalid Prefix".toList
  | some b => p.ip.text ++ '/' :: Nat.toDigits 10 b

def toString (p : Prefix) : String := String.ofList p.text

def default6 : Prefix := prefixFrom Addr.ipv6Unspecified 0

example : toString default6 = "::/0" := by decide +kernel

end Prefix

end Maeto.Netip
