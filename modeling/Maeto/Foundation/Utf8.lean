import Maeto.Foundation.Bytes

/-!
# Valid UTF-8

The check of `unicode/utf8`: the first byte of a sequence says how long it is and in which
range the second byte must be, and the bytes after that are continuation bytes.
-/

namespace Foundation.Utf8

def first (x : UInt8) : Option (ℕ × UInt8 × UInt8) :=
  if x < 0xC2 then none
  else if x < 0xE0 then some (2, 0x80, 0xBF)
  else if x = 0xE0 then some (3, 0xA0, 0xBF)
  else if x = 0xED then some (3, 0x80, 0x9F)
  else if x < 0xF0 then some (3, 0x80, 0xBF)
  else if x = 0xF0 then some (4, 0x90, 0xBF)
  else if x < 0xF4 then some (4, 0x80, 0xBF)
  else if x = 0xF4 then some (4, 0x80, 0x8F)
  else none

def continuation (x : UInt8) : Bool := 0x80 ≤ x && x ≤ 0xBF

def valid : Bytes → Bool
  | [] => true
  | x :: b =>
    if x < 0x80 then valid b
    else match first x, b with
      | some (2, lo, hi), y :: b => lo ≤ y && y ≤ hi && valid b
      | some (3, lo, hi), y :: z :: b => lo ≤ y && y ≤ hi && continuation z && valid b
      | some (4, lo, hi), y :: z :: w :: b =>
        lo ≤ y && y ≤ hi && continuation z && continuation w && valid b
      | _, _ => false

end Foundation.Utf8
