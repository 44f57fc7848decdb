import MerlinBridge.Text.Bytes

/-!
# Base64

Three bytes are written as four digits of six bits each. At the end one or two bytes are written as
two or three digits, and equals signs fill the place of the missing ones. Line breaks do not count.
Bits of the last digit that belong to no byte do not count either.
-/

namespace MerlinBridge

namespace Base64

def digit? (b : UInt8) : Option Nat :=
  let n := b.toNat
  if 0x41 ≤ n && n ≤ 0x5A then some (n - 0x41)
  else if 0x61 ≤ n && n ≤ 0x7A then some (n - 0x61 + 26)
  else if 0x30 ≤ n && n ≤ 0x39 then some (n - 0x30 + 52)
  else if n = 0x2B then some 62
  else if n = 0x2F then some 63
  else none

def fill : UInt8 := Bytes.byte '='

def firstByte (a b : Nat) : UInt8 :=
  (a * 4 + b / 16).toUInt8

/-- The second byte of four digits, of which `b` and `c` are the middle ones. -/
def secondByte (b c : Nat) : UInt8 :=
  (b % 16 * 16 + c / 4).toUInt8

/-- The third byte of four digits, of which `c` and `d` are the last ones. -/
def thirdByte (c d : Nat) : UInt8 :=
  (c % 4 * 64 + d).toUInt8

def ofDigits? : Bytes → Option Bytes
  | [] => some []
  | w :: x :: y :: z :: rest => do
    let a ← digit? w
    let b ← digit? x
    if y = fill then
      if z = fill && rest.isEmpty then pure [firstByte a b] else none
    else
      let c ← digit? y
      if z = fill then
        if rest.isEmpty then pure [firstByte a b, secondByte b c] else none
      else
        let d ← digit? z
        let bytes ← ofDigits? rest
        pure (firstByte a b :: secondByte b c :: thirdByte c d :: bytes)
  | _ => none

def decode? (text : Bytes) : Option Bytes :=
  ofDigits? (text.filter fun b => b ≠ 0x0A && b ≠ 0x0D)

end Base64

end MerlinBridge
