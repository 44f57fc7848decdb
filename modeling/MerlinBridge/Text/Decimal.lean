import MerlinBridge.Text.Bytes

/-!
# Integers in decimal

Lines, columns, offsets and exit codes are 64-bit signed words. They are written without leading
zeros and with a minus sign where they are negative. A number that a user types may have either
sign and any number of leading zeros, and has to fit the word.
-/

namespace MerlinBridge

namespace Decimal

def digit (n : Nat) : UInt8 :=
  (48 + n).toUInt8

/-- Puts the decimal digits of `n` in front of `acc`, at most `fuel` of them. -/
def digitsOnto : (fuel n : Nat) → Bytes → Bytes
  | 0, _, acc => acc
  | fuel + 1, n, acc =>
    if n < 10 then digit n :: acc else digitsOnto fuel (n / 10) (digit (n % 10) :: acc)

/-- A natural number in decimal. A number has no more digits than its successor counts. -/
def ofNat (n : Nat) : Bytes :=
  digitsOnto (n + 1) n []

def ofInt : Int → Bytes
  | .ofNat n => ofNat n
  | .negSucc n => Bytes.byte '-' :: ofNat (n + 1)

def ofInt64 (n : Int64) : Bytes :=
  ofInt n.toInt

def valueFrom (acc : Nat) (ds : Bytes) : Nat :=
  ds.foldl (fun n d => n * 10 + (d.toNat - 48)) acc

def value (ds : Bytes) : Nat :=
  valueFrom 0 ds

def nat? (b : Bytes) : Option Nat :=
  if b.isEmpty || !b.all Bytes.isDigit then none else some (value b)

def fitsInt64 (n : Int) : Bool :=
  -0x8000000000000000 ≤ n && n < 0x8000000000000000

def int? : Bytes → Option Int
  | [] => none
  | c :: rest =>
    if c = Bytes.byte '-' then (nat? rest).map fun n => -(n : Int)
    else if c = Bytes.byte '+' then (nat? rest).map fun n => (n : Int)
    else (nat? (c :: rest)).map fun n => (n : Int)

def int64? (b : Bytes) : Option Int64 :=
  (int? b).bind fun n => if fitsInt64 n then some (Int64.ofInt n) else none

end Decimal

end MerlinBridge
