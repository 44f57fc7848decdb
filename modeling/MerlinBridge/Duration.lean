import MerlinBridge.Number.Binary64
import MerlinBridge.Text.Decimal
import MerlinBridge.Text.Quoted

/-!
# Durations

A duration is a 64-bit number of nanoseconds. It is written with the units that it needs, from hours
down to a decimal fraction of seconds, or as a decimal fraction of the largest small unit when it is
less than a second. It is read as a sign and a sum of decimal numbers, each with its unit.
-/

namespace MerlinBridge

abbrev Duration := Int64

namespace Duration

def microsecond : Nat := 1000

def millisecond : Nat := 1000000

def second : Nat := 1000000000

def minute : Nat := 60 * second

def hour : Nat := 60 * minute

/-- The point and the digits after it of `n / 10 ^ places`, without zeros at the end. -/
def fraction (n places : Nat) : Bytes :=
  let digits := Decimal.ofNat (n % tenTo places)
  let zeros := List.replicate (places - digits.length) (Bytes.byte '0')
  let kept := ((zeros ++ digits).reverse.dropWhile (· = Bytes.byte '0')).reverse
  if places = 0 ∨ kept = [] then [] else Bytes.byte '.' :: kept

def decimal (n places : Nat) : Bytes :=
  Decimal.ofNat (n / tenTo places) ++ fraction n places

def belowSecond (n : Nat) : Bytes :=
  if n = 0 then "0s"
  else if n < microsecond then decimal n 0 ++ "ns"
  else if n < millisecond then decimal n 3 ++ "µs"
  else decimal n 6 ++ "ms"

def fromSecond (n : Nat) : Bytes :=
  let seconds := Decimal.ofNat (n / second % 60) ++ fraction n 9 ++ "s"
  let minutes := n / minute
  if minutes = 0 then seconds
  else if minutes / 60 = 0 then Decimal.ofNat minutes ++ "m" ++ seconds
  else Decimal.ofNat (minutes / 60) ++ "h" ++ Decimal.ofNat (minutes % 60) ++ "m" ++ seconds

def magnitudeText (n : Nat) : Bytes :=
  if n < second then belowSecond n else fromSecond n

def text (d : Duration) : Bytes :=
  if d < 0 then Bytes.byte '-' :: magnitudeText d.toInt.natAbs else magnitudeText d.toInt.natAbs

inductive Error where
  | invalid (input : Bytes)
  | missingUnit (input : Bytes)
  | unknownUnit (unit input : Bytes)
deriving DecidableEq

namespace Error

def message : Error → Bytes
  | invalid input => "time: invalid duration " ++ Quoted.quoteAscii input
  | missingUnit input => "time: missing unit in duration " ++ Quoted.quoteAscii input
  | unknownUnit unit input =>
    "time: unknown unit " ++ Quoted.quoteAscii unit ++ " in duration " ++ Quoted.quoteAscii input

end Error

/-- The nanoseconds of a unit. The micro sign and the Greek letter mu both stand for the millionth
part. -/
def unit? (u : Bytes) : Option Nat :=
  if u = "ns" then some 1
  else if u = "us" || u = "µs" || u = "μs" then some microsecond
  else if u = "ms" then some millisecond
  else if u = "s" then some second
  else if u = "m" then some minute
  else if u = "h" then some hour
  else none

def whole? : (digits : Bytes) → (acc : Nat) → Option Nat
  | [], acc => some acc
  | d :: rest, acc =>
    if 0x8000000000000000 / 10 < acc then none
    else
      let n := acc * 10 + (d.toNat - 48)
      if 0x8000000000000000 < n then none else whole? rest n

/-- The digits of a fraction as a number, and the power of ten that it is over, in double precision.
Digits that would take the number past 63 bits are left out, and all that follow them. -/
def fractionDigits : (digits : Bytes) → (acc : Nat) → (scale : Binary64) → Nat × Binary64
  | [], acc, scale => (acc, scale)
  | d :: rest, acc, scale =>
    if 0x7FFFFFFFFFFFFFFF / 10 < acc then (acc, scale)
    else
      let n := acc * 10 + (d.toNat - 48)
      if 0x8000000000000000 < n then (acc, scale)
      else fractionDigits rest n (scale.mul (.ofNat 10))

/-- The nanoseconds of the fraction `f / scale` of a unit, worked out in double precision and cut to
an integer. -/
def fractionOf (f : Nat) (scale : Binary64) (unit : Nat) : Nat :=
  ((Binary64.ofNat f).mul ((Binary64.ofNat unit).div scale)).floor?.getD 0

def isNumeric (b : UInt8) : Bool :=
  b = Bytes.byte '.' || Bytes.isDigit b

/-- One number with its unit at the front of `s`, in nanoseconds, and what follows it. -/
def term (input s : Bytes) : Except Error (Nat × Bytes) := do
  let digits := s.takeWhile Bytes.isDigit
  let after := s.dropWhile Bytes.isDigit
  let some v := whole? digits 0 | throw (.invalid input)
  let hasPoint := after.head? = some (Bytes.byte '.')
  let places := if hasPoint then (after.drop 1).takeWhile Bytes.isDigit else []
  let rest := if hasPoint then (after.drop 1).dropWhile Bytes.isDigit else after
  if digits = [] ∧ places = [] then throw (.invalid input)
  let name := rest.takeWhile (!isNumeric ·)
  if name = [] then throw (.missingUnit input)
  let some unit := unit? name | throw (.unknownUnit name input)
  if 0x8000000000000000 / unit < v then throw (.invalid input)
  let (f, scale) := fractionDigits places 0 (.ofNat 1)
  let n := v * unit + (if f = 0 then 0 else fractionOf f scale unit)
  if f ≠ 0 ∧ 0x8000000000000000 < n then throw (.invalid input)
  pure (n, rest.dropWhile (!isNumeric ·))

/-- The sum of the terms of `s`, kept in 64 bits. Every term takes at least one byte. -/
def sum (input : Bytes) : (fuel : Nat) → (s : Bytes) → (acc : Nat) → Except Error Nat
  | _, [], acc => .ok acc
  | 0, _ :: _, _ => .error (.invalid input)
  | fuel + 1, c :: rest, acc => do
    if !isNumeric c then throw (.invalid input)
    let (n, after) ← term input (c :: rest)
    let total := (acc + n) % 0x10000000000000000
    if 0x8000000000000000 < total then throw (.invalid input)
    sum input fuel after total

def parse (input : Bytes) : Except Error Duration := do
  let negative := input.head? = some (Bytes.byte '-')
  let s := if negative || input.head? = some (Bytes.byte '+') then input.drop 1 else input
  if s = "0" then return 0
  if s = [] then throw (.invalid input)
  let n ← sum input s.length s 0
  if negative then return -(Int64.ofNat n)
  if 0x7FFFFFFFFFFFFFFF < n then throw (.invalid input)
  return Int64.ofNat n

end Duration

end MerlinBridge
