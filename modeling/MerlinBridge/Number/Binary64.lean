/-!
# Double precision magnitudes

The magnitude of a double precision number is a significand below 2^53 times a power of two, or
infinite. A ratio of natural numbers is rounded to the nearest such number, and halfway between two
to the one with the even significand. Everything is exact arithmetic on natural numbers, so the
result does not depend on the machine.
-/

namespace MerlinBridge

def twoTo (n : Nat) : Nat :=
  Nat.pow 2 n

def tenTo (n : Nat) : Nat :=
  Nat.pow 10 n

@[simp] theorem twoTo_zero : twoTo 0 = 1 := rfl

theorem twoTo_succ (n : Nat) : twoTo (n + 1) = twoTo n * 2 := rfl

theorem twoTo_pos (n : Nat) : 0 < twoTo n := by
  induction n with
  | zero => decide
  | succ n ih =>
    rw [twoTo_succ]
    omega

@[simp] theorem tenTo_zero : tenTo 0 = 1 := rfl

theorem tenTo_succ (n : Nat) : tenTo (n + 1) = tenTo n * 10 := rfl

theorem tenTo_pos (n : Nat) : 0 < tenTo n := by
  induction n with
  | zero => decide
  | succ n ih =>
    rw [tenTo_succ]
    omega

inductive Binary64 where
  | finite (significand : Nat) (exponent : Int)
  | infinite
deriving DecidableEq, Repr

namespace Binary64

def zero : Binary64 := finite 0 (-1074)

def minExponent : Int := -1074

def maxExponent : Int := 971

def roundDiv (num den : Nat) : Nat :=
  let q := num / den
  let r := num % den
  if 2 * r < den then q
  else if den < 2 * r then q + 1
  else if q % 2 = 0 then q else q + 1

def scale (num den : Nat) (e : Int) : Nat × Nat :=
  if 0 ≤ e then (num, den * twoTo e.toNat) else (num * twoTo (-e).toNat, den)

/-- The exponent at which the significand of `num / den` has 53 bits, or the least exponent. -/
def exponentFor (num den : Nat) : Int :=
  let e : Int := (num.log2 : Int) - (den.log2 : Int) - 52
  let s := scale num den e
  max minExponent (if s.1 < 0x10000000000000 * s.2 then e - 1 else e)

def ofRatio (num den : Nat) : Binary64 :=
  if num = 0 then zero
  else
    let e := exponentFor num den
    let s := scale num den e
    let m := roundDiv s.1 s.2
    let (m, e) := if m = 0x20000000000000 then (0x10000000000000, e + 1) else (m, e)
    if maxExponent < e then infinite else finite m e

def ofNat (n : Nat) : Binary64 :=
  ofRatio n 1

def fraction (significand : Nat) (exponent : Int) : Nat × Nat :=
  if 0 ≤ exponent then (significand * twoTo exponent.toNat, 1)
  else (significand, twoTo (-exponent).toNat)

def mul : Binary64 → Binary64 → Binary64
  | finite m e, finite n f =>
    let a := fraction m e
    let b := fraction n f
    ofRatio (a.1 * b.1) (a.2 * b.2)
  | _, _ => infinite

def div : Binary64 → Binary64 → Binary64
  | finite m e, finite n f =>
    let a := fraction m e
    let b := fraction n f
    ofRatio (a.1 * b.2) (a.2 * b.1)
  | finite _ _, infinite => zero
  | infinite, _ => infinite

def floor? : Binary64 → Option Nat
  | finite m e =>
    let a := fraction m e
    some (a.1 / a.2)
  | infinite => none

/-- The magnitude nearest to `digits * 10 ^ exponent`, where `digits` has `count` digits. Far beyond
either end of the range the power of ten is not worked out. -/
def ofDecimal (digits count : Nat) (exponent : Int) : Binary64 :=
  if digits = 0 then zero
  else if 310 < count + exponent then infinite
  else if count + exponent < -330 then zero
  else if 0 ≤ exponent then ofRatio (digits * tenTo exponent.toNat) 1
  else ofRatio digits (tenTo (-exponent).toNat)

end Binary64

end MerlinBridge
