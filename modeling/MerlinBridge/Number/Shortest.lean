import MerlinBridge.Number.Binary64
import MerlinBridge.Text.Decimal

/-!
# The shortest decimal of a double

Of the decimals that are read back as the same double, the one with the fewest digits is written,
and of those the nearest. The decimals with `n` significant digits form a grid around the value, so
it is enough to look at its two neighbours on the grid for `n = 1, 2, …, 17`.
-/

namespace MerlinBridge

namespace Binary64

structure DecimalForm where
  digits : Nat
  exponent : Int
deriving DecidableEq, Repr

/-- The exponent of the leading decimal digit of `num / den`: the greatest `k`, from `k` down, with
`10 ^ k ≤ num / den`. -/
def leadingFrom (num den : Nat) : (fuel : Nat) → (k : Int) → Int
  | 0, k => k
  | fuel + 1, k =>
    let below := if 0 ≤ k then den * tenTo k.toNat ≤ num else den ≤ num * tenTo (-k).toNat
    if below then k else leadingFrom num den fuel (k - 1)

def leading (num den : Nat) : Int :=
  leadingFrom num den 640 309

def readsBack (x : Binary64) (d : DecimalForm) : Bool :=
  if 0 ≤ d.exponent then ofRatio (d.digits * tenTo d.exponent.toNat) 1 = x
  else ofRatio d.digits (tenTo (-d.exponent).toNat) = x

/-- The decimals next to `num / den` on the grid of the given exponent: the one below with twice the
rest of the division and its divisor, and the one above. -/
def neighbours (num den : Nat) (exponent : Int) : DecimalForm × Nat × Nat × DecimalForm :=
  let (n, d) :=
    if 0 ≤ exponent then (num, den * tenTo exponent.toNat) else (num * tenTo (-exponent).toNat, den)
  (⟨n / d, exponent⟩, 2 * (n % d), d, ⟨n / d + 1, exponent⟩)

/-- The neighbour on the grid that is read back as `x`, the nearer one if both are, and at equal
distance the one with the even last digit. -/
def onGrid? (x : Binary64) (num den : Nat) (exponent : Int) : Option DecimalForm :=
  let (low, rest, d, high) := neighbours num den exponent
  if readsBack x low then
    if readsBack x high && (d < rest || (rest = d && low.digits % 2 = 1)) then some high
    else some low
  else if readsBack x high then some high
  else none

/-- The first grid that holds a decimal read back as `x`, from that of the exponent `k` on. -/
def search (x : Binary64) (num den : Nat) : (fuel : Nat) → (k : Int) → Option DecimalForm
  | 0, _ => none
  | fuel + 1, k =>
    match onGrid? x num den k with
    | some d => some d
    | none => search x num den fuel (k - 1)

def shortest? : Binary64 → Option DecimalForm
  | infinite => none
  | finite m e =>
    let (num, den) := fraction m e
    if num = 0 then some ⟨0, 0⟩ else search (finite m e) num den 18 (leading num den)

/-- A decimal without exponent: the digits with a point among them, or zeros as needed. -/
def positional (d : DecimalForm) : Bytes :=
  if 0 ≤ d.exponent then
    if d.digits = 0 then "0" else Decimal.ofNat (d.digits * tenTo d.exponent.toNat)
  else
    let places := (-d.exponent).toNat
    let whole := Decimal.ofNat (d.digits / tenTo places)
    let rest := Decimal.ofNat (d.digits % tenTo places)
    let zeros := List.replicate (places - rest.length) (Bytes.byte '0')
    let tail := ((zeros ++ rest).reverse.dropWhile (· = Bytes.byte '0')).reverse
    if tail = [] then whole else whole ++ "." ++ tail

end Binary64

end MerlinBridge
