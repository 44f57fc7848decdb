import MerlinBridge.Json.Unescape
import MerlinBridge.Number.Shortest

/-!
# What a JSON value reads as

A number is read as a double. As a word it is the integer part of that double as long as doubles
count exactly, that is, up to 2^53 - 1; a longer integer literal is read digit by digit into the
word, which wraps around, and any other large number by its integer part again.

As text a string is what it stands for, an integer literal is itself, any other number is the
shortest decimal of its double without an exponent, and an array or an object is its own text.
-/

namespace MerlinBridge

namespace Json

structure Double where
  negative : Bool
  magnitude : Binary64
deriving DecidableEq

def isInteger (literal : Bytes) : Bool :=
  match literal with
  | [] => false
  | c :: rest =>
    let ds := if c = Bytes.byte '-' then rest else c :: rest
    !ds.isEmpty && ds.all Bytes.isDigit

/-- A number as it is written: a sign, digits, and the power of ten that they are multiplied
with. -/
structure Parts where
  negative : Bool
  digits : Bytes
  exponent : Int

/-- The parts of a literal: an optional sign, digits with an optional point among them, and an
optional exponent. -/
def parts (literal : Bytes) : Parts :=
  let negative := literal.head? = some (Bytes.byte '-')
  let s := if negative || literal.head? = some (Bytes.byte '+') then literal.drop 1 else literal
  let isMark (b : UInt8) : Bool := b = Bytes.byte 'e' || b = Bytes.byte 'E'
  let significand := s.takeWhile (!isMark ·)
  let power := ((Decimal.int? ((s.dropWhile (!isMark ·)).drop 1)).getD 0)
  let whole := significand.takeWhile Bytes.isDigit
  let places := (significand.dropWhile Bytes.isDigit).drop 1
  ⟨negative, whole ++ places, power - places.length⟩

def double (literal : Bytes) : Double :=
  let p := parts literal
  let ds := p.digits.dropWhile (· = Bytes.byte '0')
  ⟨p.negative, Binary64.ofDecimal (Decimal.value ds) ds.length p.exponent⟩

def maxExact : Nat := 0x1FFFFFFFFFFFFF

/-- A natural number with a sign as a word, if it fits; the least word otherwise. -/
def saturate (negative : Bool) (n : Nat) : Int64 :=
  let i : Int := if negative then -(n : Int) else n
  if Decimal.fitsInt64 i then Int64.ofInt i else Int64.minValue

/-- The integer part of a double as a word. What does not fit is the least word. -/
def Double.toInt64 (x : Double) : Int64 :=
  match x.magnitude.floor? with
  | some n => saturate x.negative n
  | none => Int64.minValue

def wrapped (literal : Bytes) : Int64 :=
  let negative := literal.head? = some (Bytes.byte '-')
  let n := Decimal.value (if negative then literal.drop 1 else literal)
  if negative then -(Int64.ofNat n) else Int64.ofNat n

def Double.isExact (x : Double) : Bool :=
  match x.magnitude with
  | .finite m e =>
    let a := Binary64.fraction m e
    a.1 ≤ maxExact * a.2
  | .infinite => false

def literalInt64 (literal : Bytes) : Int64 :=
  let x := double literal
  if x.isExact then x.toInt64
  else if isInteger literal then wrapped literal
  else x.toInt64

def Double.text (x : Double) : Bytes :=
  match x.magnitude.shortest? with
  | some d => (if x.negative then [Bytes.byte '-'] else []) ++ Binary64.positional d
  | none => if x.negative then "-Inf" else "+Inf"

def content : Json → Bytes
  | null => []
  | bool true => "true"
  | bool false => "false"
  | number literal => if isInteger literal then literal else (double literal).text
  | string body => unescape true body
  | v => v.text

/-- The value of the first member whose key reads as `name`. Only an object has members. -/
def get? (v : Json) (name : Bytes) : Option Json :=
  (v.members.find? fun m => unescape true m.1 = name).map Prod.snd

def contentOf (v : Option Json) : Bytes :=
  (v.map content).getD []

def textOf (v : Option Json) : Bytes :=
  (v.map text).getD []

def kindOf (v : Option Json) : Kind :=
  (v.map kind).getD .null

end Json

end MerlinBridge
