import MerlinBridge.Shell.Environment
import MerlinBridge.Shell.Word
import MerlinBridge.Text.Decimal

/-!
# Arithmetic on words

Arithmetic is done on 64-bit signed words, and wraps around. The value of a word is the number that
its text is. A text that is the name of a variable stands for the value of the variable, which may
be a name again, and a text that is no number for zero.
-/

namespace MerlinBridge

namespace Shell

namespace Arithmetic

def largest : Int64 := 0x7FFFFFFFFFFFFFFF

def smallest : Int64 := -0x8000000000000000

/-- The number that a text is; zero if it is none, and the nearest word if it does not fit one. -/
def number (t : Bytes) : Int64 :=
  match Decimal.int? t with
  | none => 0
  | some n => if Decimal.fitsInt64 n then Int64.ofInt n else if n < 0 then smallest else largest

def follow (env : Environment) : (steps : Nat) → Bytes → Bytes
  | 0, t => t
  | steps + 1, t =>
    if isName t then
      match env.get? t with
      | some v => follow env steps v
      | none => t
    else t

def value (env : Environment) (t : Bytes) : Int64 :=
  number (follow env 99 t)

def ofBool (b : Bool) : Int64 :=
  if b then 1 else 0

def pow (a b : Int64) : Int64 :=
  if b ≤ 0 then 1 else step b.toInt.toNat a 64
where
  step (n : Nat) (a : Int64) : (bits : Nat) → Int64
    | 0 => 1
    | bits + 1 => if n = 0 then 1 else (if n % 2 = 1 then a else 1) * step (n / 2) (a * a) bits

/-- A shift to the left. All bits are gone if the count is negative or as large as the word. -/
def shiftLeft (a b : Int64) : Int64 :=
  if b < 0 || 64 ≤ b then 0 else a <<< b

/-- A shift to the right, which keeps the sign. Nothing else is left if the count is negative or as
large as the word. -/
def shiftRight (a b : Int64) : Int64 :=
  if b < 0 || 64 ≤ b then (if a < 0 then -1 else 0) else a >>> b

def unary (op : UnaryOp) (a : Int64) : Int64 :=
  match op with
  | .not => ofBool (a = 0)
  | .complement => ~~~a
  | .plus => a
  | .minus => -a

/-- Applies an operator to two operands. Nothing can be divided by zero. -/
def binary? (op : BinaryOp) (a b : Int64) : Option Int64 :=
  match op with
  | .comma => some b
  | .or => some (ofBool (a ≠ 0 || b ≠ 0))
  | .and => some (ofBool (a ≠ 0 && b ≠ 0))
  | .bitOr => some (a ||| b)
  | .bitXor => some (a ^^^ b)
  | .bitAnd => some (a &&& b)
  | .equal => some (ofBool (a = b))
  | .notEqual => some (ofBool (a ≠ b))
  | .less => some (ofBool (a < b))
  | .greater => some (ofBool (b < a))
  | .lessEqual => some (ofBool (a ≤ b))
  | .greaterEqual => some (ofBool (b ≤ a))
  | .shiftLeft => some (shiftLeft a b)
  | .shiftRight => some (shiftRight a b)
  | .add => some (a + b)
  | .sub => some (a - b)
  | .mul => some (a * b)
  | .div => if b = 0 then none else some (a / b)
  | .rem => if b = 0 then none else some (a % b)
  | .pow => some (pow a b)

end Arithmetic

end Shell

end MerlinBridge
