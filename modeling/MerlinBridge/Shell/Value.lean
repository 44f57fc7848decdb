import MerlinBridge.Shell.Arithmetic
import MerlinBridge.Shell.Escape
import MerlinBridge.Shell.Pattern
import MerlinBridge.Unicode.Case

/-!
# What words stand for

A word stands for a text once its parameters have values and its arithmetic is done. It stands for
none if a value that must be there is missing, if something would have to be stored, or if a number
is divided by zero.

A parameter is one text: with an index it has one element, of index zero. The bounds of a slice
count bytes; a negative one counts from the end.
-/

namespace MerlinBridge

namespace Shell

inductive Reading where
  | plain
  | pattern
  | quoted
deriving DecidableEq

namespace Reading

def mark (r : Reading) (t : Bytes) : Bytes :=
  if r = pattern then Pattern.escape t else t

/-- Text outside single quotes, with its backslashes, as it is read. A tilde at the start of a word
is a home directory. -/
def bare (r : Reading) (env : Environment) (isFirst : Bool) (raw : Bytes) : Bytes :=
  if r = quoted then Escape.dropQuoted raw
  else if isFirst then (env.splitHome raw).1 ++ (env.splitHome raw).2
  else raw

end Reading

structure Found where
  value? : Option Bytes
  text : Bytes
  isAll : Bool

/-- The place in a text of the given length that a bound stands for. A place in front of the text is
the one behind it. -/
def place (length : Nat) (n : Int64) : Nat :=
  if n < 0 then (if 0 ≤ length + n.toInt then (length + n.toInt).toNat else length)
  else min n.toInt.toNat length

def sliceText (t : Bytes) (offset count : Option Int64) : Bytes :=
  let t :=
    match offset with
    | some n => t.drop (place t.length n)
    | none => t
  match count with
  | some n => t.take (place t.length n)
  | none => t

namespace Found

/-- Whether the parameter has a value, which must not be empty if there is a colon. -/
def hasValue (f : Found) (colon : Bool) : Bool :=
  if colon then f.text ≠ [] else f.value?.isSome

def alternative? (f : Found) (a : Alternative) (colon : Bool) (word : Bytes) : Option Bytes :=
  match a with
  | .default => some (if f.hasValue colon then f.text else word)
  | .replacement => some (if f.hasValue colon then word else [])
  | .required => if f.hasValue colon then some f.text else none
  | .assigned => if f.hasValue colon then some f.text else none

def remove (f : Found) (side : Side) (longest : Bool) (pattern : Bytes) : Bytes :=
  match Pattern.ofBytes? pattern, side with
  | none, _ => f.text
  | some p, .front => p.removeFront longest f.text
  | some p, .back => p.removeBack longest f.text

def replace (f : Found) (all : Bool) (pattern word : Bytes) : Bytes :=
  match Pattern.ofBytes? pattern with
  | none => f.text
  | some p => p.replace all word f.text

def recase (f : Found) (upper all : Bool) (pattern : Bytes) : Bytes :=
  match Pattern.ofBytes? pattern with
  | none => f.text
  | some p =>
    Bytes.ofChars (p.changeCase (if upper then Unicode.toUpper else Unicode.toLower) all
      ((Utf8.pieces f.text).map Utf8.Piece.toChar))

def length (f : Found) : Nat :=
  if f.isAll then f.value?.toList.length else Utf8.length f.text

def indirect? (f : Found) (env : Environment) : Option Bytes :=
  if f.value?.isNone then none else if f.text = [] then some [] else some (env f.text)

end Found

/-- The value of a variable that is set. The number of the line is a variable. -/
def lookup? (env : Environment) (name : Bytes) (line : Nat) : Option Bytes :=
  if name = "LINENO" then some (Decimal.ofNat line) else env.get? name

/-- The text of the element with an index, if the index can be worked out. -/
def elementText (v : Bytes) (i : Int64) : Bytes :=
  if i = 0 then v else []

def meansAll (name : Bytes) (index : Option Expr) : Bool :=
  name = "@" || name = "*" || index.any Expr.isAll

mutual

def partText (env : Environment) (r : Reading) (isFirst : Bool) : Part → Option Bytes
  | .bare raw => some (r.bare env isFirst raw)
  | .single t => some (r.mark t)
  | .escaped raw => some (r.mark (Escape.read raw))
  | .quoted ps => (partsText env .quoted false ps).map r.mark
  | .parameter name line index use => do
    let v? := lookup? env name line
    let text ←
      match v? with
      | none => some []
      | some v => do
        let i ← boundValue env index
        pure (elementText v (i.getD 0))
    useText env ⟨v?, text, meansAll name index⟩ use
  | .arithmetic e => (exprValue env e).map Decimal.ofInt64

def partsText (env : Environment) (r : Reading) (isFirst : Bool) : List Part → Option Bytes
  | [] => some []
  | p :: rest => do
    let t ← partText env r isFirst p
    let ts ← partsText env r false rest
    pure (t ++ ts)

def useText (env : Environment) (f : Found) : Use → Option Bytes
  | .value => some f.text
  | .length => some (Decimal.ofNat f.length)
  | .names => some []
  | .indirect offset count => do
    let _ ← boundValue env offset
    let _ ← boundValue env count
    f.indirect? env
  | .slice offset count => do
    let offset ← boundValue env offset
    let count ← boundValue env count
    pure (sliceText f.text offset count)
  | .replace all pattern word => do
    let p ← partsText env .pattern true pattern
    if p = [] then pure f.text
    else
      let w ← partsText env .plain true word
      pure (f.replace all p w)
  | .alternative a colon word => do
    let w ← partsText env .plain true word
    f.alternative? a colon w
  | .remove side longest word => do
    let w ← partsText env .plain true word
    pure (f.remove side longest w)
  | .recase upper all word => do
    let w ← partsText env .plain true word
    pure (f.recase upper all w)
  | .requote => some (Escape.write f.text)
  | .unescape => some (Escape.readValue f.text)

/-- The value of an expression. A choice takes the first of its expressions only if the condition is
one. -/
def exprValue (env : Environment) : Expr → Option Int64
  | .word ps => (partsText env .plain true ps).map (Arithmetic.value env)
  | .element name line index => do
    match lookup? env name line with
    | none => pure (Arithmetic.value env [])
    | some v =>
      let i ← exprValue env index
      pure (Arithmetic.value env (elementText v i))
  | .unary op e => (exprValue env e).map (Arithmetic.unary op)
  | .binary op a b => do
    let x ← exprValue env a
    let y ← exprValue env b
    Arithmetic.binary? op x y
  | .choice condition yes no => do
    let c ← exprValue env condition
    if c = 1 then exprValue env yes else exprValue env no
  | .assignment => none

def boundValue (env : Environment) : Option Expr → Option (Option Int64)
  | none => some none
  | some e => (exprValue env e).map some

end

end Shell

end MerlinBridge
