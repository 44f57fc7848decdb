import MerlinBridge.Text.Bytes

/-!
# Words of a command line

A command line is a list of words. A word has parts: text outside quotes, which keeps its
backslashes for now, text in quotes of several kinds, parameters, and arithmetic. A parameter says
what is done with its value, and both its index and the bounds of a slice are arithmetic, whose
operands are words again.
-/

namespace MerlinBridge

namespace Shell

/-- What is done if a parameter is set, or not. With a colon the value must not be empty either. -/
inductive Alternative where
  | default
  | replacement
  | required
  | assigned
deriving DecidableEq, Repr

inductive Side where
  | front
  | back
deriving DecidableEq, Repr

inductive UnaryOp where
  | not
  | complement
  | plus
  | minus
deriving DecidableEq, Repr

inductive BinaryOp where
  | comma
  | or
  | and
  | bitOr
  | bitXor
  | bitAnd
  | equal
  | notEqual
  | less
  | greater
  | lessEqual
  | greaterEqual
  | shiftLeft
  | shiftRight
  | add
  | sub
  | mul
  | div
  | rem
  | pow
deriving DecidableEq, Repr

mutual

inductive Part where
  /-- Text outside quotes, with its backslashes, or text in double quotes with them. -/
  | bare (raw : Bytes)
  | single (t : Bytes)
  | escaped (raw : Bytes)
  | quoted (parts : List Part)
  | parameter (name : Bytes) (line : Nat) (index : Option Expr) (use : Use)
  | arithmetic (e : Expr)

inductive Use where
  | value
  | length
  | names
  /-- The value of the parameter that its value names; bounds are looked at, but have no effect. -/
  | indirect (offset count : Option Expr)
  | slice (offset count : Option Expr)
  /-- Its value with the first match of a pattern replaced, or every match. -/
  | replace (all : Bool) (pattern word : List Part)
  | alternative (a : Alternative) (colon : Bool) (word : List Part)
  /-- Its value less a match at one of its ends, the shortest or the longest one. -/
  | remove (side : Side) (longest : Bool) (word : List Part)
  /-- Its value with the first character that matches in the other case, or every one. -/
  | recase (upper all : Bool) (word : List Part)
  | requote
  | unescape

inductive Expr where
  | word (parts : List Part)
  | element (name : Bytes) (line : Nat) (index : Expr)
  | unary (op : UnaryOp) (e : Expr)
  | binary (op : BinaryOp) (a b : Expr)
  | choice (condition yes no : Expr)
  | assignment

end

/-! ## Names -/

def isNameStart (b : UInt8) : Bool :=
  Bytes.isAlpha b || b = Bytes.byte '_'

def isNameByte (b : UInt8) : Bool :=
  isNameStart b || Bytes.isDigit b

def isName (b : Bytes) : Bool :=
  match b with
  | [] => false
  | c :: rest => isNameStart c && rest.all isNameByte

def isNumber (b : Bytes) : Bool :=
  b ≠ [] && b.all Bytes.isDigit

namespace Part

def rawText? : List Part → Option Bytes
  | [] => some []
  | .bare raw :: rest => (rawText? rest).map (raw ++ ·)
  | _ :: _ => none

end Part

namespace Expr

def isVariable : Expr → Bool
  | word ps => isName ((Part.rawText? ps).getD [])
  | element _ _ _ => true
  | _ => false

def isAll : Expr → Bool
  | word ps => Part.rawText? ps = some "@" || Part.rawText? ps = some "*"
  | _ => false

end Expr

end Shell

end MerlinBridge
