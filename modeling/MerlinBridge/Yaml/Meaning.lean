import MerlinBridge.Json.Number
import MerlinBridge.Text.Base64
import MerlinBridge.Yaml.Node
import MerlinBridge.Yaml.Timestamp

/-!
# What a YAML scalar means

A plain scalar may mean nothing, a boolean or a number; the first character tells which of these
are possible. Any other scalar means its text. The tag of a standard kind demands a meaning of that
kind, where an integer also serves as a floating point number, or the text as it is, or the bytes
that are written in it. With any other tag a scalar means its text.

Integers are written in decimal, after `0x` in hexadecimal, after `0b` in binary, and after `0o`
or just a zero in octal. Underscores in a number do not count.
-/

namespace MerlinBridge

namespace Yaml

inductive Meaning where
  | null
  | boolean (b : Bool)
  | integer (n : Int)
  | float (x : Json.Double)
  | notANumber
  | timestamp
  | text (t : Bytes)

namespace Meaning

def ofWord? (t : Bytes) : Option Meaning :=
  let among (words : List Bytes) : Bool := words.contains t
  let infinity (negative : Bool) : Meaning := .float ⟨negative, .infinite⟩
  if among ["true", "True", "TRUE"] then some (.boolean true)
  else if among ["false", "False", "FALSE"] then some (.boolean false)
  else if among ["", "~", "null", "Null", "NULL"] then some .null
  else if among [".nan", ".NaN", ".NAN"] then some .notANumber
  else if among [".inf", ".Inf", ".INF", "+.inf", "+.Inf", "+.INF"] then some (infinity false)
  else if among ["-.inf", "-.Inf", "-.INF"] then some (infinity true)
  else none

def digits? (base : Nat) (ds : Bytes) : Option Nat :=
  if ds = [] then none
  else ds.foldl (fun acc d => acc.bind fun n =>
    (Bytes.hexValue? d).bind fun v => if v < base then some (n * base + v) else none) (some 0)

def base (t : Bytes) : Nat × Bytes :=
  match t with
  | z :: m :: d :: rest =>
    if z ≠ Bytes.byte '0' then (10, t)
    else if Bytes.toLower m = Bytes.byte 'x' then (16, d :: rest)
    else if Bytes.toLower m = Bytes.byte 'o' then (8, d :: rest)
    else if Bytes.toLower m = Bytes.byte 'b' then (2, d :: rest)
    else (8, m :: d :: rest)
  | z :: rest => if z = Bytes.byte '0' then (8, rest) else (10, t)
  | [] => (10, [])

def nat? (t : Bytes) : Option Nat :=
  if t = "0" then some 0
  else
    let (b, ds) := base t
    digits? b ds

/-- Reads an integer that fits a signed word, or without a sign an unsigned one. -/
def integer? (t : Bytes) : Option Int :=
  let isMinus := t.head? = some (Bytes.byte '-')
  if isMinus || t.head? = some (Bytes.byte '+') then
    (nat? (t.drop 1)).bind fun n =>
      let i : Int := if isMinus then -(n : Int) else n
      if Decimal.fitsInt64 i then some i else none
  else (nat? t).bind fun n => if n < 0x10000000000000000 then some (n : Int) else none

/-- Reads an integer in the given base that fits a signed word, or without a sign an unsigned
one. -/
def inBase? (base : Nat) (t : Bytes) : Option Int :=
  let isMinus := t.head? = some (Bytes.byte '-')
  if isMinus || t.head? = some (Bytes.byte '+') then
    (digits? base (t.drop 1)).bind fun n =>
      let i : Int := if isMinus then -(n : Int) else n
      if Decimal.fitsInt64 i then some i else none
  else (digits? base t).bind fun n => if n < 0x10000000000000000 then some (n : Int) else none

/-- Reads a binary or octal integer whose sign comes behind the mark of the base. -/
def marked? (t : Bytes) : Option Int :=
  if t.startsWith "0b" then inBase? 2 (t.drop 2)
  else if t.startsWith "0o" then inBase? 8 (t.drop 2)
  else none

def isFloat (t : Bytes) : Bool :=
  let isSign (b : UInt8) : Bool := b = Bytes.byte '-' || b = Bytes.byte '+'
  let unsigned (s : Bytes) : Bytes := if s.head?.any isSign then s.drop 1 else s
  let s := unsigned t
  let whole := s.takeWhile Bytes.isDigit
  let s := s.drop whole.length
  let hasPoint := s.head? = some (Bytes.byte '.')
  let s := if hasPoint then s.drop 1 else s
  let places := if hasPoint then s.takeWhile Bytes.isDigit else []
  let s := s.drop places.length
  let hasDigits := !whole.isEmpty || !places.isEmpty
  let ds := unsigned (s.drop 1)
  let hasPower := s.head?.any (fun b => Bytes.toLower b = Bytes.byte 'e') && !ds.isEmpty &&
    ds.all Bytes.isDigit
  hasDigits && (s.isEmpty || hasPower)

def float? (t : Bytes) : Option Json.Double :=
  if isFloat t then
    let x := Json.double t
    if x.magnitude = .infinite then none else some x
  else none

def dense (t : Bytes) : Bytes :=
  t.filter (· ≠ Bytes.byte '_')

def number? (t : Bytes) : Option Meaning :=
  let t := dense t
  ((integer? t).map Meaning.integer).or
    (((float? t).map Meaning.float).or ((marked? t).map Meaning.integer))

/-- Whether every underscore is between two digits, where the byte before the text is `last`. -/
def underscoresDivide : (last : Option UInt8) → Bytes → Bool
  | last, [] => last ≠ some (Bytes.byte '_')
  | last, b :: rest =>
    if b = Bytes.byte '_' then last.any Bytes.isDigit && underscoresDivide (some b) rest
    else (last ≠ some (Bytes.byte '_') || Bytes.isDigit b) && underscoresDivide (some b) rest

def fraction? (t : Bytes) : Option Meaning :=
  if underscoresDivide none t then (float? (dense t)).map Meaning.float else none

/-- Whether the words and numbers with a meaning of their own include any that starts with a
byte. -/
def isHint (b : UInt8) : Bool :=
  Bytes.isDigit b || ("+-.~yYnNtTfFoO" : Bytes).contains b

def ofPlain (t : Bytes) : Meaning :=
  match t.head? with
  | none => .null
  | some b =>
    if !isHint b then .text t
    else
      match ofWord? t with
      | some m => m
      | none =>
        if b = Bytes.byte '.' then (fraction? t).getD (.text t)
        else if Bytes.isDigit b || b = Bytes.byte '+' || b = Bytes.byte '-' then
          (number? t).getD (.text t)
        else .text t

def double (n : Int) : Json.Double :=
  ⟨n < 0, Binary64.ofNat n.natAbs⟩

def standard : Bytes × Bytes := ("tag:yaml.org,2002:", "!!")

def kind? (tag : Bytes) : Option Bytes :=
  if tag.startsWith standard.1 then some (tag.drop standard.1.length)
  else if tag.startsWith standard.2 then some (tag.drop standard.2.length)
  else none

def demand? (kind : Bytes) : Meaning → Option Meaning
  | .null => if kind = "null" then some .null else none
  | .boolean b => if kind = "bool" then some (.boolean b) else none
  | .integer n =>
    if kind = "int" then some (.integer n)
    else if kind = "float" && Decimal.fitsInt64 n then some (.float (double n))
    else none
  | .float x => if kind = "float" then some (.float x) else none
  | .notANumber => if kind = "float" then some .notANumber else none
  | _ => none

def ofKind? (kind t : Bytes) : Option Meaning :=
  if kind = "binary" then (Base64.decode? t).map Meaning.text
  else if kind = "timestamp" then (if isTimestamp t then some .timestamp else none)
  else if (["null", "bool", "int", "float"] : List Bytes).contains kind then
    demand? kind (ofPlain t)
  else some (.text t)

def ofScalar? (tag : Option Bytes) (isPlain : Bool) (t : Bytes) : Option Meaning :=
  match tag with
  | none => some (if isPlain then ofPlain t else .text t)
  | some name =>
    match kind? name with
    | none => some (.text t)
    | some kind => ofKind? kind t

end Meaning

end Yaml

end MerlinBridge
