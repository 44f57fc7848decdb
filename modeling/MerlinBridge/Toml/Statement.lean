import MerlinBridge.Toml.Text

/-!
# Statements in TOML

A file is a sequence of statements, at most one on a line: a key with its value, or the header of a
table or of an element of an array of tables. A key may have several parts. A value is a string, an
integer, a boolean or an array of values.
-/

namespace MerlinBridge

namespace Toml

inductive Value where
  | text (t : Bytes)
  | integer (n : Int64)
  | boolean (b : Bool)
  | array (items : List Value)

inductive Statement where
  | pair (key : List Bytes) (value : Value)
  | table (key : List Bytes)
  | element (key : List Bytes)

/-! ## Integers -/

/-- Digits without the underscores between them. An underscore stands between two digits. -/
def ungroup? (ds : Bytes) : Option Bytes :=
  let groups := Bytes.split (Bytes.byte '_') ds
  if groups.any List.isEmpty then none else some groups.flatten

def baseValue? (base : Nat) (ds : Bytes) : Option Nat :=
  ds.foldl (fun acc d => acc.bind fun n =>
    (Bytes.hexValue? d).bind fun v => if v < base then some (n * base + v) else none) (some 0)

def base? (c : UInt8) : Option Nat :=
  if c = Bytes.byte 'x' then some 16
  else if c = Bytes.byte 'o' then some 8
  else if c = Bytes.byte 'b' then some 2
  else none

/-- Reads an integer: in decimal with an optional sign and no leading zeros, or in another base. -/
def integer? (token : Bytes) : Option Int64 :=
  let word (n : Int) : Option Int64 := if Decimal.fitsInt64 n then some (Int64.ofInt n) else none
  let inBase : Option Nat :=
    if token.head? = some (Bytes.byte '0') then (token.drop 1).head?.bind base? else none
  match inBase with
  | some base => do
    let ds ← ungroup? (token.drop 2)
    let n ← baseValue? base ds
    word n
  | none => do
    let signed := token.head? = some (Bytes.byte '-') || token.head? = some (Bytes.byte '+')
    let ds ← ungroup? (if signed then token.drop 1 else token)
    if 1 < ds.length && ds.head? = some (Bytes.byte '0') then none
    let n ← Decimal.nat? ds
    word (if token.head? = some (Bytes.byte '-') then -(n : Int) else n)

/-! ## Values -/

def isEnd (b : UInt8) : Bool :=
  isBlank b || b = 0x0A || b = 0x0D || b = Bytes.byte ',' || b = Bytes.byte ']' ||
    b = Bytes.byte '#'

def skipLines : (fuel : Nat) → Bytes → Option Bytes
  | 0, s => some s
  | fuel + 1, s => do
    let s ← comment? (skipBlanks s)
    match s with
    | [] => some []
    | c :: _ => if c = 0x0A || c = 0x0D then newline? s >>= skipLines fuel else some s

mutual

def value : (fuel : Nat) → Bytes → Option (Value × Bytes)
  | 0, _ => none
  | _ + 1, [] => none
  | fuel + 1, c :: rest =>
    if c = doubleQuote || c = singleQuote then
      (string? c (c :: rest)).map fun (t, rest) => (.text t, rest)
    else if c = Bytes.byte '[' then
      (items fuel true rest).map fun (vs, rest) => (.array vs, rest)
    else
      let token := (c :: rest).takeWhile (!isEnd ·)
      let rest := (c :: rest).drop token.length
      if token = ("true" : Bytes) then some (.boolean true, rest)
      else if token = ("false" : Bytes) then some (.boolean false, rest)
      else (integer? token).map fun n => (.integer n, rest)

def items : (fuel : Nat) → (isFirst : Bool) → Bytes → Option (List Value × Bytes)
  | 0, _, _ => none
  | fuel + 1, isFirst, s => do
    let s ← skipLines (s.length + 1) s
    if s.head? = some (Bytes.byte ']') then some ([], s.drop 1)
    else do
      let isComma := s.head? = some (Bytes.byte ',')
      if isComma = isFirst then none
      let s ← if isComma then skipLines s.length (s.drop 1) else some s
      if s.head? = some (Bytes.byte ']') then some ([], s.drop 1)
      else do
        let (v, s) ← value fuel s
        let (vs, s) ← items fuel false s
        pure (v :: vs, s)

end

/-! ## Statements -/

def isBare (b : UInt8) : Bool :=
  Bytes.isAlpha b || Bytes.isDigit b || b = Bytes.byte '_' || b = Bytes.byte '-'

def keyPart? (s : Bytes) : Option (Bytes × Bytes) :=
  match s.head? with
  | none => none
  | some c =>
    if c = doubleQuote || c = singleQuote then checked s (line c (s.drop 1))
    else
      let t := s.takeWhile isBare
      if t = [] then none else some (t, s.drop t.length)

/-- Reads the parts of a key, with points between them, and the blanks after it. -/
def key : (fuel : Nat) → Bytes → Option (List Bytes × Bytes)
  | 0, _ => none
  | fuel + 1, s => do
    let (t, s) ← keyPart? s
    let s := skipBlanks s
    if s.head? = some (Bytes.byte '.') then
      let (ts, s) ← key fuel (skipBlanks (s.drop 1))
      pure (t :: ts, s)
    else pure ([t], s)

def pair (s : Bytes) : Option (Statement × Bytes) := do
  let (k, s) ← key (s.length + 1) s
  if s.head? ≠ some (Bytes.byte '=') then none
  let (v, s) ← value (s.length + 1) (skipBlanks (s.drop 1))
  pure (.pair k v, s)

def header (s : Bytes) : Option (Statement × Bytes) := do
  let brackets := if s.take 2 = ("[[" : Bytes) then 2 else 1
  let (k, s) ← key (s.length + 1) (skipBlanks (s.drop brackets))
  if s.take brackets ≠ List.replicate brackets (Bytes.byte ']') then none
  pure (if brackets = 2 then .element k else .table k, s.drop brackets)

/-- Reads the statement of a line, if there is one, up to the end of the line. -/
def statement (s : Bytes) : Option (List Statement × Bytes) := do
  match skipBlanks s with
  | [] => pure ([], [])
  | c :: rest =>
    if c = 0x0A || c = 0x0D || c = Bytes.byte '#' then
      let rest ← comment? (c :: rest)
      pure ([], rest)
    else
      let (t, rest) ← if c = Bytes.byte '[' then header (c :: rest) else pair (c :: rest)
      let rest ← comment? (skipBlanks rest)
      pure ([t], rest)

def statements : (fuel : Nat) → Bytes → Option (List Statement)
  | 0, _ => none
  | fuel + 1, s => do
    let (t, s) ← statement s
    if s = [] then pure t
    else
      let s ← newline? s
      let ts ← statements fuel s
      pure (t ++ ts)

def ofBytes? (file : Bytes) : Option (List Statement) :=
  statements (file.length + 1) file

end Toml

end MerlinBridge
