import MerlinBridge.Json.Basic

/-!
# Reading JSON

A value is read from the front of a byte string and what follows it is left over. Every part of a
value takes at least one byte, so a value nests no deeper, and an array or an object has no more
parts, than the byte string is long; the recursion is bounded by that length.

The text has to follow the grammar of the format exactly: no leading zeros, no comma before a
closing bracket, no control byte inside a string. Bytes outside ASCII are taken as they are.
-/

namespace MerlinBridge

namespace Json

def spaced {α : Type} (p : Bytes → Option (α × Bytes)) (s : Bytes) : Option (Spaced α × Bytes) := do
  let (v, rest) ← p (s.dropWhile isBlank)
  pure (⟨s.takeWhile isBlank, v, rest.takeWhile isBlank⟩, rest.dropWhile isBlank)

def separated {α : Type} (p : Bytes → Option (α × Bytes)) (close : UInt8) :
    (fuel : Nat) → Bytes → Option (List α × Bytes)
  | 0, _ => none
  | fuel + 1, s => do
    let (v, rest) ← p s
    match rest with
    | [] => none
    | c :: rest =>
      if c = close then some ([v], rest)
      else if c = Bytes.byte ',' then do
        let (vs, rest) ← separated p close fuel rest
        pure (v :: vs, rest)
      else none

/-- Reads at most `most` parts up to `close`, or the white space if there are none. -/
def enclosed {α : Type} (p : Bytes → Option (α × Bytes)) (close : UInt8) (most : Nat) (s : Bytes) :
    Option (Bytes × List α × Bytes) :=
  match s.dropWhile isBlank with
  | [] => none
  | c :: rest =>
    if c = close then some (s.takeWhile isBlank, [], rest)
    else (separated p close most s).map fun r => ([], r)

def isEscape (b : UInt8) : Bool :=
  b = Bytes.byte '"' || b = Bytes.byte '\\' || b = Bytes.byte '/' || b = Bytes.byte 'b' ||
    b = Bytes.byte 'f' || b = Bytes.byte 'n' || b = Bytes.byte 'r' || b = Bytes.byte 't'

def isHex (b : UInt8) : Bool :=
  (Bytes.hexValue? b).isSome

def extend (lead : Bytes) (r : Option (Bytes × Bytes)) : Option (Bytes × Bytes) :=
  r.map fun p => (lead ++ p.1, p.2)

/-- Reads the body of a string up to its closing quote, which is taken off too. -/
def body : Bytes → Option (Bytes × Bytes)
  | [] => none
  | c :: rest =>
    if c = Bytes.byte '"' then some ([], rest)
    else if c = Bytes.byte '\\' then
      match rest with
      | [] => none
      | e :: rest =>
        if e = Bytes.byte 'u' then
          match rest with
          | h1 :: h2 :: h3 :: h4 :: rest =>
            if isHex h1 && isHex h2 && isHex h3 && isHex h4 then
              extend [c, e, h1, h2, h3, h4] (body rest)
            else none
          | _ => none
        else if isEscape e then extend [c, e] (body rest)
        else none
    else if c < 0x20 then none
    else extend [c] (body rest)

def digits (s : Bytes) : Option (Bytes × Bytes) :=
  match s.takeWhile Bytes.isDigit with
  | [] => none
  | ds => some (ds, s.dropWhile Bytes.isDigit)

/-- Reads the digits before the point: a zero alone, or a run that starts with another digit. -/
def integer (s : Bytes) : Option (Bytes × Bytes) :=
  match s with
  | [] => none
  | c :: rest => if c = Bytes.byte '0' then some ([c], rest) else digits s

def fraction (s : Bytes) : Option (Bytes × Bytes) :=
  match s with
  | [] => some ([], s)
  | c :: rest => if c = Bytes.byte '.' then extend [c] (digits rest) else some ([], s)

def exponent (s : Bytes) : Option (Bytes × Bytes) :=
  match s with
  | [] => some ([], s)
  | c :: rest =>
    if c = Bytes.byte 'e' || c = Bytes.byte 'E' then
      match rest with
      | [] => none
      | d :: after =>
        if d = Bytes.byte '+' || d = Bytes.byte '-' then extend [c, d] (digits after)
        else extend [c] (digits rest)
    else some ([], s)

def sign (s : Bytes) : Bytes × Bytes :=
  match s with
  | [] => ([], s)
  | c :: rest => if c = Bytes.byte '-' then ([c], rest) else ([], s)

def literal (s : Bytes) : Option (Bytes × Bytes) := do
  let (minus, s) := sign s
  let (whole, s) ← integer s
  let (part, s) ← fraction s
  let (power, s) ← exponent s
  pure (minus ++ whole ++ part ++ power, s)

def word (w : Bytes) (v : Json) (s : Bytes) : Option (Json × Bytes) :=
  if s.startsWith w then some (v, s.drop w.length) else none

def key (s : Bytes) : Option (Bytes × Bytes) :=
  match s with
  | [] => none
  | c :: rest => if c = Bytes.byte '"' then body rest else none

def member (p : Bytes → Option (Json × Bytes)) (s : Bytes) :
    Option ((Spaced Bytes × Spaced Json) × Bytes) := do
  let (k, rest) ← spaced key s
  match rest with
  | [] => none
  | c :: rest =>
    if c = Bytes.byte ':' then do
      let (v, rest) ← spaced p rest
      pure ((k, v), rest)
    else none

/-- Reads a value that nests less than `depth` deep and whose arrays and objects have no more parts
than that. -/
def value : (depth : Nat) → Bytes → Option (Json × Bytes)
  | 0, _ => none
  | depth + 1, s =>
    match s with
    | [] => none
    | c :: rest =>
      if c = Bytes.byte '"' then (body rest).map fun p => (string p.1, p.2)
      else if c = Bytes.byte '[' then
        (enclosed (spaced (value depth)) (Bytes.byte ']') depth rest).map fun p =>
          (array p.1 p.2.1, p.2.2)
      else if c = 0x7B then
        (enclosed (member (value depth)) 0x7D depth rest).map fun p => (object p.1 p.2.1, p.2.2)
      else if c = Bytes.byte 't' then word "true" (bool true) s
      else if c = Bytes.byte 'f' then word "false" (bool false) s
      else if c = Bytes.byte 'n' then word "null" null s
      else (literal s).map fun p => (number p.1, p.2)

def first? (s : Bytes) : Option (Json × Bytes) :=
  value (s.length + 1) (s.dropWhile isBlank)

def parse? (s : Bytes) : Option Json :=
  match first? s with
  | some (v, rest) => if rest.all isBlank then some v else none
  | none => none

end Json

end MerlinBridge
