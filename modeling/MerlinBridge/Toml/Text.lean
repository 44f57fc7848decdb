import MerlinBridge.Text.Decimal
import MerlinBridge.Text.Utf8

/-!
# Strings in TOML

A string is basic, in double quotes with escapes, or literal, in single quotes without. Either
kind may span lines between three quotes; the first line break then is not part of the text, a
basic string continues past a backslash at the end of a line, and up to two quotes can stand
before the closing ones. No string or comment holds a control character other than a tab, or bytes
that are not UTF-8.
-/

namespace MerlinBridge

namespace Toml

def isBlank (b : UInt8) : Bool :=
  b = 0x20 || b = 0x09

def isControl (b : UInt8) : Bool :=
  (b < 0x20 && b ≠ 0x09) || b = 0x7F

def doubleQuote : UInt8 := Bytes.byte '"'

def singleQuote : UInt8 := 0x27

def skipBlanks (s : Bytes) : Bytes :=
  s.dropWhile isBlank

/-- Goes past a line break, if there is one: a line feed, after a carriage return or not. -/
def newline? : Bytes → Option Bytes
  | c :: rest =>
    if c = 0x0A then some rest
    else if c = 0x0D then
      match rest with
      | d :: rest => if d = 0x0A then some rest else none
      | [] => none
    else none
  | [] => none

def comment? (s : Bytes) : Option Bytes :=
  if s.head? = some (Bytes.byte '#') then
    let line := s.takeWhile (· ≠ 0x0A)
    let rest := s.drop line.length
    let ends := line.getLast? = some 0x0D && !rest.isEmpty
    let text := if ends then line.dropLast else line
    if text.any isControl || !Utf8.valid text then none
    else some (s.drop text.length)
  else some s

/-! ## Basic strings -/

def hex? (n : Nat) (s : Bytes) : Option Nat :=
  let ds := s.take n
  if ds.length < n then none
  else ds.foldl (fun acc d => acc.bind fun v => (Bytes.hexValue? d).map (v * 16 + ·)) (some 0)

def escape? : Bytes → Option (Bytes × Bytes)
  | [] => none
  | e :: rest =>
    let point (n : Nat) : Option (Bytes × Bytes) := do
      let v ← hex? n rest
      let c ← Utf8.scalar? 0 v
      pure (Bytes.ofChar c, rest.drop n)
    if e = doubleQuote || e = Bytes.byte '\\' then some ([e], rest)
    else if e = Bytes.byte 'b' then some ([8], rest)
    else if e = Bytes.byte 't' then some ([9], rest)
    else if e = Bytes.byte 'n' then some ([10], rest)
    else if e = Bytes.byte 'f' then some ([12], rest)
    else if e = Bytes.byte 'r' then some ([13], rest)
    else if e = Bytes.byte 'e' then some ([27], rest)
    else if e = Bytes.byte 'u' then point 4
    else if e = Bytes.byte 'U' then point 8
    else none

def basic : (fuel : Nat) → Bytes → (acc : Bytes) → Option (Bytes × Bytes)
  | 0, _, _ => none
  | _ + 1, [], _ => none
  | fuel + 1, c :: rest, acc =>
    if c = doubleQuote then some (acc, rest)
    else if c = Bytes.byte '\\' then
      match escape? rest with
      | some (t, rest) => basic fuel rest (acc ++ t)
      | none => none
    else if isControl c then none
    else basic fuel rest (acc ++ [c])

def literal (s : Bytes) : Option (Bytes × Bytes) :=
  let t := s.takeWhile (· ≠ singleQuote)
  if t.any isControl || t.length = s.length then none else some (t, s.drop (t.length + 1))

/-! ## Strings of several lines -/

/-- The quotes at the end of a text of several lines: up to two that belong to it, and what follows
the closing three. -/
def closing? (quote : UInt8) (s : Bytes) : Option (Bytes × Bytes) :=
  let n := (s.takeWhile (· = quote)).length
  if n < 3 || 5 < n then none else some (List.replicate (n - 3) quote, s.drop n)

/-- Goes past blanks and line breaks. A carriage return alone is not a line break. -/
def skipSpace : Bytes → Bytes
  | [] => []
  | c :: rest =>
    if isBlank c || c = 0x0A || c = 0x0D && rest.head? = some 0x0A then skipSpace rest
    else c :: rest

/-- Goes past the white space of a continued line, if a backslash is the last thing on it. -/
def continued? (s : Bytes) : Option Bytes :=
  (newline? (skipBlanks s)).map skipSpace

def lines (quote : UInt8) : (fuel : Nat) → Bytes → (acc : Bytes) → Option (Bytes × Bytes)
  | 0, _, _ => none
  | _ + 1, [], _ => none
  | fuel + 1, c :: rest, acc =>
    if c = quote then
      if (c :: rest).take 3 = [quote, quote, quote] then
        (closing? quote (c :: rest)).map fun (t, rest) => (acc ++ t, rest)
      else lines quote fuel rest (acc ++ [c])
    else if quote = doubleQuote && c = Bytes.byte '\\' then
      match continued? rest with
      | some rest => lines quote fuel rest acc
      | none =>
        match escape? rest with
        | some (t, rest) => lines quote fuel rest (acc ++ t)
        | none => none
    else if c = 0x0A then lines quote fuel rest (acc ++ [c])
    else if c = 0x0D then
      if rest.head? = some 0x0A then lines quote fuel rest (acc ++ [c]) else none
    else if isControl c then none
    else lines quote fuel rest (acc ++ [c])

def line (quote : UInt8) (s : Bytes) : Option (Bytes × Bytes) :=
  if quote = doubleQuote then basic (s.length + 1) s [] else literal s

/-- Lets a string through if what it was read from, in front of `s`, is UTF-8. -/
def checked (s : Bytes) (r : Option (Bytes × Bytes)) : Option (Bytes × Bytes) :=
  r.bind fun (t, rest) =>
    if Utf8.valid (s.take (s.length - rest.length)) then some (t, rest) else none

def string? (quote : UInt8) (s : Bytes) : Option (Bytes × Bytes) :=
  if s.take 3 = [quote, quote, quote] then
    let body := s.drop 3
    let body := (newline? body).getD body
    checked s (lines quote (body.length + 1) body [])
  else checked s (line quote (s.drop 1))

end Toml

end MerlinBridge
