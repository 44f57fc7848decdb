import MerlinBridge.Text.Decimal

/-!
# Timestamps

A timestamp is a date, alone or with a time of day. The year has four digits, and every other number
one or two. The time follows the letter T and then tells its zone, or it follows spaces and does
not. The seconds may have a fraction.
-/

namespace MerlinBridge

namespace Yaml

namespace Timestamp

def number? (s : Bytes) : Option (Nat × Bytes) :=
  let ds := (s.take 2).takeWhile Bytes.isDigit
  if ds = [] then none else some (Decimal.value ds, s.drop ds.length)

def below? (bound : Nat) (s : Bytes) : Option (Nat × Bytes) := do
  let (n, s) ← number? s
  if n < bound then pure (n, s) else none

def mark? (c : Char) (s : Bytes) : Option Bytes :=
  if s.head? = some (Bytes.byte c) then some (s.drop 1) else none

def isLeap (year : Nat) : Bool :=
  year % 4 = 0 && (year % 100 ≠ 0 || year % 400 = 0)

def days (year month : Nat) : Nat :=
  if month = 2 then (if isLeap year then 29 else 28)
  else if month = 4 || month = 6 || month = 9 || month = 11 then 30
  else 31

def date? (s : Bytes) : Option Bytes := do
  let year := s.takeWhile Bytes.isDigit
  if year.length ≠ 4 then none
  let s ← mark? '-' (s.drop 4)
  let (month, s) ← below? 13 s
  if month = 0 then none
  let s ← mark? '-' s
  let (day, s) ← number? s
  if day = 0 || days (Decimal.value year) month < day then none
  pure s

def skipFraction (s : Bytes) : Bytes :=
  match s with
  | p :: d :: rest =>
    if (p = Bytes.byte '.' || p = Bytes.byte ',') && Bytes.isDigit d then
      rest.dropWhile Bytes.isDigit
    else s
  | _ => s

def time? (s : Bytes) : Option Bytes := do
  let (_, s) ← below? 24 s
  let s ← mark? ':' s
  let (_, s) ← below? 60 s
  let s ← mark? ':' s
  let (_, s) ← below? 60 s
  pure (skipFraction s)

/-- Whether a text is the zone of a time: the letter Z, or the distance from it. -/
def isZone (s : Bytes) : Bool :=
  match s with
  | [z] => z = Bytes.byte 'Z'
  | [sign, a, b, colon, c, d] =>
    (sign = Bytes.byte '+' || sign = Bytes.byte '-') && colon = Bytes.byte ':' &&
      [a, b, c, d].all Bytes.isDigit && Decimal.value [a, b] ≤ 24 && Decimal.value [c, d] ≤ 60
  | _ => false

def isTime (s : Bytes) : Bool :=
  match s with
  | [] => true
  | t :: rest =>
    if t = Bytes.byte 'T' || t = Bytes.byte 't' then (time? rest).any isZone
    else if t = Bytes.byte ' ' then
      (time? (rest.dropWhile (· = Bytes.byte ' '))).any List.isEmpty
    else false

end Timestamp

def isTimestamp (t : Bytes) : Bool :=
  (Timestamp.date? t).any Timestamp.isTime

end Yaml

end MerlinBridge
