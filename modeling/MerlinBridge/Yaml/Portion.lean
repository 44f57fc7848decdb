import MerlinBridge.Text.Utf8

/-!
# Portions of YAML text

A file is UTF-8, or UTF-16 if a byte order mark in front says so. It is decoded in portions, of 512
bytes each, and only as far as its characters are needed. So an ill-formed or forbidden character
spoils the portion that it is in, but nothing in front of that portion. A character that a portion
cuts in two belongs to the next one.
-/

namespace MerlinBridge

namespace Yaml

def isAllowed (c : Char) : Bool :=
  let n := c.toNat
  n = 0x09 || n = 0x0A || n = 0x0D || (0x20 ≤ n && n ≤ 0x7E) || n = 0x85 ||
    (0xA0 ≤ n && n ≤ 0xD7FF) || (0xE000 ≤ n && n ≤ 0xFFFD) || 0x10000 ≤ n

inductive Encoding where
  | utf8
  | utf16 (lowFirst : Bool)
deriving DecidableEq, Repr

namespace Encoding

/-- The encoding of a file, and the length of the byte order mark in front of it. -/
def ofFile (file : Bytes) : Encoding × Nat :=
  if file.startsWith [0xFF, 0xFE] then (utf16 true, 2)
  else if file.startsWith [0xFE, 0xFF] then (utf16 false, 2)
  else if file.startsWith [0xEF, 0xBB, 0xBF] then (utf8, 3)
  else (utf8, 0)

inductive Start where
  | char (c : Char) (width : Nat)
  | cut
  | bad
deriving DecidableEq

def width? (b : UInt8) : Option Nat :=
  if b < 0x80 then some 1
  else if b < 0xC0 then none
  else if b < 0xE0 then some 2
  else if b < 0xF0 then some 3
  else if b < 0xF8 then some 4
  else none

def startUtf8 (s : Bytes) : Start :=
  match s.head?.bind width? with
  | none => .bad
  | some n =>
    if (s.take n).length < n then .cut
    else
      match Utf8.decode? s with
      | some (c, n) => .char c n
      | none => .bad

def unit (lowFirst : Bool) (a b : UInt8) : Nat :=
  if lowFirst then b.toNat * 256 + a.toNat else a.toNat * 256 + b.toNat

def startUtf16 (lowFirst : Bool) (s : Bytes) : Start :=
  match s with
  | a :: b :: rest =>
    let u := unit lowFirst a b
    if u < 0xD800 || 0xDFFF < u then .char (Char.ofNat u) 2
    else if 0xDC00 ≤ u then .bad
    else
      match rest with
      | x :: y :: _ =>
        let v := unit lowFirst x y
        if 0xDC00 ≤ v && v ≤ 0xDFFF then
          .char (Char.ofNat (0x10000 + (u - 0xD800) * 0x400 + (v - 0xDC00))) 4
        else .bad
      | _ => .cut
  | _ => .cut

def start (e : Encoding) (s : Bytes) : Start :=
  match e with
  | utf8 => startUtf8 s
  | utf16 lowFirst => startUtf16 lowFirst s

/-- The characters of a portion, the ones before it in reverse, and the bytes of a character that is
cut short. Every character takes a byte of the fuel at least. -/
def chars? (e : Encoding) : (fuel : Nat) → (before : List Char) → Bytes →
    Option (List Char × Bytes)
  | 0, before, s => some (before.reverse, s)
  | fuel + 1, before, s =>
    if s = [] then some (before.reverse, [])
    else
      match e.start s with
      | .char c n => if isAllowed c then chars? e fuel (c :: before) (s.drop n) else none
      | .cut => some (before.reverse, s)
      | .bad => none

end Encoding

abbrev Portion := Option (List Char)

namespace Portion

def size : Nat := 512

/-- The portions of a file of which the bytes `held` are left from the portion before, and there is
room for `room` more. -/
def ofBytes (e : Encoding) : (fuel : Nat) → (room : Nat) → (held file : Bytes) → List Portion
  | 0, _, _, _ => []
  | fuel + 1, room, held, file =>
    if file = [] then (if held = [] then [] else [none])
    else
      match e.chars? size [] (held ++ file.take room) with
      | none => [none]
      | some (cs, held) => some cs :: ofBytes e fuel (size - held.length) held (file.drop room)

def ofFile (file : Bytes) : List Portion :=
  let (e, n) := Encoding.ofFile file
  ofBytes e (file.length + 1) (size - n) [] (file.drop n)

end Portion

end Yaml

end MerlinBridge
