import MerlinBridge.Text.Bytes
import MerlinBridge.Unicode.Class

/-!
# UTF-8

A byte string is read as UTF-8 one character at a time, from either end. A byte that starts no
well-formed sequence (a stray continuation byte, an overlong form, a surrogate, a code point above
U+10FFFF, a sequence cut short) is a piece of its own, so that every byte string can be read and
nothing is lost, and such a byte is told apart from the replacement character itself. It is no white
space either, so that the white space around a text ends with it.
-/

namespace MerlinBridge

namespace Utf8

/-- One step of reading: a character, or a byte that belongs to none. -/
inductive Piece where
  | char (c : Char)
  | stray (b : UInt8)
deriving DecidableEq, Repr

namespace Piece

def replacement : Char := Char.ofNat 0xFFFD

def toChar : Piece → Char
  | char c => c
  | stray _ => replacement

def bytes : Piece → Bytes
  | char c => Bytes.ofChar c
  | stray b => [b]

def isStray : Piece → Bool
  | char _ => false
  | stray _ => true

end Piece

def tail? (b : UInt8) : Option Nat :=
  if 0x80 ≤ b && b ≤ 0xBF then some (b.toNat - 0x80) else none

/-- The character of a code point that needs at least `least`, unless it is a surrogate or too
large. -/
def scalar? (least n : Nat) : Option Char :=
  if n < least then none else
  if n < 0xD800 || (0xDFFF < n && n < 0x110000) then some (Char.ofNat n) else none

/-- Reads the first character of `b`, if a well-formed sequence stands there, and its length. -/
def decode? (b : Bytes) : Option (Char × Nat) :=
  match b with
  | [] => none
  | b0 :: rest =>
    if b0 < 0x80 then some (Char.ofNat b0.toNat, 1)
    else if b0 < 0xC0 then none
    else if b0 < 0xE0 then
      match rest with
      | b1 :: _ => do
        let t1 ← tail? b1
        let c ← scalar? 0x80 ((b0.toNat - 0xC0) * 64 + t1)
        pure (c, 2)
      | _ => none
    else if b0 < 0xF0 then
      match rest with
      | b1 :: b2 :: _ => do
        let t1 ← tail? b1
        let t2 ← tail? b2
        let c ← scalar? 0x800 (((b0.toNat - 0xE0) * 64 + t1) * 64 + t2)
        pure (c, 3)
      | _ => none
    else if b0 < 0xF8 then
      match rest with
      | b1 :: b2 :: b3 :: _ => do
        let t1 ← tail? b1
        let t2 ← tail? b2
        let t3 ← tail? b3
        let c ← scalar? 0x10000 ((((b0.toNat - 0xF0) * 64 + t1) * 64 + t2) * 64 + t3)
        pure (c, 4)
      | _ => none
    else none

def pieces : Bytes → List Piece
  | [] => []
  | b :: rest =>
    match decode? (b :: rest) with
    | some (c, n) => .char c :: pieces (rest.drop (n - 1))
    | none => .stray b :: pieces rest
termination_by b => b.length
decreasing_by
  all_goals simp only [List.length_drop, List.length_cons]
  all_goals omega

def valid (b : Bytes) : Bool :=
  (pieces b).all fun p => !p.isStray

def isStart (b : UInt8) : Bool :=
  b < 0x80 || 0xC0 ≤ b

/-- The last character of a byte string given last byte first: the sequence that ends at the last
byte and starts at the nearest byte, no more than four back, that can start one. -/
def decodeLast (reversed : Bytes) : Option (Piece × Nat) :=
  match reversed with
  | [] => none
  | b :: _ =>
    let back := (reversed.take 4).findIdx isStart
    match decode? (reversed.take (back + 1)).reverse with
    | some (c, n) => if n = back + 1 then some (.char c, n) else some (.stray b, 1)
    | none => some (.stray b, 1)

def scrub (b : Bytes) : Bytes :=
  Bytes.ofChars ((pieces b).map Piece.toChar)

def length (b : Bytes) : Nat :=
  (pieces b).length

end Utf8

namespace Trim

def isBlank : Utf8.Piece → Bool
  | .char c => Unicode.isBlank c
  | .stray _ => false

def leading (ps : List Utf8.Piece) : List Utf8.Piece :=
  ps.dropWhile isBlank

def trailing (ps : List Utf8.Piece) : List Utf8.Piece :=
  (ps.reverse.dropWhile isBlank).reverse

def trim (b : Bytes) : Bytes :=
  (trailing (leading (Utf8.pieces b))).flatMap Utf8.Piece.bytes

end Trim

end MerlinBridge
