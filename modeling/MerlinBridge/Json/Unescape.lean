import MerlinBridge.Json.Basic
import MerlinBridge.Text.Utf8

/-!
# Escapes in JSON strings

An escape stands for a character, and `\u` with four hexadecimal digits for a UTF-16 unit. Two units
that form a surrogate pair stand for one character; a surrogate without its partner stands for the
replacement character. Readers differ in what becomes of a second escape that is not the partner: a
`greedy` reader takes it along with the first, a careful one reads it again on its own.
-/

namespace MerlinBridge

namespace Json

def unit (h1 h2 h3 h4 : UInt8) : Nat :=
  let v (h : UInt8) : Nat := (Bytes.hexValue? h).getD 0
  ((v h1 * 16 + v h2) * 16 + v h3) * 16 + v h4

def isSurrogate (n : Nat) : Bool :=
  0xD800 ≤ n && n < 0xE000

def pair? (high low : Nat) : Option Char :=
  if 0xD800 ≤ high && high < 0xDC00 && 0xDC00 ≤ low && low < 0xE000 then
    some (Char.ofNat (0x10000 + (high - 0xD800) * 0x400 + (low - 0xDC00)))
  else none

def unitChar (n : Nat) : Char :=
  if isSurrogate n then Utf8.Piece.replacement else Char.ofNat n

def escapeByte (e : UInt8) : UInt8 :=
  if e = Bytes.byte 'b' then 8
  else if e = Bytes.byte 'f' then 12
  else if e = Bytes.byte 'n' then 10
  else if e = Bytes.byte 'r' then 13
  else if e = Bytes.byte 't' then 9
  else e

/-- The escape `\u` with a unit at the front of `s`, and what follows it. -/
def unitEscape? : Bytes → Option (Nat × Bytes)
  | b :: u :: h1 :: h2 :: h3 :: h4 :: rest =>
    if b = Bytes.byte '\\' && u = Bytes.byte 'u' then some (unit h1 h2 h3 h4, rest) else none
  | _ => none

/-- The character that a unit stands for, and the number of bytes after it that belong to it, given
the text that follows. -/
def resolve (greedy : Bool) (n : Nat) (rest : Bytes) : Char × Nat :=
  if isSurrogate n then
    match unitEscape? rest with
    | some (m, _) =>
      match pair? n m with
      | some c => (c, 6)
      | none => (Utf8.Piece.replacement, if greedy then 6 else 0)
    | none => (Utf8.Piece.replacement, 0)
  else (Char.ofNat n, 0)

/-- The text that the body of a string stands for, as pieces last one first in front of `acc`. -/
def unescapeOnto (greedy : Bool) : (fuel : Nat) → Bytes → (acc : Bytes) → Bytes
  | 0, _, acc => acc
  | _ + 1, [], acc => acc
  | fuel + 1, c :: rest, acc =>
    if c = Bytes.byte '\\' then
      match unitEscape? (c :: rest) with
      | some (n, after) =>
        let (ch, used) := resolve greedy n after
        unescapeOnto greedy fuel (after.drop used) ((Bytes.ofChar ch).reverse ++ acc)
      | none =>
        match rest with
        | [] => acc
        | e :: after => unescapeOnto greedy fuel after (escapeByte e :: acc)
    else unescapeOnto greedy fuel rest (c :: acc)

def unescape (greedy : Bool) (body : Bytes) : Bytes :=
  (unescapeOnto greedy body.length body []).reverse

end Json

end MerlinBridge
