import MerlinBridge.Text.Utf8
import MerlinBridge.Unicode.Printable

/-!
# Quoted text

Log lines and messages show arbitrary bytes in double quotes, on one line and without loss. A
printable character stands for itself; a quote and a backslash take a backslash; the control
characters with a letter of their own take it; any other character is written by its code point and
a stray byte by its value.
-/

namespace MerlinBridge

namespace Quoted

def controlLetter? (c : Char) : Option Char :=
  match c.toNat with
  | 7 => some 'a'
  | 8 => some 'b'
  | 12 => some 'f'
  | 10 => some 'n'
  | 13 => some 'r'
  | 9 => some 't'
  | 11 => some 'v'
  | _ => none

/-- A character that is not printable, by its letter or by its code point in hexadecimal: two digits
for an ASCII control character, four up to U+FFFF, eight above. -/
def escape (c : Char) : Bytes :=
  match controlLetter? c with
  | some l => "\\" ++ Bytes.ofChar l
  | none =>
    let n := c.toNat
    if n < 0x20 || n = 0x7F then "\\x" ++ Bytes.hex n 2
    else if n < 0x10000 then "\\u" ++ Bytes.hex n 4
    else "\\U" ++ Bytes.hex n 8

def piece : Utf8.Piece → Bytes
  | .stray b => "\\x" ++ Bytes.hex b.toNat 2
  | .char c =>
    if c = '"' || c = '\\' then "\\" ++ Bytes.ofChar c
    else if Unicode.isPrintable c then Bytes.ofChar c
    else escape c

def quote (b : Bytes) : Bytes :=
  "\"" ++ (Utf8.pieces b).flatMap piece ++ "\""

def asciiPiece (b : UInt8) : Bytes :=
  if b < 0x20 || 0x80 ≤ b then "\\x" ++ Bytes.hex b.toNat 2
  else if b = Bytes.byte '"' || b = Bytes.byte '\\' then [Bytes.byte '\\', b]
  else [b]

/-- A byte string in double quotes, byte by byte: every byte outside ASCII and every control byte is
written by its value. -/
def quoteAscii (b : Bytes) : Bytes :=
  "\"" ++ b.flatMap asciiPiece ++ "\""

end Quoted

end MerlinBridge
