import MerlinBridge.Shell.Sign
import MerlinBridge.Text.Quoted

/-!
# Quotes and escapes of values

A value can be written so that a command line reads it back: as it is, in single quotes, in double
quotes if it has single quotes itself, or with escapes if it has characters that are not printable.
Escapes are read in two ways: those of text in single quotes behind a dollar sign, where what is not
an escape is kept, and those of a value, where it ends the text.
-/

namespace MerlinBridge

namespace Shell

namespace Escape

/-! ## Writing -/

/-- The words that have a meaning of their own at the start of a command. -/
def keywords : List Bytes :=
  ["!", "[[", "]]", "case", "coproc", "do", "done", "elif", "else", "esac", "fi", "for", "function",
    "if", "in", "select", "then", "time", "until", "while", "\x7b", "\x7d"]

def isMeaningful (c : Char) : Bool :=
  c = singleQuote || c = doubleQuote || c = backquote || c = backslash ||
    ";()$|&>< \t\r\n#\x7b~*?[=".toList.contains c

def needsEscape (p : Utf8.Piece) : Bool :=
  p.toChar = Utf8.Piece.replacement || !Unicode.isPrintable p.toChar

def writePiece (p : Utf8.Piece) : Bytes :=
  match p with
  | .stray b => "\\x" ++ Bytes.hex b.toNat 2
  | .char c =>
    if c = singleQuote || c = backslash then "\\" ++ Bytes.ofChar c
    else if needsEscape p then Quoted.escape c
    else Bytes.ofChar c

def write (value : Bytes) : Bytes :=
  let pieces := Utf8.pieces value
  if value = [] then "\x27\x27"
  else if pieces.any needsEscape then "$\x27" ++ pieces.flatMap writePiece ++ "\x27"
  else if !(pieces.any fun p => isMeaningful p.toChar) && !keywords.contains value then value
  else if !value.contains 0x27 then "\x27" ++ value ++ "\x27"
  else
    "\"" ++ value.flatMap (fun b =>
      if b = 0x22 || b = 0x5C || b = 0x60 || b = 0x24 then [0x5C, b] else [b]) ++ "\""

/-! ## Reading -/

def letter? (b : UInt8) : Option UInt8 :=
  if b = Bytes.byte 'a' then some 7
  else if b = Bytes.byte 'b' then some 8
  else if b = Bytes.byte 'f' then some 12
  else if b = Bytes.byte 'n' then some 10
  else if b = Bytes.byte 'r' then some 13
  else if b = Bytes.byte 't' then some 9
  else if b = Bytes.byte 'v' then some 11
  else if b = Bytes.byte '\\' then some b
  else none

def hexWidth? (b : UInt8) : Option Nat :=
  if b = Bytes.byte 'x' then some 2
  else if b = Bytes.byte 'u' then some 4
  else if b = Bytes.byte 'U' then some 8
  else none

def hexValue (ds : Bytes) : Nat :=
  ds.foldl (fun n d => n * 16 + (Bytes.hexValue? d).getD 0) 0

def octalValue (ds : Bytes) : Nat :=
  ds.foldl (fun n d => n * 8 + (d.toNat - 48)) 0

/-- The byte of octal digits: zero if one of them is no octal digit, and the largest one if they do
not fit a byte. -/
def octalByte (ds : Bytes) : UInt8 :=
  if ds.any fun d => 0x37 < d then 0 else (min 255 (octalValue ds)).toUInt8

def charOf (n : Nat) : Char :=
  (Utf8.scalar? 0 n).getD Utf8.Piece.replacement

/-- Text in single quotes behind a dollar sign, with its escapes carried out. A code of zero ends
it. -/
def readFrom : (fuel : Nat) → Bytes → Bytes
  | 0, _ => []
  | _ + 1, [] => []
  | fuel + 1, b :: rest =>
    if b ≠ Bytes.byte '\\' then b :: readFrom fuel rest
    else
      match rest with
      | [] => []
      | x :: rest =>
        match letter? x, hexWidth? x with
        | some y, _ => y :: readFrom fuel rest
        | none, some width =>
          let ds := (rest.take width).takeWhile fun d => (Bytes.hexValue? d).isSome
          let n := hexValue ds
          if ds = [] then b :: x :: readFrom fuel rest
          else if n = 0 then []
          else if width = 2 then n.toUInt8 :: readFrom fuel (rest.drop ds.length)
          else Bytes.ofChar (charOf n) ++ readFrom fuel (rest.drop ds.length)
        | none, none =>
          if x = Bytes.byte 'e' || x = Bytes.byte 'E' then 27 :: readFrom fuel rest
          else if x = 0x27 || x = 0x22 || x = Bytes.byte '?' then x :: readFrom fuel rest
          else if 0x30 ≤ x && x ≤ 0x37 then
            let ds := x :: (rest.take 2).takeWhile Bytes.isDigit
            octalByte ds :: readFrom fuel (rest.drop (ds.length - 1))
          else b :: x :: readFrom fuel rest

def read (raw : Bytes) : Bytes :=
  readFrom (raw.length + 1) raw

def char? (s : Bytes) : Option (Char × Bytes) :=
  match s with
  | [] => none
  | x :: rest =>
    match letter? x, hexWidth? x with
    | some y, _ => some (Char.ofNat y.toNat, rest)
    | none, some width =>
      let ds := rest.take width
      if ds.length < width || !ds.all fun d => (Bytes.hexValue? d).isSome then none
      else (Utf8.scalar? 0 (hexValue ds)).map fun c => (c, rest.drop width)
    | none, none =>
      let ds := x :: rest.take 2
      if ds.length < 3 || !ds.all fun d => 0x30 ≤ d && d ≤ 0x37 then none
      else
        let n := octalValue ds
        if 255 < n then none else some (Char.ofNat n, rest.drop 2)

/-- A value with its escapes carried out. What is not an escape ends it with a character of code
zero. -/
def readValueFrom : (fuel : Nat) → Bytes → List Char
  | 0, _ => []
  | _ + 1, [] => []
  | fuel + 1, b :: rest =>
    if b = Bytes.byte '\\' then
      match char? rest with
      | none => [Char.ofNat 0]
      | some (c, rest) => c :: readValueFrom fuel rest
    else
      match Utf8.decode? (b :: rest) with
      | some (c, n) => c :: readValueFrom fuel (rest.drop (n - 1))
      | none => Utf8.Piece.replacement :: readValueFrom fuel rest

def readValue (value : Bytes) : Bytes :=
  Bytes.ofChars (readValueFrom (value.length + 1) value)

/-! ## Backslashes -/

/-- Text outside quotes without its backslashes. A backslash at the end is left out. -/
def dropBare : Bytes → Bytes
  | [] => []
  | b :: rest =>
    if b = Bytes.byte '\\' then
      match rest with
      | [] => []
      | x :: rest => x :: dropBare rest
    else b :: dropBare rest

/-- Text in double quotes without the backslashes in front of a character that has a meaning there.
Such a character may be a backslash, of which the same is true. -/
def dropQuoted : Bytes → Bytes
  | [] => []
  | b :: rest =>
    match rest with
    | [] => [b]
    | x :: _ =>
      if b = 0x5C && (x = 0x22 || x = 0x5C || x = 0x24 || x = 0x60) then dropQuoted rest
      else b :: dropQuoted rest

end Escape

end Shell

end MerlinBridge
