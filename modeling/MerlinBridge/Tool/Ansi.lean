import MerlinBridge.Text.Utf8

/-!
# Terminal escape sequences

What the tool writes to its standard error may hold sequences that colour or move text on a
terminal. They are taken out before the text is shown. A sequence starts with an escape or a control
sequence introducer, goes on with brackets and the like, and ends either in a bell after words
divided by semicolons, or in a final character after numbers divided by semicolons.

A sequence is taken as long as possible. The brackets never have to be given back: what may follow
them cannot start with one, except for a semicolon, which the words may do without. The numbers are
given back only down to their last digit, because a digit is a final character.
-/

namespace MerlinBridge

namespace Ansi

def isDigit (c : Char) : Bool :=
  '0' ≤ c && c ≤ '9'

def isWord (c : Char) : Bool :=
  ('a' ≤ c && c ≤ 'z') || ('A' ≤ c && c ≤ 'Z') || isDigit c

def isIntroducer (c : Char) : Bool :=
  c.toNat = 0x1B || c.toNat = 0x9B

def isOpening (c : Char) : Bool :=
  c = '[' || c = ']' || c = '(' || c = ')' || c = '#' || c = ';' || c = '?'

def isFinal (c : Char) : Bool :=
  isDigit c || ('A' ≤ c && c ≤ 'P') || c = 'R' || c = 'Z' || c = 'c' || ('f' ≤ c && c ≤ 'n') ||
    c = 't' || c = 'q' || c = 'r' || c = 'y' || c = '=' || c = '>' || c = '<' || c = '~'

def afterCommand? (s : List Utf8.Piece) : Option (List Utf8.Piece) :=
  match s.dropWhile fun p => isWord p.toChar || p.toChar = ';' with
  | p :: rest => if p.toChar.toNat = 7 then some rest else none
  | [] => none

/-- The length of numbers of up to four digits divided by semicolons, of which the first has `room`
digits left. -/
def numbersLength : (room : Nat) → List Utf8.Piece → Nat
  | _, [] => 0
  | room, p :: rest =>
    if p.toChar = ';' then numbersLength 4 rest + 1
    else
      match room with
      | 0 => 0
      | room + 1 => if isDigit p.toChar then numbersLength room rest + 1 else 0

/-- The numbers at the front of a text, of which the first has at least one digit, or nothing. -/
def numbers (s : List Utf8.Piece) : List Utf8.Piece :=
  if s.head?.any fun p => isDigit p.toChar then s.take (numbersLength 4 s) else []

def afterControl? (s : List Utf8.Piece) : Option (List Utf8.Piece) :=
  let ns := numbers s
  let rest := s.drop ns.length
  if rest.head?.any fun p => isFinal p.toChar then some (rest.drop 1)
  else
    let given := (ns.reverse.takeWhile fun p => !isDigit p.toChar).length
    if given < ns.length then some (s.drop (ns.length - given)) else none

def afterSequence? : List Utf8.Piece → Option (List Utf8.Piece)
  | [] => none
  | p :: rest =>
    if isIntroducer p.toChar then
      let body := rest.dropWhile fun p => isOpening p.toChar
      (afterCommand? body).or (afterControl? body)
    else none

/-- The pieces that belong to no sequence. Every step takes at least one piece. -/
def stripPieces : (fuel : Nat) → List Utf8.Piece → List Utf8.Piece
  | 0, _ => []
  | _ + 1, [] => []
  | fuel + 1, p :: rest =>
    match afterSequence? (p :: rest) with
    | some after => stripPieces fuel after
    | none => p :: stripPieces fuel rest

def strip (b : Bytes) : Bytes :=
  let ps := Utf8.pieces b
  (stripPieces ps.length ps).flatMap Utf8.Piece.bytes

end Ansi

end MerlinBridge
