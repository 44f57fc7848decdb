import MerlinBridge.Shell.Word
import MerlinBridge.Text.Decimal

/-!
# Braces in a word

Text outside quotes may hold alternatives in braces, with commas between them, or a range of numbers
or letters, with two points between its ends. The word then stands for several words, one for each
choice. Braces around one alternative, braces that are never closed, and ranges without proper ends
stand for themselves. A backslash has no effect on any of this.

A row of cells holds the parts in front of the first braces. Its size is a power of two, and what
follows those parts goes into the cells that are left, if it fits. The cells are the same for every
choice, so that the last choice that reaches a cell decides what is in it.
-/

namespace MerlinBridge

namespace Shell

inductive Piece where
  | part (p : Part)
  | choice (elements : List (List Piece))

namespace Piece

def ofText (raw : Bytes) : Piece :=
  .part (.bare raw)

def rawText (ps : List Piece) : Bytes :=
  let raws := ps.map fun p =>
    match p with
    | .part (.bare raw) => some raw
    | _ => none
  ((raws.mapM id).map List.flatten).getD []

mutual

def weight : Piece → Nat
  | .part _ => 1
  | .choice elements => 1 + elementsWeight elements

def piecesWeight : List Piece → Nat
  | [] => 0
  | p :: rest => weight p + piecesWeight rest

def elementsWeight : List (List Piece) → Nat
  | [] => 0
  | e :: rest => piecesWeight e + elementsWeight rest

end

end Piece

/-! ## Ranges -/

/-- An end of a range: a number, or a small letter by its code. -/
inductive Bound where
  | number (n : Int64)
  | letter (n : Int64)
deriving DecidableEq

def bound? (t : Bytes) : Option Bound :=
  match Decimal.int64? t with
  | some n => some (.number n)
  | none =>
    match t with
    | [b] => if 97 ≤ b && b ≤ 122 then some (.letter (Int64.ofNat b.toNat)) else none
    | _ => none

/-- The numbers from `lo` on, `step` apart, up to and including `hi`; in either direction. -/
def range (lo hi step : Int) : List Int :=
  let count := (hi - lo).natAbs / step.natAbs
  (List.range (count + 1)).map fun (i : Nat) => lo + i * step

/-- The step of a range: the one that is asked for, if it leads from one end to the other. -/
def stepOf (lo hi : Int) (asked : Option Int64) : Int :=
  let natural : Int := if lo ≤ hi then 1 else -1
  match asked with
  | none => natural
  | some n =>
    if n.toInt = 0 || (0 < n.toInt) ≠ (lo ≤ hi) then natural else n.toInt

def rangeTexts? (lo hi : Bound) (step : Option Int64) : Option (List Bytes) :=
  match lo, hi with
  | .number a, .number b =>
    some ((range a.toInt b.toInt (stepOf a.toInt b.toInt step)).map Decimal.ofInt)
  | .letter a, .letter b =>
    some ((range a.toInt b.toInt (stepOf a.toInt b.toInt step)).map fun n =>
      Bytes.ofChar (Char.ofNat n.toNat))
  | _, _ => none

def rangeOf? (elements : List (List Piece)) : Option (List Bytes) :=
  match elements with
  | lo :: hi :: rest => do
    let a ← bound? (Piece.rawText lo)
    let b ← bound? (Piece.rawText hi)
    match rest with
    | [] => rangeTexts? a b none
    | [step] =>
      let n ← Decimal.int64? (Piece.rawText step)
      rangeTexts? a b (some n)
    | step :: _ => rangeTexts? a b (Decimal.int64? (Piece.rawText step))
  | _ => none

/-! ## Reading braces -/

/-- Open braces: the elements that are complete, the one that is being read, and whether two points
were among them. -/
structure Frame where
  complete : List (List Piece) := []
  current : List Piece := []
  isRange : Bool := false

namespace Frame

def elements (f : Frame) : List (List Piece) :=
  f.complete ++ [f.current]

def next (f : Frame) : Frame :=
  { f with complete := f.elements, current := [] }

def spread (f : Frame) : List Piece :=
  let sep : Bytes := if f.isRange then ".." else ","
  [Piece.ofText sep].intercalate f.elements

def unclosed (f : Frame) : List Piece :=
  .ofText [0x7B] :: f.spread

def plain (f : Frame) : List Piece :=
  f.unclosed ++ [.ofText [0x7D]]

def close (f : Frame) : List Piece :=
  if f.complete.isEmpty then f.plain
  else if !f.isRange then [.choice f.elements]
  else
    match rangeOf? f.elements with
    | some ts => [.choice (ts.map fun t => [.ofText t])]
    | none => f.plain

end Frame

inductive BraceMark where
  | opening
  | closing
  | comma
  | dots
deriving DecidableEq

namespace BraceMark

/-- The mark at a byte, given the next one. Only an opening brace means something outside braces. -/
def at? (isInside : Bool) (b : UInt8) (next : Option UInt8) : Option BraceMark :=
  if b = 0x7B then some opening
  else if !isInside then none
  else if b = 0x7D then some closing
  else if b = Bytes.byte ',' then some comma
  else if b = Bytes.byte '.' && next = some b then some dots
  else none

def length : BraceMark → Nat
  | dots => 2
  | _ => 1

end BraceMark

/-- The state of reading braces: the open ones, innermost first, and what is outside all of them. -/
structure Nesting where
  frames : List Frame := []
  outside : List Piece := []
  hasClosed : Bool := false

namespace Nesting

def add (r : Nesting) (ps : List Piece) : Nesting :=
  match r.frames with
  | [] => { r with outside := r.outside ++ ps }
  | f :: frames => { r with frames := { f with current := f.current ++ ps } :: frames }

def addRun (r : Nesting) (run : Bytes) : Nesting :=
  if run = [] then r else r.add [.ofText run.reverse]

def mark (r : Nesting) (m : BraceMark) : Nesting :=
  match m, r.frames with
  | .opening, frames => { r with frames := {} :: frames }
  | _, [] => r
  | .closing, f :: frames => { r with frames := frames, hasClosed := true }.add f.close
  | .comma, f :: frames => { r with frames := f.next :: frames }
  | .dots, f :: frames => { r with frames := { f.next with isRange := true } :: frames }

/-- Takes in text outside quotes, the text so far being `run` in reverse. The last piece of text is
added even if it is empty. -/
def text (r : Nesting) (run : Bytes) : Bytes → Nesting
  | [] => r.add [.ofText run.reverse]
  | b :: rest =>
    match BraceMark.at? (!r.frames.isEmpty) b rest.head? with
    | none => text r (b :: run) rest
    | some m => text ((r.addRun run).mark m) [] (rest.drop (m.length - 1))
termination_by raw => raw.length
decreasing_by
  all_goals simp only [List.length_drop, List.length_cons]
  all_goals omega

def part (r : Nesting) : Part → Nesting
  | .bare raw => r.text [] raw
  | p => r.add [.part p]

def giveUp (outside : List Piece) : List Frame → List Piece
  | [] => outside
  | [f] => outside ++ f.unclosed
  | f :: g :: frames => giveUp outside ({ g with current := g.current ++ f.unclosed } :: frames)
termination_by frames => frames.length

/-- The pieces once everything is taken in. Braces that are still open stand for themselves. -/
def finish (r : Nesting) : List Piece :=
  giveUp r.outside r.frames

end Nesting

/-! ## Choosing -/

def splitChoice? : List Piece → Option (List Part × List (List Piece) × List Piece)
  | [] => none
  | .choice elements :: rest => some ([], elements, rest)
  | .part p :: rest => (splitChoice? rest).map fun r => (p :: r.1, r.2)

def plainParts (ps : List Piece) : List Part :=
  ps.filterMap fun p =>
    match p with
    | .part p => some p
    | .choice _ => none

/-- The least power of two that is not below `n`, from `size` on, which is a power of two. -/
def rowSize (n size : Nat) : (fuel : Nat) → Nat
  | 0 => size
  | fuel + 1 => if n ≤ size then size else rowSize n (2 * size) fuel

/-- The number of cells behind `n` parts. There is no row without parts. -/
def freeCells (n : Nat) : Nat :=
  if n = 0 then 0 else rowSize n 1 n - n

def writeCells (cells tail : List Part) : List Part :=
  tail ++ cells.drop tail.length

/-- The words with the given parts in front and one of the given tails behind. Tails that fit the
free cells share them. -/
def joinTails (front : List Part) (tails : List (List Part)) : List (List Part) :=
  let free := freeCells front.length
  let cells := tails.foldl (fun cells t => if t.length ≤ free then writeCells cells t else cells) []
  tails.map fun t => front ++ (if t.length ≤ free then cells.take t.length else t)

def choices : (fuel : Nat) → List Piece → List (List Part)
  | 0, _ => []
  | fuel + 1, ps =>
    match splitChoice? ps with
    | none => [plainParts ps]
    | some (front, elements, rest) =>
      joinTails front (elements.flatMap fun e => choices fuel (e ++ rest))

def expandBraces (w : List Part) : List (List Part) :=
  let r := w.foldl Nesting.part {}
  if r.hasClosed then
    let ps := r.finish
    choices (Piece.piecesWeight ps + 1) ps
  else [w]

end Shell

end MerlinBridge
