import MerlinBridge.Text.Decimal

/-!
# The text of a document

A position in a document is a line counted from one with a column counted from zero, or an offset
counted from zero; columns and offsets count bytes. The table of the offsets at which lines start
takes one to the other: a position to an offset by look-up, an offset to a position by binary
search for the last line that starts at or before it.

A line ends at its newline, and one carriage return before that newline belongs to the line end.
Text that ends in a newline has an empty last line.
-/

namespace MerlinBridge

structure Text where
  contents : Bytes
deriving DecidableEq

namespace Text

inductive Error where
  | noLine (line : Int64) (count : Nat)
  | negativeColumn (col line : Int64)
  | offsetOutside (offset : Int64) (length : Nat)
deriving DecidableEq

namespace Error

def message : Error → Bytes
  | noLine line count =>
    "line " ++ Decimal.ofInt64 line ++ " is beyond the end of the text (no. of lines " ++
      Decimal.ofNat count ++ ")"
  | negativeColumn col line =>
    "negative column " ++ Decimal.ofInt64 col ++ " on line " ++ Decimal.ofInt64 line
  | offsetOutside offset length =>
    "offset " ++ Decimal.ofInt64 offset ++ " is outside the text (length " ++
      Decimal.ofNat length ++ ")"

end Error

def length (t : Text) : Nat :=
  t.contents.length

/-- The starts of the lines that follow a newline of `b`, where `b` stands at offset `pos`. -/
def startsFrom : (b : Bytes) → (pos : Nat) → List Nat
  | [], _ => []
  | c :: rest, pos =>
    if c = Bytes.newline then (pos + 1) :: startsFrom rest (pos + 1) else startsFrom rest (pos + 1)

theorem startsFrom_cons (c : UInt8) (rest : Bytes) (pos : Nat) :
    startsFrom (c :: rest) pos =
      if c = Bytes.newline then (pos + 1) :: startsFrom rest (pos + 1)
      else startsFrom rest (pos + 1) := rfl

def lineStarts (t : Text) : Array Nat :=
  (0 :: startsFrom t.contents 0).toArray

def lineCount (t : Text) : Nat :=
  t.lineStarts.size

theorem lineCount_pos (t : Text) : 0 < t.lineCount := by
  simp [lineCount, lineStarts]

def slice (t : Text) (start stop : Nat) : Bytes :=
  (t.contents.drop start).take (stop - start)

def index (t : Text) (line : Int64) : Except Error Nat :=
  if line < 1 ∨ (t.lineCount : Int) < line.toInt then .error (.noLine line t.lineCount)
  else .ok (line.toInt.toNat - 1)

def startOf (t : Text) (i : Nat) : Nat :=
  t.lineStarts[i]?.getD 0

def lineAt (t : Text) (i : Nat) : Bytes :=
  let stop :=
    match t.lineStarts[i + 1]? with
    | some next => next - 1
    | none => t.length
  (t.slice (t.startOf i) stop).dropEnd "\r"

def line (t : Text) (line : Int64) : Except Error Bytes := do
  let i ← t.index line
  .ok (t.lineAt i)

/-- The offset of a position. A column past the end of the line stands for that end. -/
def offset (t : Text) (line col : Int64) : Except Error Nat := do
  let i ← t.index line
  if col < 0 then .error (.negativeColumn col line)
  else .ok (t.startOf i + min col.toInt.toNat (t.lineAt i).length)

/-- The last index between `lo` and `hi` whose entry is at most `offset`, given that the entry at
`lo` is and that the entries increase. -/
def lastAtMost (starts : Array Nat) (offset lo hi : Nat) : Nat :=
  if lo < hi then
    let mid := (lo + hi + 1) / 2
    if starts[mid]?.getD 0 ≤ offset then lastAtMost starts offset mid hi
    else lastAtMost starts offset lo (mid - 1)
  else lo
termination_by hi - lo
decreasing_by
  all_goals omega

def position (t : Text) (offset : Int64) : Except Error (Nat × Nat) :=
  if offset < 0 ∨ (t.length : Int) < offset.toInt then .error (.offsetOutside offset t.length)
  else
    let o := offset.toInt.toNat
    let starts := t.lineStarts
    let i := lastAtMost starts o 0 (starts.size - 1)
    .ok (i + 1, o - t.startOf i)

def endOfLine (t : Text) (line : Int64) : Except Error Nat := do
  let i ← t.index line
  .ok (t.startOf i + (t.lineAt i).length)

end Text

end MerlinBridge
