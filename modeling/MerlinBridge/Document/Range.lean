import MerlinBridge.Text.Decimal

/-!
# Ranges and places

A location is where the definition of an identifier is found: a file, a line counted from one and a
column counted from zero. A range carries the same span of a document twice: as lines and columns,
both counted from one, and as an offset with a length in bytes. All six are 64-bit words, since they
come from the tool and go to the editor as such, and their sum wraps around. A usage is one
occurrence of an identifier, shown with the line that holds it.
-/

namespace MerlinBridge

structure Range where
  startLine : Int64 := 0
  startCol : Int64 := 0
  endLine : Int64 := 0
  endCol : Int64 := 0
  pos : Int64 := 0
  length : Int64 := 0
deriving DecidableEq

namespace Range

def stop (r : Range) : Int64 :=
  r.pos + r.length

/-- Whether the range holds the byte at `offset`. An empty range holds its own position. -/
def contains (r : Range) (offset : Int64) : Bool :=
  if r.length = 0 then offset = r.pos else r.pos ≤ offset && offset < r.stop

/-- Whether `offset` lies in the range or just after it, where a cursor at the end of a word
stands. -/
def covers (r : Range) (offset : Int64) : Bool :=
  r.pos ≤ offset && offset ≤ r.stop

def text (r : Range) : Bytes :=
  "from \x7b" ++ Decimal.ofInt64 r.startLine ++ ";" ++ Decimal.ofInt64 r.startCol ++
    "\x7d to \x7b" ++ Decimal.ofInt64 r.endLine ++ ";" ++ Decimal.ofInt64 r.endCol ++
    "\x7d (pos=" ++ Decimal.ofInt64 r.pos ++ ", len=" ++ Decimal.ofInt64 r.length ++ ")"

end Range

structure Location where
  filename : Bytes
  line : Int64
  col : Int64
deriving DecidableEq

namespace Location

def text (l : Location) : Bytes :=
  l.filename ++ ":" ++ Decimal.ofInt64 l.line ++ ":" ++ Decimal.ofInt64 l.col

end Location

structure Usage where
  filename : Bytes
  lineText : Bytes
  range : Range
deriving DecidableEq

end MerlinBridge
