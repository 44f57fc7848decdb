import MerlinBridge.Yaml.Cursor

/-!
# Comments in YAML text

A comment goes from a hash sign to the end of its line. Comments are looked for at most 512
characters ahead, past blanks of any kind: on the line of what has just been read, and, behind a
comment, on the lines that follow it. So a tab in front of a comment does no harm there.
-/

namespace MerlinBridge

namespace Yaml

namespace Cursor

def reach : Nat := 512

/-- The distance of the first character from place `i` on that is not in a class, at most
`reach`. -/
def distance (member : Char → Bool) : (fuel i : Nat) → Cursor → Option (Nat × Cursor)
  | 0, i, c => some (i, c)
  | fuel + 1, i, c => do
    let c ← c.ensure (i + 1)
    if (c.peek? i).any member then distance member fuel (i + 1) c else pure (i, c)

/-- Whether a comment comes next but for characters of a class, from place `i` on. -/
def leadsToComment (c : Cursor) (member : Char → Bool) (i : Nat) : Option (Bool × Cursor) := do
  let (i, c) ← distance member (reach - i) i c
  pure (i < reach && c.peek? i = some '#', c)

def skipLineComment (c : Cursor) : Option Cursor :=
  if c.isFresh then some c
  else do
    let (found, c) ← c.leadsToComment isBlank 0
    if found then c.skipLine else pure c

def skipToComment : (fuel : Nat) → Cursor → Option Cursor
  | 0, c => some c
  | fuel + 1, c => do
    let c ← c.ensure 1
    if c.isAt isBreak then
      let (_, c) ← c.readBreak
      skipToComment fuel c
    else if c.isAt isBlank then skipToComment fuel (c.advance 1)
    else pure c

def isPlainBreak (x : Char) : Bool :=
  x = '\r' || x = '\n'

def skipComments : (fuel : Nat) → Cursor → Option Cursor
  | 0, c => some c
  | fuel + 1, c => do
    let c ← c.skipLine
    if c.isAt fun x => !isPlainBreak x then pure c
    else
      let (found, c) ← c.leadsToComment (fun x => isBlank x || isPlainBreak x) 1
      if found then
        let c ← skipToComment c.limit c
        skipComments fuel c
      else pure c

end Cursor

end Yaml

end MerlinBridge
