import MerlinBridge.Yaml.Portion

/-!
# Reading YAML text

The text of a document is read one character at a time. The cursor knows the line and the column of
what comes next, since both have a meaning in YAML, and the number of characters read. A line ends
in a carriage return, a line feed, both together, or one of three other line separators.

Whoever looks ahead says how far. If that reaches a portion that is spoilt, the text cannot be read.
-/

namespace MerlinBridge

namespace Yaml

def isBlank (c : Char) : Bool :=
  c = ' ' || c = '\t'

def isBreak (c : Char) : Bool :=
  c = '\r' || c = '\n' || c.toNat = 0x85 || c.toNat = 0x2028 || c.toNat = 0x2029

def isBlankOrEnd : Option Char → Bool
  | none => true
  | some c => isBlank c || isBreak c

def isBreakOrEnd : Option Char → Bool
  | none => true
  | some c => isBreak c

/-- A character of a name: a letter or a digit of ASCII, an underscore or a dash. -/
def isNameChar (c : Char) : Bool :=
  c.isAlphanum || c = '_' || c = '-'

def isByteOrderMark (c : Char) : Bool :=
  c.toNat = 0xFEFF

structure Cursor where
  rest : List Char := []
  later : List Portion := []
  limit : Nat := 0
  line : Nat := 0
  col : Nat := 0
  pos : Nat := 0
  isFresh : Bool := false
  /-- Whether the characters at hand started with a byte order mark when some were last added. -/
  isMarked : Bool := false

namespace Cursor

def load (n : Nat) (rest : List Char) : List Portion → Option (List Char × List Portion)
  | [] => some (rest, [])
  | p :: later =>
    if (rest.drop (n - 1)).isEmpty then
      match p with
      | none => none
      | some cs => load n (rest ++ cs) later
    else some (rest, p :: later)

/-- Makes sure that the next `n` characters are at hand, as far as there are any. -/
def ensure (c : Cursor) (n : Nat) : Option Cursor :=
  if (c.rest.drop (n - 1)).isEmpty then
    (load n c.rest c.later).map fun (rest, later) =>
      { c with rest := rest, later := later, isMarked := rest.head?.any isByteOrderMark }
  else some c

def ofFile (file : Bytes) : Cursor :=
  { later := Portion.ofFile file, limit := file.length + 1 }

def head? (c : Cursor) : Option Char :=
  c.rest.head?

def peek? (c : Cursor) (i : Nat) : Option Char :=
  c.rest[i]?

def isAt (c : Cursor) (member : Char → Bool) : Bool :=
  c.head?.any member

def advance (c : Cursor) (n : Nat) : Cursor :=
  { c with
    rest := c.rest.drop n
    col := c.col + n
    pos := c.pos + n
    isFresh := c.isFresh && (c.rest.take n).all isBlank }

/-- Goes on past the end of a line, and gives what it stands for: a line feed, or the separator
itself. -/
def readBreak (c : Cursor) : Option (List Char × Cursor) := do
  let c ← c.ensure 2
  let past (n : Nat) : Cursor :=
    { c with
      rest := c.rest.drop n
      line := c.line + 1
      col := 0
      pos := c.pos + n
      isFresh := true }
  match c.rest with
  | [] => pure ([], c)
  | b :: after =>
    if b = '\r' && after.head? = some '\n' then pure (['\n'], past 2)
    else if b.toNat = 0x2028 || b.toNat = 0x2029 then pure ([b], past 1)
    else if isBreak b then pure (['\n'], past 1)
    else pure ([], c)

/-- Reads the characters of a class, none of which ends a line; those before them are given in
reverse. -/
def readRun (member : Char → Bool) : (fuel : Nat) → (before : List Char) → Cursor →
    Option (List Char × Cursor)
  | 0, before, c => some (before.reverse, c)
  | fuel + 1, before, c => do
    let c ← c.ensure 1
    match c.head? with
    | some x =>
      if member x then readRun member fuel (x :: before) (c.advance 1)
      else some (before.reverse, c)
    | none => some (before.reverse, c)

def readWhile (c : Cursor) (member : Char → Bool) : Option (List Char × Cursor) :=
  readRun member c.limit [] c

def skipWhile (c : Cursor) (member : Char → Bool) : Option Cursor :=
  (c.readWhile member).map Prod.snd

def skipLine (c : Cursor) : Option Cursor :=
  c.skipWhile fun x => !isBreak x

/-- Whether the text goes on with three times the same character and a blank after them, at the
start of a line. -/
def isIndicator (c : Cursor) (mark : Char) : Bool :=
  c.col = 0 && c.rest.take 3 = [mark, mark, mark] && isBlankOrEnd (c.peek? 3)

def isDocumentMark (c : Cursor) : Bool :=
  c.isIndicator '-' || c.isIndicator '.'

end Cursor

end Yaml

end MerlinBridge
