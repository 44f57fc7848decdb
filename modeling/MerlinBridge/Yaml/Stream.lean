import MerlinBridge.Yaml.Comment
import MerlinBridge.Yaml.Token

/-!
# The stream of YAML tokens

Tokens are handed out one after the other, and read only as they are needed: a token is handed out
once the two tokens behind it are known. A scalar, an alias or a bracketed collection may turn out
to be a key only when the colon after it is read. So its place is remembered until then, and the
tokens that open the key, and the block if the key is the first one, are put in there; a token at
such a place is not handed out before the matter is settled. Such a key stands on one line and is
shorter than 1024 characters. One that starts in the column of the block around it cannot be
anything but a key.

Brackets with nothing inside are handed out without waiting for a colon. If one follows later, the
tokens for the key come at the end.
-/

namespace MerlinBridge

namespace Yaml

structure Place where
  number : Nat := 0
  line : Nat := 0
  col : Nat := 0
  pos : Nat := 0
  isOpen : Bool := false
  isRequired : Bool := false

structure Stream where
  cursor : Cursor
  queue : List Token := [.streamStart]
  taken : Nat := 0
  indent : Int := -1
  outer : List Int := []
  allowsKey : Bool := true
  /-- The place of a possible key inside the innermost brackets, and outside them. -/
  place : Place := {}
  outerPlaces : List Place := []
  /-- The tokens at which a key may start, by number, with the number of brackets around them. -/
  waiting : List (Nat × Nat) := []

namespace Stream

def ofFile (file : Bytes) : Stream :=
  { cursor := .ofFile file }

def depth (s : Stream) : Nat :=
  s.outerPlaces.length

def inFlow (s : Stream) : Bool :=
  !s.outerPlaces.isEmpty

def nextNumber (s : Stream) : Nat :=
  s.taken + s.queue.length

def push (s : Stream) (t : Token) : Stream :=
  { s with queue := s.queue ++ [t] }

/-- Puts a token in front of that of a number, or at the end if that one was handed out. -/
def insertAt (s : Stream) (number : Nat) (t : Token) : Stream :=
  if number < s.taken then s.push t
  else
    let i := number - s.taken
    { s with queue := s.queue.take i ++ t :: s.queue.drop i }

def advance (s : Stream) (n : Nat) : Stream :=
  { s with cursor := s.cursor.advance n }

def maxDepth : Nat := 10000

/-! ## Layout -/

/-- Opens a block at a column to the right of the innermost block; its token comes in front of that
of the given number. -/
def openBlock (s : Stream) (col number : Nat) (t : Token) : Option Stream :=
  if !s.inFlow && s.indent < col then
    if maxDepth ≤ s.outer.length then none
    else some ({ s with outer := s.indent :: s.outer, indent := col }.insertAt number t)
  else some s

def closeAll (s : Stream) (col : Int) : List Int → Stream
  | [] => s
  | i :: outer =>
    if col < s.indent then
      closeAll ({ s with indent := i, outer := outer }.push .blockEnd) col outer
    else s

def closeBlocks (s : Stream) (col : Int) : Stream :=
  if s.inFlow then s else s.closeAll col s.outer

/-! ## Places of keys -/

def release (s : Stream) (number : Nat) : Stream :=
  { s with waiting := s.waiting.filter fun w => w.1 ≠ number }

def dropPlace (s : Stream) : Option Stream :=
  if !s.place.isOpen then some s
  else if s.place.isRequired then none
  else some ({ s with place := { s.place with isOpen := false } }.release s.place.number)

def savePlace (s : Stream) : Option Stream :=
  if s.allowsKey then do
    let s ← s.dropPlace
    let here : Place :=
      { number := s.nextNumber
        line := s.cursor.line
        col := s.cursor.col
        pos := s.cursor.pos
        isOpen := true
        isRequired := !s.inFlow && s.indent = s.cursor.col }
    let s := s.release here.number
    pure { s with place := here, waiting := (here.number, s.depth) :: s.waiting }
  else some s

/-- A place at which the text since then cannot be a key any more is no longer open. It must not be
that of a required key. -/
def settle (c : Cursor) (p : Place) : Option Place :=
  if p.isOpen && (p.line < c.line || p.pos + 1024 < c.pos) then
    if p.isRequired then none else some { p with isOpen := false }
  else some p

def settleAt (s : Stream) (depth : Nat) : Option (Bool × Stream) :=
  if depth = s.depth then do
    let p ← settle s.cursor s.place
    pure (p.isOpen, { s with place := p })
  else
    let i := s.depth - 1 - depth
    match s.outerPlaces[i]? with
    | none => none
    | some p => do
      let p ← settle s.cursor p
      pure (p.isOpen, { s with outerPlaces := s.outerPlaces.set i p })

/-! ## White space -/

/-- Goes on to the next token, past white space and comments. Outside brackets a key may start on a
new line. A tab is white space only where no key may start. -/
def skipSpace : (fuel : Nat) → Stream → Option Stream
  | 0, s => some s
  | fuel + 1, s => do
    let c ← s.cursor.ensure 1
    let c := if c.col = 0 && c.isMarked then c.advance 1 else c
    let c ← c.skipWhile fun x => x = ' ' || ((s.inFlow || !s.allowsKey) && x = '\t')
    let c ← if c.head? = some '#' then Cursor.skipComments c.limit c else some c
    if c.isAt isBreak then
      let (_, c) ← c.readBreak
      skipSpace fuel { s with cursor := c, allowsKey := s.allowsKey || !s.inFlow }
    else pure { s with cursor := c }

/-! ## One token -/

/-- Reads a token that a line of its own starts: it closes every block. -/
def startLine (s : Stream) : Option Stream := do
  let s ← (s.closeBlocks (-1)).dropPlace
  pure { s with allowsKey := false }

def readEnd (s : Stream) : Option Stream := do
  let c := s.cursor
  let c := if c.col = 0 then c else { c with col := 0, line := c.line + 1 }
  let s ← { s with cursor := c }.startLine
  pure (s.push .streamEnd)

def readDocumentMark (s : Stream) (t : Token) : Option Stream := do
  let s ← s.startLine
  pure ((s.advance 3).push t)

def readDirective (s : Stream) : Option Stream := do
  let s ← s.startLine
  let (t, c) ← (s.cursor.advance 1).readDirective
  let c ← c.skipWhile isBlank
  let c ← if c.head? = some '#' then c.skipLine else some c
  if !isBreakOrEnd c.head? then none
  let (_, c) ← c.readBreak
  pure ({ s with cursor := c }.push t)

def openFlow (s : Stream) (t : Token) : Option Stream := do
  let s ← s.savePlace
  if maxDepth ≤ s.depth then none
  let inner : Place := { number := s.nextNumber }
  pure (({ s with outerPlaces := s.place :: s.outerPlaces, place := inner,
                  allowsKey := true }.advance 1).push t)

def closeFlow (s : Stream) (t : Token) : Option Stream := do
  let s ← s.dropPlace
  let s :=
    match s.outerPlaces with
    | [] => s
    | p :: outer => { s.release s.place.number with place := p, outerPlaces := outer }
  pure (({ s with allowsKey := false }.advance 1).push t)

def readFlowEntry (s : Stream) : Option Stream := do
  let s ← s.dropPlace
  pure (({ s with allowsKey := true }.advance 1).push .flowEntry)

def openBlockHere (s : Stream) (t : Token) : Option Stream :=
  if s.inFlow then some s
  else if s.allowsKey then s.openBlock s.cursor.col s.nextNumber t
  else none

def readBlockEntry (s : Stream) : Option Stream := do
  let s ← s.openBlockHere .blockSequence
  let s ← s.dropPlace
  pure (({ s with allowsKey := true }.advance 1).push .blockEntry)

def readKey (s : Stream) : Option Stream := do
  let s ← s.openBlockHere .blockMapping
  let s ← s.dropPlace
  pure (({ s with allowsKey := !s.inFlow }.advance 1).push .key)

/-- Reads the colon in front of a value. What stands at an open place is now a key. -/
def readValue (s : Stream) : Option Stream := do
  let (isKey, s) ← s.settleAt s.depth
  if isKey then
    let p := s.place
    let s ← (s.insertAt p.number .key).openBlock p.col p.number .blockMapping
    let s := { s with place := { p with isOpen := false }, allowsKey := false }.release p.number
    pure ((s.advance 1).push .value)
  else
    let s ← s.openBlockHere .blockMapping
    pure (({ s with allowsKey := !s.inFlow }.advance 1).push .value)

def readAnchor (s : Stream) (t : Bytes → Token) : Option Stream := do
  let s ← s.savePlace
  let (name, c) ← (s.cursor.advance 1).readAnchorName
  pure ({ s with allowsKey := false, cursor := c }.push (t name))

def readTag (s : Stream) : Option Stream := do
  let s ← s.savePlace
  let (t, c) ← s.cursor.readTag
  let c ← c.ensure 1
  if !isBlankOrEnd c.head? then none
  pure ({ s with allowsKey := false, cursor := c }.push t)

def readBlockScalar (s : Stream) : Option Stream := do
  let s ← s.dropPlace
  let (text, c) ← block s.indent s.cursor
  pure ({ s with allowsKey := true, cursor := c }.push (.scalar (Bytes.ofChars text) false))

def readQuoted (s : Stream) : Option Stream := do
  let s ← s.savePlace
  let (text, c) ← quoted s.cursor
  pure ({ s with allowsKey := false, cursor := c }.push (.scalar (Bytes.ofChars text) false))

def readPlain (s : Stream) : Option Stream := do
  let s ← s.savePlace
  let (text, broken, c) ← plain s.inFlow (s.indent + 1).toNat s.cursor
  pure ({ s with allowsKey := broken, cursor := c }.push (.scalar (Bytes.ofChars text) true))

/-- Whether a plain scalar can start with the character `x` when `next` comes after it. -/
def startsPlain (inFlow : Bool) (x : Char) (next : Option Char) : Bool :=
  let reserved := ['-', '?', ':', ',', '[', ']', Char.ofNat 0x7B, Char.ofNat 0x7D, '#', '&', '*',
    '!', '|', '>', Char.ofNat 0x27, '"', '%', '@', Char.ofNat 0x60]
  (!isBlank x && !isBreak x && !reserved.contains x) ||
    (x = '-' && !next.any isBlank) ||
    (!inFlow && (x = '?' || x = ':') && !isBlankOrEnd next)

/-- Reads a token that starts with the character `x` and is no mark between documents. -/
def readInner (s : Stream) (x : Char) : Option Stream :=
  let spaced := isBlankOrEnd (s.cursor.peek? 1)
  if x = '[' then s.openFlow .flowSequence
  else if x.toNat = 0x7B then s.openFlow .flowMapping
  else if x = ']' then s.closeFlow .flowSequenceEnd
  else if x.toNat = 0x7D then s.closeFlow .flowMappingEnd
  else if x = ',' then s.readFlowEntry
  else if x = '-' && spaced then s.readBlockEntry
  else if x = '?' && (s.inFlow || spaced) then s.readKey
  else if x = ':' && (s.inFlow || spaced) then s.readValue
  else if x = '*' then s.readAnchor .aliasOf
  else if x = '&' then s.readAnchor .anchor
  else if x = '!' then s.readTag
  else if (x = '|' || x = '>') && !s.inFlow then s.readBlockScalar
  else if x = '"' || x.toNat = 0x27 then s.readQuoted
  else if startsPlain s.inFlow x (s.cursor.peek? 1) then s.readPlain
  else none

/-- Goes past a comment on the line of the last token. Behind a dash it belongs to what follows. -/
def skipLineComment (s : Stream) : Option Stream :=
  if s.queue.getLast? = some .blockEntry then some s
  else s.cursor.skipLineComment.map fun c => { s with cursor := c }

def read (s : Stream) : Option Stream := do
  let s ← skipSpace (s.cursor.limit + 1) s
  let s := s.closeBlocks s.cursor.col
  let c ← s.cursor.ensure 4
  let s := { s with cursor := c }
  match c.head? with
  | none => s.readEnd
  | some x =>
    if c.col = 0 && x = '%' then s.readDirective
    else if c.isIndicator '-' then s.readDocumentMark .documentStart
    else if c.isIndicator '.' then s.readDocumentMark .documentEnd
    else
      let s ← s.readInner x
      s.skipLineComment

/-! ## Handing out -/

def isReady (s : Stream) : Option (Bool × Stream) :=
  if s.queue.length < 3 then some (false, s)
  else
    match s.waiting.find? fun w => w.1 = s.taken with
    | none => some (true, s)
    | some w => (s.settleAt w.2).map fun (isOpen, s) => (!isOpen, s)

def fill : (fuel : Nat) → Stream → Option Stream
  | 0, _ => none
  | fuel + 1, s => do
    let (ready, s) ← s.isReady
    if ready then pure s
    else
      let s ← s.read
      fill fuel s

def peek (s : Stream) : Option (Token × Stream) := do
  let s ← fill (s.cursor.limit + 8) s
  let t ← s.queue.head?
  pure (t, s)

def drop (s : Stream) : Stream :=
  { s with
    queue := s.queue.drop 1
    taken := s.taken + 1
    waiting := s.waiting.filter fun w => s.taken < w.1 }

end Stream

end Yaml

end MerlinBridge
