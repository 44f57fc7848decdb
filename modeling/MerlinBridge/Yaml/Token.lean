import MerlinBridge.Text.Decimal
import MerlinBridge.Yaml.Scalar

/-!
# The tokens of YAML text

A document is a sequence of tokens. The layout of the text has tokens of its own: a block opens
where the indentation grows and closes where it shrinks. This module has the tokens, and reads the
names, tags and directives among them.
-/

namespace MerlinBridge

namespace Yaml

/-- A token. Every collection is opened and closed by tokens of its own. -/
inductive Token where
  | streamStart
  | streamEnd
  | versionDirective (major minor : Nat)
  | tagDirective (handle start : Bytes)
  | documentStart
  | documentEnd
  | blockSequence
  | blockMapping
  | blockEnd
  | flowSequence
  | flowSequenceEnd
  | flowMapping
  | flowMappingEnd
  | blockEntry
  | flowEntry
  | key
  | value
  | aliasOf (name : Bytes)
  | anchor (name : Bytes)
  | tag (handle suffix : Bytes)
  | scalar (text : Bytes) (plain : Bool)
deriving DecidableEq, Repr

namespace Cursor

/-! ## Names -/

def readAnchorName (c : Cursor) : Option (Bytes × Cursor) := do
  let (name, c) ← c.readWhile isNameChar
  let ends := isBlankOrEnd c.head? || c.isAt fun x =>
    ['?', ':', ',', ']', Char.ofNat 0x7D, '%', '@', Char.ofNat 0x60].contains x
  if name = [] || !ends then none
  pure (Bytes.ofChars name, c)

/-! ## Tags -/

def isTagChar (c : Char) : Bool :=
  isNameChar c || [';', '/', '?', ':', '@', '&', '=', '+', '$', ',', '.', '!', '~', '*', '(', ')',
    '[', ']', Char.ofNat 0x27].contains c

def readOctet (c : Cursor) : Option (UInt8 × Cursor) := do
  let c ← c.ensure 3
  match c.rest with
  | '%' :: x :: y :: _ =>
    let n ← hexNumber? [x, y]
    pure (n.toUInt8, c.advance 3)
  | _ => none

def readContinuation : (n : Nat) → Cursor → Option (Bytes × Cursor)
  | 0, c => some ([], c)
  | n + 1, c => do
    let (b, c) ← c.readOctet
    if b < 0x80 || 0xBF < b then none
    let (bs, c) ← readContinuation n c
    pure (b :: bs, c)

def readOctets (c : Cursor) : Option (Bytes × Cursor) := do
  let (b, c) ← c.readOctet
  let n ← Encoding.width? b
  let (bs, c) ← readContinuation (n - 1) c
  pure (b :: bs, c)

def readTagName : (fuel : Nat) → (acc : Bytes) → Cursor → Option (Bytes × Cursor)
  | 0, _, _ => none
  | fuel + 1, acc, c => do
    let c ← c.ensure 1
    match c.head? with
    | none => pure (acc, c)
    | some '%' =>
      let (bs, c) ← c.readOctets
      readTagName fuel (acc ++ bs) c
    | some x =>
      if isTagChar x then readTagName fuel (acc ++ Bytes.ofChar x) (c.advance 1)
      else pure (acc, c)

/-- Reads the handle of a tag: an exclamation mark, a name, and perhaps a second mark. -/
def readHandle (c : Cursor) : Option (Bytes × Cursor) := do
  let c ← c.ensure 1
  if c.head? ≠ some '!' then none
  let (name, c) ← (c.advance 1).readWhile isNameChar
  if c.head? = some '!' then pure (Bytes.ofChars ('!' :: name ++ ['!']), c.advance 1)
  else pure (Bytes.ofChars ('!' :: name), c)

/-- Reads a tag: in full in angle brackets, with a handle, or a local one. -/
def readTag (c : Cursor) : Option (Token × Cursor) := do
  let c ← c.ensure 2
  if c.peek? 1 = some '<' then
    let (name, c) ← readTagName (c.limit + 1) [] (c.advance 2)
    if name = [] || c.head? ≠ some '>' then none
    pure (.tag [] name, c.advance 1)
  else
    let (handle, c) ← c.readHandle
    if 2 ≤ handle.length && handle.getLast? = some (Bytes.byte '!') then
      let (name, c) ← readTagName (c.limit + 1) [] c
      if name = [] then none
      pure (.tag handle name, c)
    else
      let (name, c) ← readTagName (c.limit + 1) (handle.drop 1) c
      pure (if name = [] then (.tag [] "!", c) else (.tag "!" name, c))

/-! ## Directives -/

def readVersionNumber (c : Cursor) : Option (Nat × Cursor) := do
  let (ds, c) ← c.readWhile Char.isDigit
  if ds = [] || 2 < ds.length then none
  pure (Decimal.value (Bytes.ofChars ds), c)

def readDirective (c : Cursor) : Option (Token × Cursor) := do
  let (name, c) ← c.readWhile isNameChar
  if name = [] || !isBlankOrEnd c.head? then none
  let c ← c.skipWhile isBlank
  if name = ['Y', 'A', 'M', 'L'] then
    let (major, c) ← c.readVersionNumber
    if c.head? ≠ some '.' then none
    let (minor, c) ← (c.advance 1).readVersionNumber
    pure (.versionDirective major minor, c)
  else if name = ['T', 'A', 'G'] then
    let (handle, c) ← c.readHandle
    if handle ≠ "!" && handle.getLast? ≠ some (Bytes.byte '!') then none
    let c ← c.ensure 1
    if !c.isAt isBlank then none
    let c ← c.skipWhile isBlank
    let (start, c) ← readTagName (c.limit + 1) [] c
    if start = [] || !isBlankOrEnd c.head? then none
    pure (.tagDirective handle start, c)
  else none

end Cursor

end Yaml

end MerlinBridge
