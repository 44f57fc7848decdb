import MerlinBridge.Yaml.Cursor

/-!
# Scalars in YAML text

A scalar is written plain, in single or double quotes, or as an indented block. In the first three
forms a line break among the text is folded: one break is a space, and of several the first one is
left out. Blanks around a break are not part of the text.
-/

namespace MerlinBridge

namespace Yaml

/-- The white space between two parts of a scalar: the blanks before any break, the first break, and
the breaks after it. -/
structure Gap where
  blanks : List Char := []
  firstBreak : Option (List Char) := none
  breaks : List Char := []

namespace Gap

def fold (g : Gap) : List Char :=
  match g.firstBreak with
  | none => g.blanks
  | some first =>
    if first.head? = some '\n' then
      if g.breaks = [] then [' '] else g.breaks
    else first ++ g.breaks

/-- Reads white space. After a break, a tab to the left of the column `tabLimit` is an error. -/
def read (tabLimit : Option Nat) : (fuel : Nat) → Cursor → Gap → Option (Gap × Cursor)
  | 0, c, g => some (g, c)
  | fuel + 1, c, g => do
    let c ← c.ensure 1
    match c.head? with
    | none => pure (g, c)
    | some x =>
      if isBlank x then
        if g.firstBreak.isNone then
          read tabLimit fuel (c.advance 1) { g with blanks := g.blanks ++ [x] }
        else if x = '\t' && tabLimit.any (c.col < ·) then none
        else read tabLimit fuel (c.advance 1) g
      else if isBreak x then
        let (b, c) ← c.readBreak
        if g.firstBreak.isNone then
          read tabLimit fuel c { g with blanks := [], firstBreak := some b }
        else read tabLimit fuel c { g with breaks := g.breaks ++ b }
      else pure (g, c)

end Gap

/-! ## Plain scalars -/

def isFlowMark (c : Char) : Bool :=
  c = ',' || c = '?' || c = '[' || c = ']' || c.toNat = 0x7B || c.toNat = 0x7D

/-- Reads the characters of a plain scalar up to a blank or an indicator; those before them are
given in reverse. -/
def plainRun (inFlow : Bool) : (fuel : Nat) → (before : List Char) → Cursor →
    Option (List Char × Cursor)
  | 0, before, c => some (before.reverse, c)
  | fuel + 1, before, c =>
    match c.head? with
    | none => some (before.reverse, c)
    | some x =>
      if isBlank x || isBreak x || (x = ':' && isBlankOrEnd (c.peek? 1)) ||
          (inFlow && isFlowMark x) then
        some (before.reverse, c)
      else do
        let c ← (c.advance 1).ensure 2
        plainRun inFlow fuel (x :: before) c

/-- Reads a plain scalar with the text `acc` read before and the gap `g` after it. Outside brackets
it ends at a line that is indented less than `indent`. Tells also whether a line break follows the
text. -/
def plainFrom (inFlow : Bool) (indent : Nat) :
    (fuel : Nat) → Cursor → (acc : List Char) → Gap → Option (List Char × Bool × Cursor)
  | 0, c, acc, g => some (acc, g.firstBreak.isSome, c)
  | fuel + 1, c, acc, g => do
    let c ← c.ensure 4
    if c.isDocumentMark || c.head? = some '#' then pure (acc, g.firstBreak.isSome, c)
    else
      let (run, c) ← plainRun inFlow c.limit [] c
      let acc := if run = [] then acc else acc ++ g.fold ++ run
      let pending := run = [] && g.firstBreak.isSome
      if c.isAt fun x => isBlank x || isBreak x then
        let (g, c) ← Gap.read (some indent) c.limit c {}
        if !inFlow && c.col < indent then pure (acc, g.firstBreak.isSome, c)
        else plainFrom inFlow indent fuel c acc g
      else pure (acc, pending, c)

def plain (inFlow : Bool) (indent : Nat) (c : Cursor) : Option (List Char × Bool × Cursor) :=
  plainFrom inFlow indent c.limit c [] {}

/-! ## Quoted scalars -/

def hexNumber? (ds : List Char) : Option Nat :=
  ds.foldl (fun acc d => acc.bind fun n =>
    if d.toNat < 0x80 then (Bytes.hexValue? (Bytes.byte d)).map (n * 16 + ·) else none) (some 0)

def escape? (c : Char) : Option Char :=
  match c with
  | '0' => some (Char.ofNat 0)
  | 'a' => some (Char.ofNat 7)
  | 'b' => some (Char.ofNat 8)
  | 't' => some '\t'
  | '\t' => some '\t'
  | 'n' => some '\n'
  | 'v' => some (Char.ofNat 11)
  | 'f' => some (Char.ofNat 12)
  | 'r' => some '\r'
  | 'e' => some (Char.ofNat 27)
  | ' ' => some ' '
  | '"' => some '"'
  | '\\' => some '\\'
  | 'N' => some (Char.ofNat 0x85)
  | '_' => some (Char.ofNat 0xA0)
  | 'L' => some (Char.ofNat 0x2028)
  | 'P' => some (Char.ofNat 0x2029)
  | c => if c.toNat = 0x27 then some c else none

def escapeLength? (c : Char) : Option Nat :=
  match c with
  | 'x' => some 2
  | 'u' => some 4
  | 'U' => some 8
  | _ => none

def readEscape (c : Cursor) : Option (Char × Cursor) := do
  let e ← c.peek? 1
  match escapeLength? e with
  | some n =>
    let c ← (c.advance 2).ensure n
    let ds := c.rest.take n
    if ds.length < n then none
    let v ← hexNumber? ds
    let x ← Utf8.scalar? 0 v
    pure (x, c.advance n)
  | none =>
    let x ← escape? e
    pure (x, c.advance 2)

/-- Reads the characters of a quoted scalar up to a blank, a break or the closing quote; those
before them are given in reverse. The gap is that of a break after a backslash, which is left out of
the text. -/
def quotedRun (single : Bool) (quote : Char) : (fuel : Nat) → (before : List Char) → Cursor →
    Option (List Char × Gap × Cursor)
  | 0, _, _ => none
  | fuel + 1, before, c =>
    match c.head? with
    | none => some (before.reverse, {}, c)
    | some x =>
      if isBlank x || isBreak x then some (before.reverse, {}, c)
      else if single && x = quote && c.peek? 1 = some quote then do
        let c ← (c.advance 2).ensure 2
        quotedRun single quote fuel (x :: before) c
      else if x = quote then some (before.reverse, {}, c)
      else if !single && x = '\\' then
        if (c.peek? 1).any isBreak then do
          let (_, c) ← (c.advance 1).readBreak
          pure (before.reverse, { firstBreak := some [] }, c)
        else do
          let (y, c) ← readEscape c
          let c ← c.ensure 2
          quotedRun single quote fuel (y :: before) c
      else do
        let c ← (c.advance 1).ensure 2
        quotedRun single quote fuel (x :: before) c

def quotedFrom (single : Bool) (quote : Char) :
    (fuel : Nat) → Cursor → (acc : List Char) → Option (List Char × Cursor)
  | 0, _, _ => none
  | fuel + 1, c, acc => do
    let c ← c.ensure 4
    if c.isDocumentMark || c.rest = [] then none
    let (run, g, c) ← quotedRun single quote (c.limit + 1) [] c
    let c ← c.ensure 1
    let acc := acc ++ run
    if c.head? = some quote then pure (acc, c.advance 1)
    else
      let (g, c) ← Gap.read none c.limit c g
      quotedFrom single quote fuel c (acc ++ g.fold)

def quoted (c : Cursor) : Option (List Char × Cursor) := do
  let q ← c.head?
  quotedFrom (q ≠ '"') q (c.limit + 1) (c.advance 1) []

/-! ## Block scalars -/

inductive Chomping where
  | strip
  | clip
  | keep
deriving DecidableEq, Repr

def chomping? (c : Char) : Option Chomping :=
  if c = '+' then some .keep else if c = '-' then some .strip else none

def increment? (c : Char) : Option Nat :=
  if c.isDigit then some (c.toNat - 48) else none

def readMark {α : Type} (meaning? : Char → Option α) (c : Cursor) :
    Option (Option α × Cursor) := do
  let c ← c.ensure 1
  match c.head?.bind meaning? with
  | some a => pure (some a, c.advance 1)
  | none => pure (none, c)

/-- Reads the header of a block behind its indicator: the chomping and the indentation that it asks
for, zero if none. -/
def blockHeader (c : Cursor) : Option (Chomping × Nat × Cursor) := do
  let (chomping, c) ← readMark chomping? c
  let (increment, c) ← readMark increment? c
  if increment = some 0 then none
  let (later, c) ←
    if chomping.isNone && increment.isSome then readMark chomping? c else pure (none, c)
  pure ((chomping.or later).getD .clip, increment.getD 0, c)

/-- Goes on past the spaces to the left of a column; an indentation of zero is not known yet. -/
def skipIndent (indent : Nat) : (fuel : Nat) → Cursor → Option Cursor
  | 0, c => some c
  | fuel + 1, c => do
    let c ← c.ensure 1
    if (indent = 0 || c.col < indent) && c.head? = some ' ' then
      skipIndent indent fuel (c.advance 1)
    else pure c

/-- Reads the blank lines in front of a line of a block. An indentation of zero is not known yet;
the deepest of the blank lines is then the second result. -/
def blockBreaks (indent : Nat) :
    (fuel : Nat) → Cursor → (deepest : Nat) → (acc : List Char) →
      Option (List Char × Nat × Cursor)
  | 0, c, deepest, acc => some (acc, deepest, c)
  | fuel + 1, c, deepest, acc => do
    let c ← skipIndent indent (c.limit + 1) c
    let deepest := max deepest c.col
    if (indent = 0 || c.col < indent) && c.head? = some '\t' then none
    if c.isAt isBreak then
      let (b, c) ← c.readBreak
      blockBreaks indent fuel c deepest (acc ++ b)
    else pure (acc, deepest, c)

structure Block where
  text : List Char := []
  lastBreak : List Char := []
  breaks : List Char := []
  blankStart : Bool := false

def blockLines (literal : Bool) (indent : Nat) :
    (fuel : Nat) → Cursor → Block → Option (Block × Cursor)
  | 0, c, b => some (b, c)
  | fuel + 1, c, b =>
    if c.col = indent && c.rest ≠ [] then do
      let blank := c.isAt isBlank
      let folds := !literal && !b.blankStart && !blank && b.lastBreak.head? = some '\n'
      let joint := if folds then (if b.breaks = [] then [' '] else []) else b.lastBreak
      let (line, c) ← c.readWhile fun x => !isBreak x
      let (lastBreak, c) ← c.readBreak
      let (breaks, _, c) ← blockBreaks indent c.limit c 0 []
      blockLines literal indent fuel c
        { text := b.text ++ joint ++ b.breaks ++ line, lastBreak := lastBreak, breaks := breaks,
          blankStart := blank }
    else some (b, c)

/-- Reads a block scalar. The enclosing indentation is `parent`, -1 at the top. -/
def block (parent : Int) (c : Cursor) : Option (List Char × Cursor) := do
  let literal := c.head? = some '|'
  let (chomping, increment, c) ← blockHeader (c.advance 1)
  let c ← c.skipWhile isBlank
  let c ← if c.head? = some '#' then c.skipLine else some c
  if !isBreakOrEnd c.head? then none
  let (_, c) ← c.readBreak
  let asked : Nat := if increment = 0 then 0 else (max parent 0).toNat + increment
  let (breaks, deepest, c) ← blockBreaks asked c.limit c 0 []
  let indent := if asked = 0 then max (max deepest (parent + 1).toNat) 1 else asked
  let (b, c) ← blockLines literal indent c.limit c { breaks := breaks }
  let ending :=
    match chomping with
    | .strip => []
    | .clip => b.lastBreak
    | .keep => b.lastBreak ++ b.breaks
  pure (b.text ++ ending, c)

end Yaml

end MerlinBridge
