import MerlinBridge.Text.Utf8
import MerlinBridge.Unicode.Class

/-!
# Patterns

A pattern describes texts. A star stands for any text, a question mark for any character, and square
brackets for one of the characters in them; a backslash takes the meaning of the character behind
it. Every item but the star stands for one character, so the lengths of the beginnings that a
pattern describes are found from left to right, item by item.
-/

namespace MerlinBridge

namespace Shell

inductive PatternItem where
  | char (c : Char)
  | any
  | many
  | oneOf (negated : Bool) (ranges : Unicode.Ranges)
deriving DecidableEq

abbrev Pattern := List PatternItem

namespace Pattern

/-! ## Square brackets -/

def classRanges? (name : String) : Option Unicode.Ranges :=
  match name with
  | "alnum" => some [(0x30, 0x39), (0x41, 0x5A), (0x61, 0x7A)]
  | "alpha" => some [(0x41, 0x5A), (0x61, 0x7A)]
  | "ascii" => some [(0x00, 0x7F)]
  | "blank" => some [(0x09, 0x09), (0x20, 0x20)]
  | "cntrl" => some [(0x00, 0x1F), (0x7F, 0x7F)]
  | "digit" => some [(0x30, 0x39)]
  | "graph" => some [(0x21, 0x7E)]
  | "lower" => some [(0x61, 0x7A)]
  | "print" => some [(0x20, 0x7E)]
  | "punct" => some [(0x21, 0x2F), (0x3A, 0x40), (0x5B, 0x60), (0x7B, 0x7E)]
  | "space" => some [(0x09, 0x0D), (0x20, 0x20)]
  | "upper" => some [(0x41, 0x5A)]
  | "word" => some [(0x30, 0x39), (0x41, 0x5A), (0x5F, 0x5F), (0x61, 0x7A)]
  | "xdigit" => some [(0x30, 0x39), (0x41, 0x46), (0x61, 0x66)]
  | _ => none

def className? : List Char → Option (List Char × List Char)
  | [] => none
  | c :: rest =>
    if c = ':' && rest.take 2 = [']', ']'] then some ([], rest.drop 2)
    else (className? rest).map fun r => (c :: r.1, r.2)

/-- The characters in square brackets up to the closing one, with their backslashes, and what
follows it. `last` is the character in front, and `low` the one in front of a dash, which must not
come after the one behind the dash. -/
def bracketRun? (last : Char) (low : Option Char) : List Char → Option (List Char × List Char)
  | [] => none
  | c :: rest =>
    if c = '\\' then
      match rest with
      | [] => none
      | x :: rest => (bracketRun? x low rest).map fun r => (c :: x :: r.1, r.2)
    else if c = ']' then some ([], rest)
    else if low.any fun l => c < l then none
    else
      (bracketRun? c (if c = '-' then some last else none) rest).map fun r => (c :: r.1, r.2)

def escapedChar (c : Char) : Char :=
  match c with
  | 'a' => Char.ofNat 7
  | 'f' => Char.ofNat 12
  | 'n' => '\n'
  | 'r' => '\r'
  | 't' => '\t'
  | 'v' => Char.ofNat 11
  | c => c

def escapedRanges? (c : Char) : Option Unicode.Ranges :=
  match c with
  | 'd' => classRanges? "digit"
  | 'w' => classRanges? "word"
  | 's' => some [(0x09, 0x0A), (0x0C, 0x0D), (0x20, 0x20)]
  | 'D' => some [(0x00, 0x2F), (0x3A, 0x10FFFF)]
  | 'W' => some [(0x00, 0x2F), (0x3A, 0x40), (0x5B, 0x5E), (0x60, 0x60), (0x7B, 0x10FFFF)]
  | 'S' => some [(0x00, 0x08), (0x0B, 0x0B), (0x0E, 0x1F), (0x21, 0x10FFFF)]
  | _ => none

def member? : List Char → Option (Char × List Char)
  | [] => none
  | c :: rest =>
    if c = '\\' then
      match rest with
      | [] => none
      | x :: rest => some (escapedChar x, rest)
    else some (c, rest)

def members? : (fuel : Nat) → List Char → Option Unicode.Ranges
  | 0, _ => none
  | _ + 1, [] => some []
  | fuel + 1, s =>
    match s with
    | '\\' :: x :: rest =>
      match escapedRanges? x with
      | some rs => (members? fuel rest).map (rs ++ ·)
      | none => range fuel s
    | _ => range fuel s
where
  /-- Reads a character, or two with a dash between them, and goes on. -/
  range (fuel : Nat) (s : List Char) : Option Unicode.Ranges := do
    let (a, rest) ← member? s
    match rest with
    | '-' :: x :: rest =>
      let (b, rest) ← member? (x :: rest)
      if b < a then none
      pure ((a.toNat, b.toNat) :: (← members? fuel rest))
    | rest => pure ((a.toNat, a.toNat) :: (← members? fuel rest))

/-- Reads what follows an opening square bracket. An exclamation mark or a circumflex in front
negates it, and a closing bracket in front is one of the characters. -/
def bracket? (s : List Char) : Option (PatternItem × List Char) :=
  match s with
  | '[' :: '.' :: _ => none
  | '[' :: '=' :: _ => none
  | '[' :: ':' :: rest => do
    let (name, rest) ← className? rest
    let rs ← classRanges? (String.ofList name)
    pure (.oneOf false rs, rest)
  | s => do
    let negated := s.head? = some '!' || s.head? = some '^'
    let last := if negated then s.headD '[' else '['
    let s := if negated then s.drop 1 else s
    let closes := s.head? = some ']'
    let (cs, rest) ←
      if closes then
        if s.length = 1 then none
        else (bracketRun? ']' none (s.drop 1)).map fun r => (']' :: r.1, r.2)
      else bracketRun? last none s
    let rs ← members? (cs.length + 1) cs
    pure (.oneOf negated rs, rest)

/-! ## Reading -/

/-- Reads a pattern, or fails if a bracket is not closed, a range is empty, or a backslash ends
it. -/
def parse? : (fuel : Nat) → List Char → Option Pattern
  | 0, _ => none
  | _ + 1, [] => some []
  | fuel + 1, c :: rest =>
    if c = '*' then (parse? fuel rest).map (.many :: ·)
    else if c = '?' then (parse? fuel rest).map (.any :: ·)
    else if c = '\\' then
      match rest with
      | [] => none
      | x :: rest => (parse? fuel rest).map (.char x :: ·)
    else if c = '[' then do
      let (item, rest) ← bracket? rest
      (parse? fuel rest).map (item :: ·)
    else (parse? fuel rest).map (.char c :: ·)

def ofBytes? (b : Bytes) : Option Pattern :=
  let cs := (Utf8.pieces b).map Utf8.Piece.toChar
  parse? (cs.length + 1) cs

/-- Bytes with a backslash in front of every character that has a meaning in a pattern. -/
def escape (b : Bytes) : Bytes :=
  b.flatMap fun c => if ("*?[\\" : Bytes).contains c then [Bytes.byte '\\', c] else [c]

/-! ## Matching -/

def accepts (c : Char) : PatternItem → Bool
  | .char x => x = c
  | .any => true
  | .many => false
  | .oneOf negated ranges => ranges.any (fun r => r.1 ≤ c.toNat && c.toNat ≤ r.2) ≠ negated

/-- The places that are reached from one of several places, in ascending order, by the characters
that an item stands for. -/
def step (text : Array Char) (places : List Nat) (item : PatternItem) : List Nat :=
  match item with
  | .many =>
    match places with
    | [] => []
    | p :: _ => (List.range (text.size + 1 - p)).map (p + ·)
  | item =>
    places.filterMap fun p =>
      match text[p]? with
      | some c => if accepts c item then some (p + 1) else none
      | none => none

/-- The places at which texts end that start at `start` and that the pattern describes, in ascending
order. -/
def ends (p : Pattern) (text : Array Char) (start : Nat) : List Nat :=
  p.foldl (step text) [start]

def reachesEnd (p : Pattern) (text : Array Char) (start : Nat) : Bool :=
  (p.ends text start).getLast? = some text.size

def matchesIn (p : Pattern) (c : Char) : Bool :=
  p.ends #[c] 0 ≠ [] || p.ends #[c] 1 ≠ []

/-! ## Parts of a value -/

def slice (pieces : List Utf8.Piece) (start stop : Nat) : Bytes :=
  ((pieces.drop start).take (stop - start)).flatMap Utf8.Piece.bytes

def characters (pieces : List Utf8.Piece) : Array Char :=
  (pieces.map Utf8.Piece.toChar).toArray

def removeFront (p : Pattern) (longest : Bool) (value : Bytes) : Bytes :=
  let pieces := Utf8.pieces value
  let found := p.ends (characters pieces) 0
  match if longest then found.getLast? else found.head? with
  | some n => slice pieces n pieces.length
  | none => value

def lineOf (text : Array Char) (place : Nat) : Nat :=
  ((text.toList.take place).filter (· = '\n')).length

/-- The value without the shortest or the longest end that the pattern describes. The shortest one
starts on the first line on which any starts. -/
def removeBack (p : Pattern) (longest : Bool) (value : Bytes) : Bytes :=
  let pieces := Utf8.pieces value
  let text := characters pieces
  let starts := (List.range (text.size + 1)).filter (p.reachesEnd text)
  match starts with
  | [] => value
  | first :: _ =>
    let last := if longest then first else
      ((starts.takeWhile fun n => lineOf text n = lineOf text first).getLast?).getD first
    slice pieces 0 last

/-- The matches of a pattern, leftmost first and as long as possible, none overlapping another. An
empty match does not follow another match directly. `before` is where the last match ended. -/
def matchesFrom (p : Pattern) (text : Array Char) (before : Option Nat) :
    (fuel : Nat) → (start : Nat) → List (Nat × Nat)
  | 0, _ => []
  | fuel + 1, start =>
    if text.size < start then []
    else
      match (p.ends text start).getLast? with
      | none => matchesFrom p text before fuel (start + 1)
      | some stop =>
        if stop = start then
          let more := matchesFrom p text (some stop) fuel (start + 1)
          if before = some start then more else (start, stop) :: more
        else (start, stop) :: matchesFrom p text (some stop) fuel stop

def replace (p : Pattern) (all : Bool) (word value : Bytes) : Bytes :=
  let pieces := Utf8.pieces value
  let text := characters pieces
  let found := matchesFrom p text none (2 * (text.size + 1)) 0
  let found := if all then found else found.take 1
  let r := found.foldl
    (fun (r : Bytes × Nat) m => (r.1 ++ slice pieces r.2 m.1 ++ word, m.2)) ([], 0)
  r.1 ++ slice pieces r.2 pieces.length

def changeCase (p : Pattern) (change : Char → Char) (all : Bool) : List Char → List Char
  | [] => []
  | c :: rest =>
    if p.matchesIn c then change c :: (if all then changeCase p change all rest else rest)
    else c :: changeCase p change all rest

end Pattern

end Shell

end MerlinBridge
