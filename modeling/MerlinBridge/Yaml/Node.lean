import MerlinBridge.Yaml.Stream

/-!
# The nodes of a YAML document

A document is a tree of scalars, sequences and mappings. A node may have a name, by which later
nodes, and even its own parts, refer to it, and a scalar may have a tag. A part of a collection that
is left out is an empty plain scalar.

Named nodes are numbered in the order in which they start, and a reference holds the number. Of two
steps of the recursion one goes past a token, and a text has no more tokens than twice its
characters and a few, so the recursion is bounded by the length of the text.
-/

namespace MerlinBridge

namespace Yaml

inductive Node where
  | scalar (tag : Option Bytes) (isPlain : Bool) (text : Bytes)
  | sequence (items : List Node)
  | mapping (pairs : List (Node × Node))
  /-- A reference to the node of a name, with the number of that node. -/
  | reference (name : Bytes) (number : Nat)

structure Document where
  root : Node
  named : List (Nat × Node) := []

namespace Document

/-- The node that a node stands for: a reference stands for the node that it refers to. -/
def target? (d : Document) : Node → Option Node
  | .reference _ i => (d.named.find? fun x => x.1 = i).map Prod.snd
  | n => some n

end Document

namespace Node

def empty : Node :=
  .scalar none true []

structure Source where
  stream : Stream
  /-- The names so far, the latest first, with the numbers of their nodes. -/
  anchors : List (Bytes × Nat) := []
  named : List (Nat × Node) := []
  handles : List (Bytes × Bytes) := [("!", "!"), ("!!", "tag:yaml.org,2002:")]

namespace Source

def peek (s : Source) : Option (Token × Source) :=
  s.stream.peek.map fun (t, stream) => (t, { s with stream := stream })

def drop (s : Source) : Source :=
  { s with stream := s.stream.drop }

def open? (s : Source) : Option Bytes → Option Nat × Source
  | none => (none, s)
  | some a => (some s.anchors.length, { s with anchors := (a, s.anchors.length) :: s.anchors })

def close (s : Source) (number : Option Nat) (n : Node) : Source :=
  match number with
  | none => s
  | some i => { s with named := (i, n) :: s.named }

/-- The tag of a handle and a suffix. A lone exclamation mark is no tag. -/
def tag? (s : Source) (handle suffix : Bytes) : Option (Option Bytes) :=
  if handle = [] then some (if suffix = "!" then none else some suffix)
  else (s.handles.find? fun x => x.1 = handle).map fun x => some (x.2 ++ suffix)

end Source

/-- What comes in front of a node: a name and a tag, in either order. -/
structure Properties where
  anchor : Option Bytes := none
  tag : Option (Bytes × Bytes) := none

namespace Properties

def isPresent (p : Properties) : Bool :=
  p.anchor.isSome || p.tag.isSome

def read : (fuel : Nat) → Properties → Source → Option (Properties × Source)
  | 0, p, s => some (p, s)
  | fuel + 1, p, s => do
    let (t, s) ← s.peek
    match t, p.anchor, p.tag with
    | .anchor a, none, _ => read fuel { p with anchor := some a } s.drop
    | .tag h x, _, none => read fuel { p with tag := some (h, x) } s.drop
    | _, _, _ => pure (p, s)

end Properties

def endsEntry : Token → Bool
  | .blockEntry => true
  | .key => true
  | .value => true
  | .blockEnd => true
  | _ => false

def endsItem : Token → Bool
  | .blockEntry => true
  | .blockEnd => true
  | _ => false

def endsPair : Token → Bool
  | .key => true
  | .value => true
  | .blockEnd => true
  | _ => false

def endsFlowKey (close t : Token) : Bool :=
  t = .value || t = .flowEntry || t = close

def endsFlowValue (close t : Token) : Bool :=
  t = .flowEntry || t = close

def orEmpty (ends : Token → Bool) (p : Source → Option (Node × Source)) (s : Source) :
    Option (Node × Source) := do
  let (t, s) ← s.peek
  if ends t then pure (empty, s) else p s

/-- Reads a value with `p` behind its colon. Without a colon it is left out. -/
def valueOf (ends : Token → Bool) (p : Source → Option (Node × Source)) (s : Source) :
    Option (Node × Source) := do
  let (t, s) ← s.peek
  if t = .value then orEmpty ends p s.drop else pure (empty, s)

/-- Goes past the comma in front of an entry that is not the first one. -/
def nextEntry (isFirst : Bool) (s : Source) : Option Source :=
  if isFirst then some s
  else do
    let (t, s) ← s.peek
    if t = .flowEntry then pure s.drop else none

mutual

/-- Reads a node. Blocks are found only outside brackets, and a sequence that is not indented only
as part of a mapping. -/
def read (inBlock inMapping : Bool) : (fuel : Nat) → Source → Option (Node × Source)
  | 0, _ => none
  | fuel + 1, s => do
    let (t, s) ← s.peek
    match t with
    | .aliasOf a =>
      let (_, i) ← s.anchors.find? fun x => x.1 = a
      pure (.reference a i, s.drop)
    | _ => do
      let (p, s) ← Properties.read 2 {} s
      let tag ←
        match p.tag with
        | some (h, x) => s.tag? h x
        | none => some none
      let (number, s) := s.open? p.anchor
      let (t, s) ← s.peek
      let (n, s) ←
        match t with
        | .scalar text isPlain => some (Node.scalar tag isPlain text, s.drop)
        | .flowSequence => (readFlowItems true fuel s.drop).map fun (ns, s) => (.sequence ns, s)
        | .flowMapping => (readFlowPairs true fuel s.drop).map fun (ps, s) => (.mapping ps, s)
        | t =>
          if inMapping && t = .blockEntry then
            (readEntries fuel s).map fun (ns, s) => (.sequence ns, s)
          else if inBlock && t = .blockSequence then
            (readItems fuel s.drop).map fun (ns, s) => (.sequence ns, s)
          else if inBlock && t = .blockMapping then
            (readPairs fuel s.drop).map fun (ps, s) => (.mapping ps, s)
          else if p.isPresent then some (.scalar tag true [], s)
          else none
      pure (n, s.close number n)

def readItems : (fuel : Nat) → Source → Option (List Node × Source)
  | 0, _ => none
  | fuel + 1, s => do
    let (t, s) ← s.peek
    match t with
    | .blockEntry =>
      let (n, s) ← orEmpty endsItem (read true false fuel) s.drop
      let (ns, s) ← readItems fuel s
      pure (n :: ns, s)
    | .blockEnd => pure ([], s.drop)
    | _ => none

def readEntries : (fuel : Nat) → Source → Option (List Node × Source)
  | 0, _ => none
  | fuel + 1, s => do
    let (t, s) ← s.peek
    match t with
    | .blockEntry =>
      let (n, s) ← orEmpty endsEntry (read true false fuel) s.drop
      let (ns, s) ← readEntries fuel s
      pure (n :: ns, s)
    | _ => pure ([], s)

def readPairs : (fuel : Nat) → Source → Option (List (Node × Node) × Source)
  | 0, _ => none
  | fuel + 1, s => do
    let (t, s) ← s.peek
    match t with
    | .key =>
      let (k, s) ← orEmpty endsPair (read true true fuel) s.drop
      let (v, s) ← valueOf endsPair (read true true fuel) s
      let (ps, s) ← readPairs fuel s
      pure ((k, v) :: ps, s)
    | .blockEnd => pure ([], s.drop)
    | _ => none

/-- Reads the items of a sequence in brackets. A pair among them is a mapping of its own; where its
key is left out, the token that ends the key is lost. -/
def readFlowItems (isFirst : Bool) : (fuel : Nat) → Source → Option (List Node × Source)
  | 0, _ => none
  | fuel + 1, s => do
    let (t, s) ← s.peek
    if t = .flowSequenceEnd then pure ([], s.drop)
    else
      let s ← nextEntry isFirst s
      let (t, s) ← s.peek
      match t with
      | .flowSequenceEnd => pure ([], s.drop)
      | .key =>
        let (t, s) ← s.drop.peek
        let (k, s) ←
          if endsFlowKey .flowSequenceEnd t then some (empty, s.drop)
          else read false false fuel s
        let (v, s) ← valueOf (endsFlowValue .flowSequenceEnd) (read false false fuel) s
        let (ns, s) ← readFlowItems false fuel s
        pure (.mapping [(k, v)] :: ns, s)
      | _ =>
        let (n, s) ← read false false fuel s
        let (ns, s) ← readFlowItems false fuel s
        pure (n :: ns, s)

def readFlowPairs (isFirst : Bool) :
    (fuel : Nat) → Source → Option (List (Node × Node) × Source)
  | 0, _ => none
  | fuel + 1, s => do
    let (t, s) ← s.peek
    if t = .flowMappingEnd then pure ([], s.drop)
    else
      let s ← nextEntry isFirst s
      let (t, s) ← s.peek
      match t with
      | .flowMappingEnd => pure ([], s.drop)
      | .key =>
        let (k, s) ← orEmpty (endsFlowKey .flowMappingEnd) (read false false fuel) s.drop
        let (v, s) ← valueOf (endsFlowValue .flowMappingEnd) (read false false fuel) s
        let (ps, s) ← readFlowPairs false fuel s
        pure ((k, v) :: ps, s)
      | _ =>
        let (k, s) ← read false false fuel s
        let (ps, s) ← readFlowPairs false fuel s
        pure ((k, empty) :: ps, s)

end

/-- Reads the directives in front of a document. There is one version, and no handle is given
twice. -/
def readDirectives : (fuel : Nat) → (hasVersion : Bool) → (given : List (Bytes × Bytes)) →
    Source → Option (List (Bytes × Bytes) × Source)
  | 0, _, given, s => some (given, s)
  | fuel + 1, hasVersion, given, s => do
    let (t, s) ← s.peek
    match t with
    | .versionDirective major minor =>
      if hasVersion || major ≠ 1 || minor ≠ 1 then none
      readDirectives fuel true given s.drop
    | .tagDirective h x =>
      if given.any fun g => g.1 = h then none
      readDirectives fuel hasVersion ((h, x) :: given) s.drop
    | _ => pure (given, s)

def endsDocument : Token → Bool
  | .versionDirective _ _ => true
  | .tagDirective _ _ => true
  | .documentStart => true
  | .documentEnd => true
  | .streamEnd => true
  | _ => false

/-- Reads the node of a document behind its directives. Without directives it may do without the
mark in front of it. -/
def readRoot (fuel : Nat) (s : Source) : Option (Node × Source) := do
  let (t, s) ← s.peek
  if endsDocument t && t ≠ .documentEnd then
    let (given, s) ← readDirectives fuel false [] s
    let s := { s with handles := given ++ s.handles }
    let (t, s) ← s.peek
    if t ≠ .documentStart then none
    orEmpty endsDocument (read true false fuel) s.drop
  else read true false fuel s

end Node

/-- The first document of a file, if there is one. What follows it is looked at only as far as it
takes to find its end. -/
def Document.ofBytes? (file : Bytes) : Option (Option Document) := do
  let fuel := 4 * file.length + 16
  let (_, s) ← ({ stream := .ofFile file } : Node.Source).peek
  let (t, s) ← s.drop.peek
  if t = .streamEnd then pure none
  else
    let (n, s) ← Node.readRoot fuel s
    let (_, s) ← s.peek
    pure (some { root := n, named := s.named })

end Yaml

end MerlinBridge
