import MerlinBridge.Settings.Field
import MerlinBridge.Yaml.Meaning

/-!
# Configuration in YAML

The first document of the file is a mapping from the names of fields in lower case, or nothing. No
key is repeated. A text field takes any scalar as it is written, a number may be written with a
fraction, which does not count, and a switch knows more words than YAML does. Null leaves a field
unset, and is left out of a list; the value of a null key is not looked at. The mappings of a merge
key come in behind: they set what the mapping itself does not name, and the earlier of them win.

A document in which nearly everything is reached by way of references is refused, and so is a
reference from inside the node that it refers to. The steps are counted for that.
-/

namespace MerlinBridge

namespace Config

namespace FromYaml

/-! ## Steps -/

/-- The number of nodes looked at so far, and how many of them inside a node that a reference refers
to. -/
structure Effort where
  nodes : Nat := 0
  referred : Nat := 0
deriving DecidableEq, Repr

namespace Effort

/-- Whether the part of the nodes that references lead to is too great: more than 99 of 100 up to
400000 nodes, more than one of ten from 4000000 nodes on, and in between along a straight line. -/
def isExcessive (e : Effort) : Bool :=
  100 < e.referred && 1000 < e.nodes &&
    if e.nodes ≤ 400000 then 99 * e.nodes < 100 * e.referred
    else if 4000000 ≤ e.nodes then e.nodes < 10 * e.referred
    else (99 * 3600000 - 89 * (e.nodes - 400000)) * e.nodes < 360000000 * e.referred

end Effort

abbrev Way := List Nat

abbrev Steps := StateT Effort Option

def Effort.next (e : Effort) (way : Way) : Effort :=
  { nodes := e.nodes + 1, referred := if way.isEmpty then e.referred else e.referred + 1 }

def visit (way : Way) : Steps Unit :=
  fun e => if (e.next way).isExcessive then none else some ((), e.next way)

def follow (d : Yaml.Document) (way : Way) (n : Yaml.Node) : Steps (Yaml.Node × Way) := do
  visit way
  match n with
  | .reference _ i =>
    if way.contains i then failure
    visit (i :: way)
    let m ← (d.target? n : Option Yaml.Node)
    pure (m, i :: way)
  | n => pure (n, way)

/-! ## Values -/

def meaning? : Yaml.Node → Option (Yaml.Meaning × Bytes)
  | .scalar tag isPlain t => (Yaml.Meaning.ofScalar? tag isPlain t).map fun m => (m, t)
  | _ => none

def asText (m : Yaml.Meaning) (written : Bytes) : Option Bytes :=
  match m with
  | .null => none
  | .text t => some t
  | _ => some written

def text (d : Yaml.Document) (way : Way) (n : Yaml.Node) : Steps (Option Bytes) := do
  let (n, _) ← follow d way n
  let (m, written) ← (meaning? n : Option (Yaml.Meaning × Bytes))
  pure (asText m written)

def word? (n : Int) : Option Int64 :=
  if Decimal.fitsInt64 n then some (Int64.ofInt n) else none

def isAtMostWord (x : Json.Double) : Bool :=
  x.negative ||
    match x.magnitude with
    | .finite m e =>
      let a := Binary64.fraction m e
      a.1 ≤ 0x8000000000000000 * a.2
    | .infinite => false

def number? : Yaml.Meaning → Option Value
  | .null => some .unset
  | .integer n => (word? n).map Value.number
  | .float x => if isAtMostWord x then some (.number x.toInt64) else none
  | _ => none

def onWords : List Bytes := ["y", "Y", "yes", "Yes", "YES", "on", "On", "ON"]

def offWords : List Bytes := ["n", "N", "no", "No", "NO", "off", "Off", "OFF"]

def switch? : Yaml.Meaning → Option Value
  | .null => some .unset
  | .boolean b => some (.switch b)
  | .text t =>
    if onWords.contains t then some (.switch true)
    else if offWords.contains t then some (.switch false)
    else none
  | _ => none

def scalarValue? (k : Kind) (n : Yaml.Node) : Option Value := do
  let (m, written) ← meaning? n
  match k with
  | .text => pure (((asText m written).map Value.text).getD .unset)
  | .number => number? m
  | .switch => switch? m
  | .texts =>
    match m with
    | .null => pure .unset
    | _ => none

def value (d : Yaml.Document) (way : Way) (k : Kind) (n : Yaml.Node) : Steps Value := do
  let (n, way) ← follow d way n
  match k, n with
  | .texts, .sequence items =>
    let ts ← items.mapM (text d way)
    pure (.texts (ts.filterMap id))
  | k, n => (scalarValue? k n : Option Value)

/-! ## Mappings -/

def sameKey : Yaml.Node → Yaml.Node → Bool
  | .scalar _ _ t, .scalar _ _ u => t = u
  | .sequence _, .sequence _ => true
  | .mapping _, .mapping _ => true
  | .reference a _, .reference b _ => a = b
  | _, _ => false

def isRepeated : List (Yaml.Node × Yaml.Node) → Bool
  | [] => false
  | p :: rest => rest.any (fun q => sameKey p.1 q.1) || isRepeated rest

def isMerge : Yaml.Node → Bool
  | .scalar none isPlain t => isPlain && t = "<<"
  | .scalar (some tag) _ t => Yaml.Meaning.kind? tag = some "merge" && t = "<<"
  | _ => false

def mergedNodes : Yaml.Node → List Yaml.Node
  | .sequence items => items
  | n => [n]

structure State where
  config : Config := {}
  own : List Field := []
  /-- The names that mappings below must not set, where this one is below another one. -/
  hidden : Option (List Bytes) := none

def pair (d : Yaml.Document) (way : Way) (s : State) (p : Yaml.Node × Yaml.Node) :
    Steps State := do
  match ← text d way p.1 with
  | none => pure s
  | some name =>
    if s.hidden.any (·.contains name) then pure s
    else
      let f ← (Field.named? name : Option Field)
      if s.own.contains f then failure
      let v ← value d way f.kind p.2
      let c ← (s.config.put f v : Option Config)
      pure { config := c, own := f :: s.own, hidden := s.hidden.map (name :: ·) }

def names (d : Yaml.Document) (way : Way) (ps : List (Yaml.Node × Yaml.Node)) :
    Steps (List Bytes) := do
  let ns ← ps.mapM fun p => text d way p.1
  pure (ns.filterMap id)

/-- Takes in the pairs of a mapping, but not those of hidden names, and then those merged into
it. -/
def pairs (d : Yaml.Document) : (depth : Nat) → Way → Config → (hidden : Option (List Bytes)) →
    List (Yaml.Node × Yaml.Node) → Steps (Config × Option (List Bytes))
  | 0, _, _, _, _ => failure
  | depth + 1, way, c, hidden, ps => do
    if isRepeated ps then failure
    let s ← (ps.filter fun p => !isMerge p.1).foldlM (pair d way) { config := c, hidden := hidden }
    match ps.find? fun p => isMerge p.1 with
    | none => pure (s.config, s.hidden)
    | some m =>
      let below ←
        match s.hidden with
        | some ns => pure ns
        | none => names d way ps
      let (c, below) ← (mergedNodes m.2).foldlM (fun (c, below) n => do
        let (n, way) ← follow d way n
        match n with
        | .mapping qs => pairs d depth way c below qs
        | _ => failure) (s.config, some below)
      pure (c, hidden.bind fun _ => below)

def document (d : Yaml.Document) (depth : Nat) : Steps Config := do
  visit []
  let (n, way) ← follow d [] d.root
  match n with
  | .mapping ps =>
    let (c, _) ← pairs d depth way {} none ps
    pure c
  | n =>
    match meaning? n with
    | some (.null, _) => pure {}
    | _ => failure

end FromYaml

def ofYaml? (file : Bytes) : Option Config := do
  match ← Yaml.Document.ofBytes? file with
  | none => pure {}
  | some d =>
    let (c, _) ← (FromYaml.document d (2 * file.length + 2)).run {}
    pure c

end Config

end MerlinBridge
