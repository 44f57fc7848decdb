import MerlinBridge.Settings.Field
import MerlinBridge.Toml.Statement
import MerlinBridge.Unicode.Case

/-!
# Configuration in TOML

A field is set by its name in lower case, which may be written in any case. A key must not be
repeated. No field is a table: a header can only name a field, which then has an empty value unless
it had one before, or, for a field with a list of texts, add an empty text.
-/

namespace MerlinBridge

namespace Config

namespace FromToml

def field? : List Bytes → Option Field
  | [k] => (Field.named? k).or (Field.named? (Unicode.lower k))
  | _ => none

def text? : Toml.Value → Option Bytes
  | .text t => some t
  | _ => none

def value? : Toml.Value → Option Value
  | .text t => some (.text t)
  | .integer n => some (.number n)
  | .boolean b => some (.switch b)
  | .array items => (items.mapM text?).map Value.texts

structure State where
  config : Config := {}
  closed : List (List Bytes) := []
  elements : List (List Bytes) := []
  inTable : Bool := false

/-- Takes in the header of a table: it gives an empty value to a field without one. A list of texts
has to have one, of which the header can be the table. -/
def touch? (c : Config) (f : Field) : Option Config :=
  match f.kind, c.get f with
  | .texts, .texts (_ :: _) => some c
  | .texts, _ => none
  | k, .unset => c.put f k.empty
  | _, _ => some c

def step (s : State) : Toml.Statement → Option State
  | .pair k v => do
    if s.inTable || s.closed.contains k then none
    let f ← field? k
    let v ← value? v
    let c ← s.config.put f v
    pure { s with config := c, closed := k :: s.closed }
  | .table k => do
    if s.closed.contains k || s.elements.contains k then none
    let f ← field? k
    let c ← touch? s.config f
    pure { s with config := c, closed := k :: s.closed, inTable := true }
  | .element k => do
    let f ← field? k
    if s.closed.contains k || f.kind ≠ .texts then none
    let before := if s.elements.contains k then s.config.merlinFlags.getD [] else []
    let c ← s.config.put f (.texts (before ++ [[]]))
    pure { s with config := c, elements := k :: s.elements, inTable := true }

end FromToml

def ofToml? (file : Bytes) : Option Config := do
  let statements ← Toml.ofBytes? file
  let s ← statements.foldlM FromToml.step {}
  pure s.config

end Config

end MerlinBridge
