import MerlinBridge.Json.Parser
import MerlinBridge.Json.Unescape
import MerlinBridge.Settings.Field
import MerlinBridge.Text.Utf8

/-!
# Configuration in JSON

The first value of the file is read, and what follows it is not looked at. It is an object, whose
members are named by the mixed case names of the fields without regard to case, or null, which sets
nothing. Where a name is repeated, the last member wins; a null in a list of texts then stands for
the text that an earlier list had at its place.
-/

namespace MerlinBridge

namespace Config

namespace FromJson

/-- The text of a string or a key. A byte that is not part of a character is replaced. -/
def text (body : Bytes) : Bytes :=
  Utf8.scrub (Json.unescape false body)

/-- The capital letter of a letter; two letters outside ASCII have one inside it. -/
def foldChar (c : Char) : Char :=
  if c.toNat = 0x17F then 'S' else if c.toNat = 0x212A then 'K' else c.toUpper

def fold (b : Bytes) : List Char :=
  (Utf8.pieces b).map fun p => foldChar p.toChar

def field? (key : Bytes) : Option Field :=
  Field.all.find? fun f => fold f.label = fold key

/-- The texts of a list, on top of the texts `old` that were there. A null keeps the old text at its
place, or is empty. -/
def texts? : (old : List Bytes) → List Json → Option (List Bytes)
  | _, [] => some []
  | old, .null :: rest => (texts? (old.drop 1) rest).map (old.head?.getD [] :: ·)
  | old, .string body :: rest => (texts? (old.drop 1) rest).map (text body :: ·)
  | _, _ :: _ => none

def value? (old : List Bytes) : Json → Option Value
  | .null => some .unset
  | .bool b => some (.switch b)
  | .number literal => (Decimal.int64? literal).map Value.number
  | .string body => some (.text (text body))
  | .array _ items => (texts? old (items.map Json.Spaced.value)).map Value.texts
  | .object _ _ => none

/-- The texts to build on after a value: an empty list and a null leave none, and a shorter list
does not touch the texts behind its end. -/
def keep (old : List Bytes) : Value → List Bytes
  | .texts [] => []
  | .texts ts => ts ++ old.drop ts.length
  | .unset => []
  | _ => old

structure State where
  config : Config := {}
  old : List Bytes := []

def member? (s : State) (m : Bytes × Json) : Option State := do
  let f ← field? (text m.1)
  let v ← value? s.old m.2
  let c ← s.config.put f v
  pure { config := c, old := if f.kind = .texts then keep s.old v else s.old }

end FromJson

def ofJson? (file : Bytes) : Option Config :=
  match Json.first? file with
  | some (.null, _) => some {}
  | some (.object blank members, _) =>
    ((Json.object blank members).members.foldlM FromJson.member? {}).map FromJson.State.config
  | _ => none

end Config

end MerlinBridge
