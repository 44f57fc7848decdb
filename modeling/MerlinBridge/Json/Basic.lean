import MerlinBridge.Text.Bytes

/-!
# JSON values as written

A value keeps the text it was read from: numbers as literals, strings and keys with their escapes,
and the white space between the parts of an array or an object. So `Json.text` gives back the exact
text of a value at any depth, and the members of an object stand in the order of the text, repeated
keys included.
-/

namespace MerlinBridge

namespace Json

structure Spaced (α : Type) where
  before : Bytes
  value : α
  after : Bytes

end Json

inductive Json where
  | null
  | bool (b : Bool)
  | number (literal : Bytes)
  | string (body : Bytes)
  /-- An array. Where there are no items, `blank` is what stands between the brackets. -/
  | array (blank : Bytes) (items : List (Json.Spaced Json))
  /-- An object. A member is what stands between the quotes of its key, and its value. -/
  | object (blank : Bytes) (members : List (Json.Spaced Bytes × Json.Spaced Json))

namespace Json

def quoted (body : Bytes) : Bytes :=
  "\"" ++ body ++ "\""

mutual

def text : Json → Bytes
  | null => "null"
  | bool true => "true"
  | bool false => "false"
  | number literal => literal
  | string body => quoted body
  | array blank items => "[" ++ blank ++ itemsText items ++ "]"
  | object blank members => "\x7b" ++ blank ++ membersText members ++ "\x7d"

def spacedText : Spaced Json → Bytes
  | ⟨before, v, after⟩ => before ++ text v ++ after

def itemsText : List (Spaced Json) → Bytes
  | [] => []
  | [v] => spacedText v
  | v :: w :: rest => spacedText v ++ "," ++ itemsText (w :: rest)

def memberText : Spaced Bytes × Spaced Json → Bytes
  | (⟨before, key, after⟩, v) => before ++ quoted key ++ after ++ ":" ++ spacedText v

def membersText : List (Spaced Bytes × Spaced Json) → Bytes
  | [] => []
  | [m] => memberText m
  | m :: n :: rest => memberText m ++ "," ++ membersText (n :: rest)

end

inductive Kind where
  | null
  | false
  | number
  | string
  | true
  | composite
deriving DecidableEq, Repr

def kind : Json → Kind
  | null => .null
  | bool b => if b then .true else .false
  | number _ => .number
  | string _ => .string
  | array _ _ => .composite
  | object _ _ => .composite

def isArray : Json → Bool
  | array _ _ => true
  | _ => false

def isObject : Json → Bool
  | object _ _ => true
  | _ => false

def items : Json → List Json
  | array _ items => items.map Spaced.value
  | _ => []

def members : Json → List (Bytes × Json)
  | object _ members => members.map fun m => (m.1.value, m.2.value)
  | _ => []

def isBlank (b : UInt8) : Bool :=
  b = 0x20 || b = 0x09 || b = 0x0A || b = 0x0D

end Json

end MerlinBridge
