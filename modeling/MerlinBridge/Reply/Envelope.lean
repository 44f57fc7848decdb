import MerlinBridge.Json.Number
import MerlinBridge.Json.Parser
import MerlinBridge.Text.Utf8

/-!
# Envelopes

Every reply of the tool is a JSON object with a `class` and a `value`. Only the class `return` has a
usable value; with any other class the value says what went wrong. Of repeated members the first one
counts, and all other members are ignored.
-/

namespace MerlinBridge

structure Envelope where
  cls : Bytes
  value : Option Json

namespace Envelope

inductive Error where
  | empty
  | notJson
  | notObject
  | missingClass
deriving DecidableEq, Repr

namespace Error

def message : Error → Bytes
  | empty => "empty response"
  | notJson => "response is not valid JSON"
  | notObject => "response is not a JSON object"
  | missingClass => "response has no class"

end Error

/-- The class that a JSON value names: a string that is not empty. -/
def classOf? : Option Json → Option Bytes
  | some (.string body) =>
    let c := Json.unescape true body
    if c = [] then none else some c
  | _ => none

def ofJson (v : Json) : Except Error Envelope :=
  if v.isObject then
    match classOf? (v.get? "class") with
    | some c => .ok ⟨c, v.get? "value"⟩
    | none => .error .missingClass
  else .error .notObject

def decode (out : Bytes) : Except Error Envelope :=
  let body := Trim.trim out
  if body = [] then .error .empty
  else
    match Json.parse? body with
    | none => .error .notJson
    | some v => ofJson v

end Envelope

structure Complaint where
  cls : Bytes
  message : Bytes
deriving DecidableEq

namespace Complaint

def text (c : Complaint) : Bytes :=
  if c.message = [] then "merlin " ++ c.cls else "merlin " ++ c.cls ++ ": " ++ c.message

def isKnown (c : Complaint) : Bool :=
  c.cls = "exception" || c.cls = "failure" || c.cls = "error"

end Complaint

namespace Envelope

/-- The complaint of an envelope: what its value reads as if that is a string, and its text
otherwise. -/
def complaint? (e : Envelope) : Option Complaint :=
  if e.cls = "return" then none
  else
    some ⟨e.cls,
      match e.value with
      | some (.string body) => Json.unescape true body
      | v => Json.textOf v⟩

end Envelope

end MerlinBridge
