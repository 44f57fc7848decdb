import MerlinBridge.Reply.Span

/-!
# Payloads

The value of a reply has a shape of its own for each command. A reply to `errors` lists diagnostics
and rename hints, one to `complete-prefix` the candidates, one to `occurrences` the spans; an entry
that does not have its shape is left out and noted with its index, and the others stay. A reply to
`locate` is a place in a file, or a text that says why there is none.
-/

namespace MerlinBridge

namespace Payload

inductive Skip where
  /-- The quick fixes are no array, and all of them are left out. -/
  | quickFixes (text : Bytes)
  | error (index : Nat) (cause : Pos.Error)
  | quickFix (index : Nat) (cause : Pos.Error)
  | suggestions (index : Nat)
  | completion (index : Nat) (text : Bytes)
  | occurrence (index : Nat) (cause : Pos.Error)
deriving DecidableEq

namespace Skip

def message : Skip → Bytes
  | quickFixes text => "quickfixes is not an array: " ++ text
  | error index cause => "error " ++ Decimal.ofNat index ++ ": " ++ cause.message
  | quickFix index cause => "quickfix " ++ Decimal.ofNat index ++ ": " ++ cause.message
  | suggestions index => "quickfix " ++ Decimal.ofNat index ++ ": no suggs array"
  | completion index text => "entry " ++ Decimal.ofNat index ++ " has no name: " ++ text
  | occurrence index cause => "occurrence " ++ Decimal.ofNat index ++ ": " ++ cause.message

end Skip

inductive Error where
  | errorsShape (text : Bytes)
  | noErrors (text : Bytes)
  | completionShape (text : Bytes)
  | noEntries (text : Bytes)
  | locateShape (text : Bytes)
  | locatePosition (cause : Pos.Error)
  | noFile (pos : Pos)
  | occurrencesShape (text : Bytes)
deriving DecidableEq

namespace Error

def message : Error → Bytes
  | errorsShape text => "errors reply is neither an array nor an object: " ++ text
  | noErrors text => "errors reply has no errors array: " ++ text
  | completionShape text => "completion reply is not an object: " ++ text
  | noEntries text => "completion reply has no entries array: " ++ text
  | locateShape text => "locate reply is neither a string nor an object: " ++ text
  | locatePosition cause => "locate reply: " ++ cause.message
  | noFile _ => "location has no file"
  | occurrencesShape text => "occurrences reply is neither an array nor an object: " ++ text

end Error

/-- Reads the entries from index `i` on. What can be read is kept in order, and what cannot is
noted. -/
def siftFrom {α : Type} (read : Nat → Json → Except Skip α) : (i : Nat) → List Json →
    List α × List Skip
  | _, [] => ([], [])
  | i, v :: rest =>
    let (kept, skipped) := siftFrom read (i + 1) rest
    match read i v with
    | .ok a => (a :: kept, skipped)
    | .error s => (kept, s :: skipped)

@[simp] theorem siftFrom_nil {α : Type} (read : Nat → Json → Except Skip α) (i : Nat) :
    siftFrom read i [] = ([], []) := rfl

def sift {α : Type} (read : Nat → Json → Except Skip α) (entries : List Json) :
    List α × List Skip :=
  siftFrom read 0 entries

structure ErrorEntry where
  span : Span
  message : Bytes
  type : Bytes
deriving DecidableEq

structure QuickFixEntry where
  span : Span
  suggestions : List Bytes
deriving DecidableEq

structure Errors where
  errors : List ErrorEntry
  quickFixes : List QuickFixEntry
  skipped : List Skip
deriving DecidableEq

namespace ErrorEntry

def read (i : Nat) (v : Json) : Except Skip ErrorEntry :=
  match Span.ofJson v with
  | .ok span => .ok ⟨span, Json.contentOf (v.get? "message"), Json.contentOf (v.get? "type")⟩
  | .error e => .error (.error i e)

end ErrorEntry

namespace QuickFixEntry

def read (i : Nat) (v : Json) : Except Skip QuickFixEntry :=
  match Span.ofJson v with
  | .error e => .error (.quickFix i e)
  | .ok span =>
    match v.get? "suggs" with
    | some (.array _ items) => .ok ⟨span, items.map fun s => s.value.content⟩
    | _ => .error (.suggestions i)

end QuickFixEntry

namespace Errors

/-- The payload of a list of diagnostics and a list of rename hints, with the notes made before. -/
def ofEntries (errors quickFixes : List Json) (notes : List Skip) : Errors :=
  let es := sift ErrorEntry.read errors
  let qs := sift QuickFixEntry.read quickFixes
  ⟨es.1, qs.1, notes ++ es.2 ++ qs.2⟩

/-- Reads an array of diagnostics, or an object with such an array and, it may be, one of rename
hints. -/
def ofJson (v : Option Json) : Except Error Errors :=
  match v with
  | some (.array blank items) => .ok (ofEntries (Json.array blank items).items [] [])
  | some (.object blank members) =>
    let v := Json.object blank members
    match v.get? "errors" with
    | some (.array blank items) =>
      let errors := (Json.array blank items).items
      match v.get? "quickfixes" with
      | none => .ok (ofEntries errors [] [])
      | some (.array blank items) => .ok (ofEntries errors (Json.array blank items).items [])
      | some w => .ok (ofEntries errors [] [.quickFixes w.text])
    | _ => .error (.noErrors v.text)
  | v => .error (.errorsShape (Json.textOf v))

end Errors

structure Candidate where
  name : Bytes
  desc : Bytes
deriving DecidableEq

namespace Candidate

def read (i : Nat) (v : Json) : Except Skip Candidate :=
  match v.get? "name" with
  | some (.string body) => .ok ⟨Json.unescape true body, Json.contentOf (v.get? "desc")⟩
  | _ => .error (.completion i v.text)

end Candidate

structure Completions where
  entries : List Candidate
  skipped : List Skip
deriving DecidableEq

namespace Completions

def ofJson (v : Option Json) : Except Error Completions :=
  match v with
  | some (.object blank members) =>
    let v := Json.object blank members
    match v.get? "entries" with
    | some (.array blank items) =>
      let cs := sift Candidate.read (Json.array blank items).items
      .ok ⟨cs.1, cs.2⟩
    | _ => .error (.noEntries v.text)
  | v => .error (.completionShape (Json.textOf v))

end Completions

/-- The payload of `locate`: a text, or a file with a position. -/
structure Locate where
  message : Bytes := []
  file : Bytes := []
  pos : Pos := {}
deriving DecidableEq

namespace Locate

def ofJson (v : Option Json) : Except Error Locate :=
  match v with
  | some (.string body) => .ok { message := Json.unescape true body }
  | some (.object blank members) =>
    let v := Json.object blank members
    match Pos.ofMember v "pos" with
    | .error e => .error (.locatePosition e)
    | .ok pos =>
      match v.get? "file" with
      | some (.string body) =>
        let file := Json.unescape true body
        if file = [] then .error (.noFile pos) else .ok { file := file, pos := pos }
      | _ => .error (.noFile pos)
  | v => .error (.locateShape (Json.textOf v))

end Locate

structure Occurrences where
  spans : List Span
  skipped : List Skip
deriving DecidableEq

namespace Occurrences

def read (i : Nat) (v : Json) : Except Skip Span :=
  match Span.ofJson v with
  | .ok span => .ok span
  | .error e => .error (.occurrence i e)

def ofEntries (entries : List Json) : Occurrences :=
  let spans := sift read entries
  ⟨spans.1, spans.2⟩

/-- Reads an array of spans. A span by itself is read as an array of one. -/
def ofJson (v : Option Json) : Except Error Occurrences :=
  match v with
  | some (.array blank items) => .ok (ofEntries (Json.array blank items).items)
  | some (.object blank members) => .ok (ofEntries [.object blank members])
  | v => .error (.occurrencesShape (Json.textOf v))

end Occurrences

end Payload

end MerlinBridge
