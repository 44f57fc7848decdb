import MerlinBridge.Document.Text
import MerlinBridge.Editor
import MerlinBridge.Protocol
import MerlinBridge.Tool.Command

/-!
# Requests

A request is one query about a document. When it is built it takes the path, the revision and the
contents of the document along, so that later edits do not change what is asked. The kind of a
request ties it to an event and a state of the protocol machine, and to the command that is sent.
-/

namespace MerlinBridge

namespace Request

inductive Kind where
  | errors
  | completion
  | definition
  | usages
deriving DecidableEq, Repr

namespace Kind

def all : List Kind :=
  [errors, completion, definition, usages]

def name : Kind → Bytes
  | errors => "errors"
  | completion => "completion"
  | definition => "go-to-definition"
  | usages => "find-usages"

def ofCode? (n : Int64) : Option Kind :=
  if n = 0 then some errors
  else if n = 1 then some completion
  else if n = 2 then some definition
  else if n = 3 then some usages
  else none

def nameOfCode (n : Int64) : Bytes :=
  match ofCode? n with
  | some k => k.name
  | none => "Kind(" ++ Decimal.ofInt64 n ++ ")"

def event : Kind → Protocol.Event
  | errors => .sendCode
  | completion => .completionsAsked
  | definition => .definitionAsked
  | usages => .occurrencesAsked

def state : Kind → Protocol.State
  | errors => .codeSent
  | completion => .completionsSent
  | definition => .definitionSent
  | usages => .occurrencesSent

theorem next?_event (k : Kind) : Protocol.next? .default k.event = some k.state := by
  cases k <;> rfl

def ofState? (s : Protocol.State) : Option Kind :=
  all.find? fun k => k.state = s

theorem ofState?_state (k : Kind) : ofState? k.state = some k := by
  cases k <;> rfl

end Kind

/-- What a request asks. The line of a completion counts from zero, the others from one. -/
inductive Query where
  | errors
  | completion (word : Bytes) (startOffset line col : Int64)
  | definition (line col : Int64)
  | usages (line col : Int64)
deriving DecidableEq

namespace Query

def kind : Query → Kind
  | errors => .errors
  | completion .. => .completion
  | definition .. => .definition
  | usages .. => .usages

def command (path : Bytes) : Query → Command
  | errors => .errors path
  | completion word _ line col => .completePrefix (line + 1) col word
  | definition line col => .locate line col path
  | usages line col => .occurrences line col

def completionStart? : Query → Option Int64
  | completion _ startOffset _ _ => some startOffset
  | _ => none

end Query

end Request

/-- One query about a document, with the document's state at the time it was asked. -/
structure Request where
  id : Nat
  query : Request.Query
  doc : Option Nat
  path : Bytes
  revision : Int64
  snapshot : Text
deriving DecidableEq

namespace Request

def build (id : Nat) (query : Query) (doc : Option Document) : Request :=
  match doc with
  | some d => ⟨id, query, some d.id, d.path, d.revision, ⟨d.text⟩⟩
  | none => ⟨id, query, none, [], 0, ⟨[]⟩⟩

def isValid (r : Request) : Bool :=
  r.doc.isSome

def kind (r : Request) : Kind :=
  r.query.kind

def args (r : Request) : List Bytes :=
  (r.query.command r.path).args

/-- A request as shown in the log. Its identity is drawn at random and is not shown. -/
def text (r : Request) : Bytes :=
  r.kind.name ++ " request <id> for " ++ Quoted.quote r.path ++ " (rev " ++
    Decimal.ofInt64 r.revision ++ ")"

end Request

end MerlinBridge
