import MerlinBridge.Text.Quoted

/-!
# The protocol machine

Replies of the tool carry no identifier, so what a reply answers is known only from what was asked
last. The machine keeps that: it rests in `default`, a request moves it to the state of its kind,
and the matching reply, or an error, moves it back. An event that is not valid in the active state
is logged and changes nothing. The state `On` has all the others inside and is always active.
-/

namespace MerlinBridge

namespace Protocol

inductive State where
  | default
  | codeSent
  | definitionSent
  | occurrencesSent
  | completionsSent
deriving DecidableEq, Repr

inductive Event where
  | sendCode
  | definitionAsked
  | occurrencesAsked
  | completionsAsked
  | diagnosticsReceived
  | definitionsReceived
  | occurrencesReceived
  | completionsReceived
  | errorHappened
deriving DecidableEq, Repr

namespace State

def all : List State :=
  [default, codeSent, definitionSent, occurrencesSent, completionsSent]

def name : State → Bytes
  | default => "Default"
  | codeSent => "CodeSent"
  | definitionSent => "GoToDefSent"
  | occurrencesSent => "OccurencesSent"
  | completionsSent => "CompletionsSent"

def ofName? (name : Bytes) : Option State :=
  all.find? fun s => s.name = name

end State

namespace Event

def all : List Event :=
  [sendCode, definitionAsked, occurrencesAsked, completionsAsked, diagnosticsReceived,
    definitionsReceived, occurrencesReceived, completionsReceived, errorHappened]

def name : Event → Bytes
  | sendCode => "sendCode"
  | definitionAsked => "goToDefAsked"
  | occurrencesAsked => "occurencesAsked"
  | completionsAsked => "completionsAsked"
  | diagnosticsReceived => "diagnosticsReceived"
  | definitionsReceived => "definitionsReceived"
  | occurrencesReceived => "occurencesReceived"
  | completionsReceived => "completionsReceived"
  | errorHappened => "errorHappend"

def ofName? (name : Bytes) : Option Event :=
  all.find? fun e => e.name = name

end Event

def next? : State → Event → Option State
  | .default, .sendCode => some .codeSent
  | .default, .definitionAsked => some .definitionSent
  | .default, .occurrencesAsked => some .occurrencesSent
  | .default, .completionsAsked => some .completionsSent
  | .codeSent, .diagnosticsReceived => some .default
  | .definitionSent, .definitionsReceived => some .default
  | .occurrencesSent, .occurrencesReceived => some .default
  | .completionsSent, .completionsReceived => some .default
  | .default, .errorHappened => none
  | _, .errorHappened => some .default
  | _, _ => none

/-- What came of an event: whether it was valid, the state afterwards, and the lines to log. -/
structure Step where
  accepted : Bool
  active : State
  log : List Bytes

def ignore (s : State) (event : Bytes) : Step :=
  ⟨false, s,
    ["fsm: ignoring event " ++ Quoted.quote event ++ " in state " ++ Quoted.quote s.name]⟩

def submit (s : State) (e : Event) : Step :=
  match next? s e with
  | some t => ⟨true, t, []⟩
  | none => ignore s e.name

/-- Applies an event given by its name. A name of no event is not valid in any state. -/
def submitName (s : State) (name : Bytes) : Step :=
  match Event.ofName? name with
  | some e => submit s e
  | none => ignore s name

def reset (s : State) : Step :=
  if s = .default then ⟨true, .default, []⟩
  else ⟨true, .default, ["fsm: forcing reset from state " ++ Quoted.quote s.name]⟩

def isActive (s : State) (name : Bytes) : Bool :=
  name = "On" || name = s.name

def received? : State → Option Event
  | .default => none
  | .codeSent => some .diagnosticsReceived
  | .definitionSent => some .definitionsReceived
  | .occurrencesSent => some .occurrencesReceived
  | .completionsSent => some .completionsReceived

def notInFlight (name : Bytes) : Bytes :=
  "no request is in flight in state " ++ Quoted.quote name

end Protocol

end MerlinBridge
