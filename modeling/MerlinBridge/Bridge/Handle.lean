import MerlinBridge.Bridge.State
import MerlinBridge.Reply.Placement

/-!
# Applying replies

How a reply is read depends on the active state of the protocol machine, never on the reply itself.
A reply that is applied has effects on the store and on the editor; one that fails has none but a
message at most. Either way the machine goes back to rest.

Entries of a reply whose spans do not lie in the text are left out with a note in the log, and the
others are applied.
-/

namespace MerlinBridge

namespace Bridge

def taskCategory : Bytes := "OCaml.Merlin"

def listText (bs : List Bytes) : Bytes :=
  "[" ++ Bytes.join " " bs ++ "]"

def about (r : Request) (text : Bytes) : Bytes :=
  r.text ++ ": " ++ text

def logSkipped (b : Bridge) (r : Request) (skipped : List Payload.Skip) : Bridge :=
  b.logAll (skipped.map fun s => about r ("skipping malformed entry: " ++ s.message))

def diagnosticOf? (r : Request) (e : Payload.ErrorEntry) : Option Diagnostic :=
  match Range.ofSpan r.snapshot e.span with
  | .ok range => some ⟨r.path, range, Severity.ofWord e.type, e.message⟩
  | .error _ => none

def taskOf? (r : Request) (e : Payload.ErrorEntry) : Option Task :=
  match Range.ofSpan r.snapshot e.span with
  | .ok _ => some ⟨taskCategory, r.path, e.span.start.line, Severity.ofWord e.type, e.message⟩
  | .error _ => none

def diagnosticNote? (r : Request) (e : Payload.ErrorEntry) : Option Bytes :=
  match Range.ofSpan r.snapshot e.span with
  | .ok _ => none
  | .error err =>
    some (about r ("skipping diagnostic " ++ Quoted.quote e.message ++ ": " ++ err.message))

def fixOf? (r : Request) (q : Payload.QuickFixEntry) : Option QuickFix :=
  match Range.ofSpan r.snapshot q.span with
  | .ok range => some ⟨r.path, range, q.suggestions⟩
  | .error _ => none

def markerOf? (r : Request) (q : Payload.QuickFixEntry) : Option Marker :=
  (fixOf? r q).bind fun fix => (Marker.ofQuickFix r.snapshot fix).toOption

/-- The note about an entry whose span does not lie in the text, or which has no marker. -/
def fixNote? (r : Request) (q : Payload.QuickFixEntry) : Option Bytes :=
  match Range.ofSpan r.snapshot q.span with
  | .error err =>
    some (about r ("skipping quick fix " ++ listText q.suggestions ++ ": " ++ err.message))
  | .ok range =>
    match Marker.ofQuickFix r.snapshot ⟨r.path, range, q.suggestions⟩ with
    | .ok _ => none
    | .error err =>
      some (about r ("no marker for quick fix " ++ listText q.suggestions ++ ": " ++ err.message))

def showErrors (b : Bridge) (r : Request) (doc : Nat) (p : Payload.Errors) : Bridge :=
  let diagnostics := p.errors.filterMap (diagnosticOf? r)
  let fixes := p.quickFixes.filterMap (fixOf? r)
  let b := b.logAll (p.errors.filterMap (diagnosticNote? r))
  let b := b.logAll (p.quickFixes.filterMap (fixNote? r))
  let b := { b with store := b.store.set (Store.key r.path) ⟨diagnostics, fixes⟩ }
  let b := b.tell (.tasks r.path (p.errors.filterMap (taskOf? r)))
  b.tell (.highlights doc diagnostics (p.quickFixes.filterMap (markerOf? r)))

/-- Applies a list of diagnostics and quick fixes to the document of a request, if it still has the
focus. -/
def applyErrors (b : Bridge) (e : Editor) (r : Request) (v : Option Json) :
    Bridge × Option Fault :=
  match Payload.Errors.ofJson v with
  | .error err =>
    (b.log ("CRITICAL: failed to parse errors of " ++ r.text ++ ": " ++ err.message),
      some (.malformed (.payload err)))
  | .ok p =>
    let b := b.logSkipped r p.skipped
    match (e.resolve r.doc).filter e.isFocused with
    | none => (b.log (about r Fault.stale.message), some .stale)
    | some d =>
      let b :=
        if d.revision = r.revision then b
        else
          b.log (about r ("document is now at revision " ++ Decimal.ofInt64 d.revision ++
            "; applying diagnostics anyway"))
      (b.showErrors r d.id p, none)

def applyCompletion (b : Bridge) (r : Request) (startOffset : Int64) (v : Option Json) :
    Bridge × Option Fault :=
  match Payload.Completions.ofJson v with
  | .error err =>
    (b.log ("CRITICAL: failed to parse completions of " ++ r.text ++ ": " ++ err.message),
      some (.malformed (.payload err)))
  | .ok p =>
    let b := b.logSkipped r p.skipped
    let items := p.entries.map fun c => ⟨c.name, c.desc⟩
    let delivered := ((b.delivery r.id).deliver startOffset items none).2
    let b := b.updateDelivery r.id fun d => (d.deliver startOffset items none).1
    (if delivered then b else b.log (about r "completion already delivered"), none)

def applyDefinition (b : Bridge) (r : Request) (v : Option Json) : Bridge × Option Fault :=
  match Payload.Locate.ofJson v with
  | .error (.noFile pos) =>
    (b.tell (.message ("Merlin: definition at " ++ Command.position pos.line pos.col ++
      " has no file")), some (.definitionNotFound (.noFile pos)))
  | .error err =>
    (b.log ("CRITICAL: failed to parse locate reply to " ++ r.text ++ ": " ++ err.message),
      some (.malformed (.payload err)))
  | .ok p =>
    if p.message ≠ [] then (b.tell (.message ("Merlin: " ++ p.message)), none)
    else (b.tell (.openAt p.file p.pos.line p.pos.col), none)

def usageOf? (r : Request) (s : Span) : Option Usage :=
  match Range.ofSpan r.snapshot s with
  | .ok range => some ⟨r.path, (r.snapshot.line s.start.line).toOption.getD [], range⟩
  | .error _ => none

/-- The notes about a span that covers several lines, or does not lie in the text. -/
def usageNotes (r : Request) (s : Span) : List Bytes :=
  (if s.isSingleLine then []
    else
      [about r ("usage spans lines " ++ Decimal.ofInt64 s.start.line ++ " to " ++
        Decimal.ofInt64 s.stop.line ++ "; showing its first line")]) ++
  match Range.ofSpan r.snapshot s with
  | .ok _ => []
  | .error err => [about r ("skipping usage: " ++ err.message)]

def applyUsages (b : Bridge) (r : Request) (v : Option Json) : Bridge × Option Fault :=
  match Payload.Occurrences.ofJson v with
  | .error err =>
    (b.log ("CRITICAL: failed to parse occurrences of " ++ r.text ++ ": " ++ err.message),
      some (.malformed (.payload err)))
  | .ok p =>
    let b := b.logSkipped r p.skipped
    let b := b.logAll (p.spans.flatMap (usageNotes r))
    (b.tell (.usages (p.spans.filterMap (usageOf? r))), none)

def applyValue (b : Bridge) (e : Editor) (r : Request) (v : Option Json) : Bridge × Option Fault :=
  match r.query with
  | .errors => b.applyErrors e r v
  | .completion _ startOffset _ _ => b.applyCompletion r startOffset v
  | .definition _ _ => b.applyDefinition r v
  | .usages _ _ => b.applyUsages r v

/-- Handles the value of a reply, provided the active state expects one for this kind of request. -/
def handleValue (b : Bridge) (e : Editor) (r : Request) (v : Option Json) :
    Bridge × Option Fault :=
  let state := b.state
  match Request.Kind.ofState? state with
  | none =>
    ((b.submit .errorHappened).log (Fault.undetectableState.message ++ " " ++ state.name ++
      " for " ++ r.text), some .undetectableState)
  | some kind =>
    if kind ≠ r.kind then
      ((b.submit .errorHappened).log (Fault.protocolViolation.message ++ ": state " ++ state.name ++
        " expects a " ++ kind.name ++ " reply, request is " ++ r.text), some .protocolViolation)
    else
      match Protocol.received? state with
      | none => (b.submit .errorHappened, some (.notInFlight state))
      | some received =>
        match b.applyValue e r v with
        | (b, some fault) => (b.submit .errorHappened, some fault)
        | (b, none) => (b.submit received, none)

def handleComplaint (b : Bridge) (r : Request) (c : Complaint) : Bridge × Option Fault :=
  let b := b.submit .errorHappened
  if c.isKnown then
    (b.tell (.message ("Merlin " ++ c.cls ++ ": " ++ c.message)), some (.complaint c))
  else
    (b.log ("CRITICAL: reply to " ++ r.text ++ " has unknown class:"),
      some (.malformed (.unknownClass c)))

def handleOutput (b : Bridge) (e : Editor) (r : Request) (out : Bytes) : Bridge × Option Fault :=
  match Envelope.decode out with
  | .error err =>
    ((b.submit .errorHappened).log ("CRITICAL: failed to parse reply to " ++ r.text ++ ": " ++
      err.message ++ ": " ++ Quoted.quote out), some (.malformed (.envelope err)))
  | .ok env =>
    match env.complaint? with
    | some c => b.handleComplaint r c
    | none => b.handleValue e r env.value

/-- Handles a run that brought no reply. A reply that broke off still reached the tool; any other
failure counts for the circuit breaker. -/
def handleFault (b : Bridge) (output : Bytes) (f : Tool.Fault) : Bridge × Option Fault :=
  let b := b.submit .errorHappened
  if f = .incomplete then
    (({ b with breaker := b.breaker.success }).log ("CRITICAL: failed to parse reply: " ++
      f.message ++ ": " ++ Quoted.quote output), some (.malformed (.cutShort f)))
  else
    let b := b.tell (.message ("Merlin: " ++ f.message))
    let b := { b with breaker := b.breaker.failure b.now }
    (if b.breaker.isOpen then
        b.tell (.message ("Merlin: giving up on " ++ b.settings.merlinPath ++ " for " ++
          Duration.text b.settings.breakerCooldown))
      else b,
      some (.transport f))

def handle (b : Bridge) (e : Editor) (cur : Running) (res : RunResult) : Bridge × Option Fault :=
  if cur.closed then (b.submit .errorHappened, some .documentClosed)
  else
    match res.fault with
    | some f => b.handleFault res.output f
    | none => ({ b with breaker := b.breaker.success }).handleOutput e cur.request res.output

end Bridge

end MerlinBridge
