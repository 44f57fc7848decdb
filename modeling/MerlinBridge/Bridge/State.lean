import MerlinBridge.Bridge.Fault
import MerlinBridge.Bridge.Store
import MerlinBridge.Document.Range
import MerlinBridge.Editor
import MerlinBridge.OneShot
import MerlinBridge.Queue
import MerlinBridge.Request
import MerlinBridge.Settings.Config
import MerlinBridge.Watch

/-!
# The state of the bridge

Requests wait in a queue, and one at a time is run: its request stays at the head of the queue until
the tool has answered. The bridge does nothing to the outside itself. What it logs, what it tells
the editor, which runs of the tool it starts and which requests it finishes are events, kept in
order in the trace.
-/

namespace MerlinBridge

inductive HostCall where
  | message (text : Bytes)
  | tasks (path : Bytes) (tasks : List Task)
  | highlights (doc : Nat) (diagnostics : List Diagnostic) (markers : List Marker)
  | openAt (path : Bytes) (line col : Int64)
  | usages (usages : List Usage)
deriving DecidableEq

inductive Event where
  | log (line : Bytes)
  | host (call : HostCall)
  | started (request : Request)
  | finished (request : Request) (fault : Option Fault)
deriving DecidableEq

structure Running where
  request : Request
  closed : Bool := false
  cancelled : Bool := false
deriving DecidableEq

structure RunResult where
  output : Bytes
  fault : Option Tool.Fault := none
  elapsed : Duration := 0

structure Bridge where
  settings : Settings
  state : Protocol.State := .default
  breaker : Breaker
  now : Int := 0
  queue : Queue Request := {}
  running : Option Running := none
  store : Store := {}
  tracker : Option Watch.Tracker := none
  dying : Bool := false
  dead : Bool := false
  delivery : Nat → Delivery Fault := fun _ => {}
  nextId : Nat := 0
  trace : List Event := []

namespace Bridge

/-- A bridge at rest. The watch of project files can be ruled out whatever the settings say. -/
def new (settings : Settings) (mayWatch : Bool) : Bridge where
  settings := settings
  breaker :=
    { maxFailures := settings.breakerThreshold, cooldown := settings.breakerCooldown }
  tracker := if mayWatch && settings.watchProjectFiles then some {} else none

def emit (b : Bridge) (e : Event) : Bridge :=
  { b with trace := b.trace ++ [e] }

/-- Writes to the log. A newline at the end of the text is not part of it. -/
def log (b : Bridge) (line : Bytes) : Bridge :=
  b.emit (.log (line.dropEnd "\n"))

def logAll (b : Bridge) (lines : List Bytes) : Bridge :=
  lines.foldl log b

def tell (b : Bridge) (call : HostCall) : Bridge :=
  b.emit (.host call)

def follow (b : Bridge) (s : Protocol.Step) : Bridge :=
  ({ b with state := s.active }).logAll s.log

def submit (b : Bridge) (e : Protocol.Event) : Bridge :=
  b.follow (Protocol.submit b.state e)

def newRequest (b : Bridge) (query : Request.Query) (doc : Option Document) : Request × Bridge :=
  (Request.build b.nextId query doc, { b with nextId := b.nextId + 1 })

def updateDelivery (b : Bridge) (id : Nat) (f : Delivery Fault → Delivery Fault) : Bridge :=
  { b with delivery := fun i => if i = id then f (b.delivery i) else b.delivery i }

def finishRequest (b : Bridge) (r : Request) (fault : Option Fault) : Bridge :=
  (b.updateDelivery r.id fun d => d.finish r.query.completionStart? fault).emit
    (.finished r fault)

/-- The text of the diagnostic of a document at an offset, empty if there is none. -/
def diagnosticAt (b : Bridge) (doc : Option Document) (offset : Int64) : Bytes :=
  match doc with
  | none => []
  | some d => ((b.store.diagnosticAt (Store.key d.path) offset).map Diagnostic.text).getD []

def diagnostics (b : Bridge) (doc : Option Document) : List Diagnostic :=
  match doc with
  | none => []
  | some d => b.store.diagnostics (Store.key d.path)

def quickFixesAt (b : Bridge) (doc : Option Document) (cursor : Int64) : List QuickFix :=
  match doc with
  | none => []
  | some d => b.store.quickFixesAt (Store.key d.path) cursor

end Bridge

end MerlinBridge
