import MerlinBridge.Bridge.Handle

/-!
# Dispatching requests

Clients append requests to the queue and raise its signal. The dispatcher reacts to a signal, to the
end of a run, to the closing of a document and to the end of the bridge. Whenever nothing runs, it
starts the request at the head of the queue; requests that must not be sent are dropped on the way.

Each function here is one action of a client or of the dispatcher, so that any interleaving of them
can be put together. `settle` is what the dispatcher does when it is left alone.
-/

namespace MerlinBridge

namespace Bridge

def failQueued (b : Bridge) (fault : Fault) : Bridge :=
  let r := b.queue.remove false fun _ => true
  r.2.foldl (fun b request => b.finishRequest request (some fault)) { b with queue := r.1 }

/-- The first step of a client: a bridge that is ending takes no more requests. -/
def refuses (b : Bridge) : Bool :=
  b.dying

/-- The second step of a client: puts a request at the tail of the queue. -/
def appendRequest (b : Bridge) (r : Request) : Bridge :=
  { b with queue := b.queue.append r }

def raiseSignal (b : Bridge) : Bridge :=
  { b with queue := b.queue.raise }

/-- The last step of a client: if the bridge has ended in the meantime, nobody else will take care
of the queue. -/
def sweepIfDead (b : Bridge) : Bridge :=
  if b.dead then b.failQueued .shuttingDown else b

def enqueue (b : Bridge) (r : Request) : Bridge :=
  if b.refuses then b.finishRequest r (some .shuttingDown)
  else
    (((b.log ("enqueue " ++ r.text)).appendRequest r).raiseSignal).sweepIfDead

/-- Why a request must not be sent, if it must not. Asking the circuit breaker may change it. -/
def admission (b : Bridge) (r : Request) : Bridge × Option Fault :=
  if r.isValid then
    let (breaker, allowed) := b.breaker.allow b.now
    ({ b with breaker := breaker }, if allowed then none else some .unavailable)
  else (b, some .invalidRequest)

def launch (b : Bridge) (r : Request) : Bridge :=
  let first := Protocol.submit b.state r.kind.event
  let b := b.follow first
  let b := if first.accepted then b else (b.follow (Protocol.reset b.state)).submit r.kind.event
  let b := b.log ("start " ++ r.text ++ " in state " ++ b.state.name)
  ({ b with running := some { request := r } }).emit (.started r)

def dropHead (b : Bridge) (r : Request) (fault : Fault) : Bridge :=
  let b := { b with queue := b.queue.pop }
  (b.log ("dropping " ++ r.text ++ ": " ++ fault.message)).finishRequest r (some fault)

/-- Starts the first request in the queue that may be sent, looking at no more than `fuel`. -/
def startNextFrom : (fuel : Nat) → Bridge → Bridge
  | 0, b => b
  | fuel + 1, b =>
    match b.queue.peek? with
    | none => b
    | some r =>
      match b.admission r with
      | (b, some fault) => startNextFrom fuel (b.dropHead r fault)
      | (b, none) => b.launch r

/-- Starts the first request in the queue that may be sent, and drops those before it. -/
def startNext (b : Bridge) : Bridge :=
  startNextFrom b.queue.length b

def wake (b : Bridge) : Bridge :=
  if b.queue.signal then
    let b := { b with queue := b.queue.lower }
    if b.running.isNone then b.startNext else b
  else b

def popRunning (b : Bridge) (cur : Running) : Bridge :=
  let head := b.queue.peek?
  let b := { b with queue := b.queue.pop, running := none }
  if head = some cur.request then b
  else
    b.log (Fault.protocolViolation.message ++ ": head of queue is " ++
      (match head with
        | some r => r.text
        | none => "<nil>") ++ ", not " ++ cur.request.text)

/-- Completes the request whose run has ended. Whatever happens, the protocol machine is at rest
afterwards. -/
def complete (b : Bridge) (e : Editor) (cur : Running) (res : RunResult) : Bridge :=
  let b := b.popRunning cur
  let (b, fault) := b.handle e cur res
  let b := if b.state = .default then b else b.follow (Protocol.reset b.state)
  let after := " after " ++ Duration.text res.elapsed
  let b :=
    match fault with
    | some f => b.log (cur.request.text ++ " failed" ++ after ++ ": " ++ f.message)
    | none => b.log (cur.request.text ++ " done" ++ after)
  b.finishRequest cur.request fault

def result (b : Bridge) (e : Editor) (res : RunResult) : Bridge :=
  match b.running with
  | none => b
  | some cur => (b.complete e cur res).startNext

def concerns (e : Editor) (doc : Document) (r : Request) : Bool :=
  Document.sameOption (e.resolve r.doc) (some doc)

/-- Fails a request that was taken out of the queue because its document was closed. -/
def dropClosed (b : Bridge) (r : Request) : Bridge :=
  (b.log ("dropping " ++ r.text ++ ": " ++ Fault.documentClosed.message)).finishRequest r
    (some .documentClosed)

/-- The run that is under way once a document was closed: if it is about that document, it is told
to end. -/
def markClosed (e : Editor) (doc : Document) (cur : Running) : Running :=
  if concerns e doc cur.request then { cur with closed := true, cancelled := true } else cur

/-- Reacts to the closing of a document: its queued requests fail, its run is told to end, and what
is known about it is forgotten. -/
def dispatchClose (b : Bridge) (e : Editor) (doc : Document) : Bridge :=
  let r := b.queue.remove b.running.isSome (concerns e doc)
  let b := r.2.foldl dropClosed { b with queue := r.1 }
  { b with
    running := b.running.map (markClosed e doc)
    store := b.store.forget (Store.key doc.path) }

def kill (b : Bridge) : Bridge :=
  { b with dying := true }

def abandonRun (b : Bridge) : Bridge :=
  match b.running with
  | none => b
  | some cur =>
    let b := { b with queue := b.queue.pop, running := none }
    b.finishRequest cur.request (some .shuttingDown)

/-- The last thing the dispatcher does: the run that is under way and everything in the queue
fail. -/
def windDown (b : Bridge) : Bridge :=
  b.abandonRun.failQueued .shuttingDown

def stopped (b : Bridge) : Bridge :=
  { b with
    dead := true
    tracker := b.tracker.map fun t => { t with directories := t.directories.close } }

def shutdown (b : Bridge) : Bridge :=
  if b.dead then b else b.kill.windDown.stopped

def endCancelled (b : Bridge) (e : Editor) : Bridge :=
  match b.running with
  | some cur =>
    if cur.cancelled then b.result e ⟨[], some (.timeout .cancelled), 0⟩ else b
  | none => b

def settle (b : Bridge) (e : Editor) : Bridge :=
  if b.dead then b else (b.endCancelled e).wake

end Bridge

end MerlinBridge
