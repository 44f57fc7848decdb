import MerlinBridge.Bridge.Dispatch

/-!
# What an editor asks of the bridge

Each request for a document is built from the document as it is and then queued. Checking a document
for errors also starts to watch its directory, so that a change on disk checks it again; closing it
ends the watch.
-/

namespace MerlinBridge

namespace Bridge

/-- Builds a request and queues it; its identity is the first component. -/
def ask (b : Bridge) (query : Request.Query) (doc : Option Document) : Nat × Bridge :=
  let (r, b) := b.newRequest query doc
  (r.id, b.enqueue r)

def watchDocument (b : Bridge) (present : Bytes → Bool) (d : Document) : Bridge :=
  match b.tracker with
  | none => b
  | some t =>
    if d.path = [] then b
    else
      let (t, outcome) := (t.record d.path d.id).addDirectory present d.path
      let b := { b with tracker := some t }
      match outcome with
      | .error err => b.log ("failed to watch " ++ d.path ++ ": " ++ err.message)
      | .ok true => b.log ("watching " ++ Path.dir d.path)
      | .ok false => b

def unwatchDocument (b : Bridge) (d : Document) : Bridge :=
  match b.tracker with
  | none => b
  | some t =>
    if d.path = [] then b
    else
      let (t, outcome) := t.drop d.path
      let b := { b with tracker := some t }
      match outcome with
      | some err => b.log ("failed to unwatch " ++ Path.dir d.path ++ ": " ++ err.message)
      | none => b

def askErrors (b : Bridge) (present : Bytes → Bool) (doc : Option Document) : Nat × Bridge :=
  let (r, b) := b.newRequest .errors doc
  let b :=
    match doc with
    | some d => b.watchDocument present d
    | none => b
  (r.id, b.enqueue r)

def closeDocument (b : Bridge) (e : Editor) (doc : Option Document) : Bridge :=
  match doc with
  | none => b
  | some d =>
    let b := b.unwatchDocument d
    if b.dying then b else b.dispatchClose e d

def affected (b : Bridge) (path : Bytes) : List Nat :=
  match b.tracker with
  | none => []
  | some t => t.affected path

def recheck (b : Bridge) (e : Editor) (c : Watch.Change) (doc : Nat) : Bridge :=
  match (e.document? doc).filter e.isFocused with
  | none => b
  | some d =>
    let b := b.log (c.path ++ " " ++ c.op.name ++ "; rechecking " ++ d.path)
    (b.ask .errors (some d)).2

def changed (b : Bridge) (e : Editor) (c : Watch.Change) : Bridge :=
  (b.affected c.path).foldl (fun b doc => b.recheck e c doc) b

def isWatching (b : Bridge) : Bool :=
  b.tracker.isSome && !b.dead

def watchError (b : Bridge) (text : Bytes) : Bridge :=
  b.log ("project watcher error: " ++ text)

def elapse (b : Bridge) (ns : Int) : Bridge :=
  { b with now := b.now + ns }

def advance (b : Bridge) (ms : Int64) : Bridge :=
  b.elapse (ms * 1000000).toInt

end Bridge

end MerlinBridge
