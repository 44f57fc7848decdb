import MerlinBridge.Bridge.Client
import MerlinBridge.Console.Command
import MerlinBridge.Console.Configure
import MerlinBridge.Console.Screen
import MerlinBridge.Document.File
import MerlinBridge.Document.Identifier

/-!
# Carrying out a command

A command opens its files, asks the bridge, and waits until every request is finished. Then it
shows what is known. Which runs of the tool are needed on the way, and what is made of their
results, is up to the bridge; where the results come from is not decided here.
-/

namespace MerlinBridge

namespace Console

structure Job where
  editor : Editor
  bridge : Bridge
  showsDiagnostics : Bool := false
  finish : Bridge → Except Error Bytes

structure Report where
  stdout : Bytes := []
  stderr : Bytes := []
  status : Nat := 0
deriving DecidableEq

def faultOf (b : Bridge) (id : Nat) : Option Fault :=
  match (b.delivery id).done.slot with
  | .full f => f
  | _ => none

def openDocument (s : Surroundings) (id : Nat) (name : Bytes) : Except Error Document :=
  match FileDocument.load s.disk name with
  | .error e => .error (.disk e)
  | .ok f => .ok (f.view s.disk id).1

def openDocuments (s : Surroundings) (id : Nat) : List Bytes → Except Error (List Document)
  | [] => .ok []
  | name :: rest => do
    let d ← openDocument s id name
    let ds ← openDocuments s (id + 1) rest
    pure (d :: ds)

def offsetOf (d : Document) (spot : Spot) : Except Error Int64 :=
  match Text.offset ⟨d.text⟩ spot.line spot.col with
  | .error e => .error (.text e)
  | .ok o => .ok (Int64.ofNat o)

def isPresent (s : Surroundings) (dir : Bytes) : Bool :=
  match s.disk.resolve dir with
  | .ok _ => true
  | .error _ => false

def askAll (s : Surroundings) (b : Bridge) : List Document → List Nat × Bridge
  | [] => ([], b)
  | d :: rest =>
    let (id, b) := b.askErrors (isPresent s) (some d)
    let (ids, b) := askAll s b rest
    (id :: ids, b)

def firstFault (b : Bridge) (asked : List (Bytes × Nat)) : Option Error :=
  asked.findSome? fun a => (faultOf b a.2).map fun f => .request (some a.1) f

def orFault (b : Bridge) (id : Nat) (shown : Bytes) : Except Error Bytes :=
  match faultOf b id with
  | some f => .error (.request none f)
  | none => .ok shown

/-- The suggestions of quick fixes, in order, each with its fix and its index there. -/
def candidates (fixes : List QuickFix) : List (QuickFix × Nat) :=
  fixes.flatMap fun q => (List.range q.suggestions.length).map fun i => (q, i)

def candidateLine (n : Nat) (c : QuickFix × Nat) : Bytes :=
  Decimal.ofNat n ++ "\t" ++ (c.1.suggestions[c.2]?.getD []) ++ "\n"

def candidateLines (cands : List (QuickFix × Nat)) : Bytes :=
  (cands.mapIdx candidateLine).flatten

def applyChoice (text : Bytes) (cands : List (QuickFix × Nat)) (choice position : Bytes) :
    Except Error Bytes :=
  match (Decimal.int64? choice).filter (0 ≤ ·) with
  | none => .error (.noQuickFix choice position cands.length)
  | some n =>
    match cands[n.toInt.toNat]? with
    | none => .error (.noQuickFix choice position cands.length)
    | some (q, i) =>
      match q.apply text (Int64.ofNat i) with
      | .ok t => .ok t
      | .error e => .error (.quickFix e)

def showQuickFixes (b : Bridge) (d : Document) (offset : Int64) (spot : Spot) :
    (choice : Option Bytes) → Except Error Bytes
  | none => .ok (candidateLines (candidates (b.quickFixesAt (some d) offset)))
  | some n => applyChoice d.text (candidates (b.quickFixesAt (some d) offset)) n spot.written

def showHover (b : Bridge) (d : Document) (offset : Int64) : Bytes :=
  let t := b.diagnosticAt (some d) offset
  if t = [] then [] else t ++ "\n"

def showCompletion (b : Bridge) (id : Nat) : Except Error Bytes :=
  match (b.delivery id).result.slot with
  | .full r =>
    match r.error with
    | some f => .error (.request none f)
    | none => .ok (r.items.flatMap itemLine)
  | _ => .ok []

def completionQuery (d : Document) (offset : Int64) (spot : Spot) : Request.Query :=
  let start := Identifier.start d.text offset
  let word := Text.slice ⟨d.text⟩ start.toInt.toNat offset.toInt.toNat
  .completion word start (spot.line - 1) spot.col

namespace Command

def isWatched : Command → Bool
  | errors _ isWatched => isWatched
  | _ => false

def singleJob (b : Bridge) (d : Document) (query : Request.Query)
    (finish : Nat → Bridge → Except Error Bytes) : Job :=
  let (id, b) := b.ask query (some d)
  { editor := { documents := [d] }, bridge := b, finish := finish id }

def start (s : Surroundings) (b : Bridge) : Command → Except Error Job
  | errors files _ => do
    let docs ← openDocuments s 0 files
    let (ids, b) := askAll s b docs
    let asked := (docs.map Document.path).zip ids
    pure
      { editor := { documents := docs }
        bridge := b
        showsDiagnostics := true
        finish := fun b =>
          match firstFault b asked with
          | some e => .error e
          | none => .ok [] }
  | complete spot => do
    let d ← openDocument s 0 spot.file
    let offset ← offsetOf d spot
    pure (singleJob b d (completionQuery d offset spot) fun id b => showCompletion b id)
  | locate spot => do
    let d ← openDocument s 0 spot.file
    pure (singleJob b d (.definition spot.line spot.col) fun id b => orFault b id [])
  | occurrences spot => do
    let d ← openDocument s 0 spot.file
    pure (singleJob b d (.usages spot.line spot.col) fun id b => orFault b id [])
  | quickFix spot choice => do
    let d ← openDocument s 0 spot.file
    let offset ← offsetOf d spot
    pure (singleJob b d .errors fun id b => do
      let _ ← orFault b id []
      showQuickFixes b d offset spot choice)
  | hover spot => do
    let d ← openDocument s 0 spot.file
    let offset ← offsetOf d spot
    pure (singleJob b d .errors fun id b => orFault b id (showHover b d offset))

end Command

def start (s : Surroundings) (args : List Bytes) : Except Error Job :=
  match Flags.parse args with
  | .error e => .error (.flags e)
  | .ok (_, []) => .error .missingCommand
  | .ok (flags, name :: rest) =>
    match s.settings flags with
    | .error e => .error (.config e)
    | .ok settings => do
      s.checkLog
      let command ← Command.parse name rest
      command.start s (Bridge.new settings command.isWatched)

namespace Job

def settle (j : Job) : Job :=
  { j with bridge := j.bridge.settle j.editor }

def pending? (j : Job) : Option Request :=
  j.bridge.running.map Running.request

def setup (j : Job) : Tool.Setup :=
  { path := j.bridge.settings.merlinPath
    extraFlags := j.bridge.settings.merlinFlags
    log := j.bridge.settings.merlinLog
    startAttempts := j.bridge.settings.startAttempts
    retireTimeout := j.bridge.settings.retireTimeout }

def resume (j : Job) (o : Tool.Outcome) : Job :=
  let b := j.bridge.logAll o.log
  { j with bridge := b.result j.editor { output := o.output, fault := o.fault } }

def report (j : Job) : Report :=
  let calls := hostCalls j.bridge.trace
  let results := calls.flatMap (resultLines j.editor j.showsDiagnostics)
  let messages := calls.flatMap messageLine
  match j.finish j.bridge with
  | .ok shown => { stdout := results ++ shown, stderr := messages }
  | .error e =>
    { stdout := results, stderr := messages ++ e.report, status := e.status }

end Job

def Report.ofError (e : Error) : Report :=
  { stderr := e.report, status := e.status }

end Console

end MerlinBridge
