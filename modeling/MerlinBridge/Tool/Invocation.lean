import MerlinBridge.Duration
import MerlinBridge.Text.Utf8
import MerlinBridge.Tool.Ansi
import MerlinBridge.Tool.Command

/-!
# Running the tool

One run of the tool: it is started, the document goes to its standard input, and its standard output
is read block by block. A block that ends in a newline completes the reply, and what the tool does
afterwards only matters for its exit status. A tool that has replied and does not exit in time is
killed, which is no error.

What the outside does is given: how the start went, what each read returned, how reading ended, and
how the tool exited.
-/

namespace MerlinBridge

namespace Tool

inductive Cancellation where
  | cancelled
  | deadline
deriving DecidableEq, Repr

namespace Cancellation

def message : Cancellation → Bytes
  | cancelled => "context canceled"
  | deadline => "context deadline exceeded"

end Cancellation

inductive Fault where
  | timeout (cause : Cancellation)
  | noOutput
  | incomplete
  | exited (path : Bytes) (code : Int64) (stderr : Bytes)
  | notStarted (path reason : Bytes)
  | notRead (reason : Bytes)
  | notAwaited (path reason : Bytes)
  | other (reason : Bytes)
deriving DecidableEq

namespace Fault

def message : Fault → Bytes
  | timeout cause => cause.message ++ ": tool did not reply in time"
  | noOutput => "tool exited without output"
  | incomplete => "tool output is not newline terminated"
  | exited path code stderr =>
    let status := path ++ " exited with code " ++ Decimal.ofInt64 code
    if stderr = [] then status else status ++ ": " ++ stderr
  | notStarted path reason => "failed to start " ++ path ++ ": " ++ reason
  | notRead reason => "failed to read stdout: " ++ reason
  | notAwaited path reason => "failed to wait for " ++ path ++ ": " ++ reason
  | other reason => reason

end Fault

inductive Launch where
  | ready
  | busy
  | denied
  | blocked
  | directory
  | missing
deriving DecidableEq, Repr

namespace Launch

def reason? (path : Bytes) : Launch → Option Bytes
  | ready => none
  | busy => some ("fork/exec " ++ path ++ ": text file busy")
  | denied => some ("fork/exec " ++ path ++ ": permission denied")
  | blocked => some ("fork/exec " ++ path ++ ": not a directory")
  | directory => some ("exec: " ++ Quoted.quote path ++ ": is a directory")
  | missing =>
    if path.contains (Bytes.byte '/') then
      some ("fork/exec " ++ path ++ ": no such file or directory")
    else some ("exec: " ++ Quoted.quote path ++ ": executable file not found in $PATH")

/-- Whether the search for the program at `path` fails. What is found is only tried once the
variables and the arguments of the run are complete. -/
def isNotFound (path : Bytes) : Launch → Bool
  | directory => true
  | missing => !path.contains (Bytes.byte '/')
  | _ => false

end Launch

structure Setup where
  path : Bytes
  extraFlags : List Bytes := []
  log : Bytes := []
  /-- How often a start that may yet succeed is tried; zero or less stands for three times. -/
  startAttempts : Int64 := 0
  /-- How long a tool that has replied may take to exit; zero or less stands for three seconds. -/
  retireTimeout : Duration := 0

namespace Setup

def attempts (s : Setup) : Nat :=
  if s.startAttempts ≤ 0 then 3 else s.startAttempts.toInt.toNat

def patience (s : Setup) : Duration :=
  if s.retireTimeout ≤ 0 then 3000000000 else s.retireTimeout

/-- Why the tool cannot be started with the given arguments. A zero byte can be part neither of a
variable nor of an argument. -/
def obstacle? (s : Setup) (args : List Bytes) (launch : Launch) : Option Bytes :=
  if launch.isNotFound s.path then launch.reason? s.path
  else if s.log.contains 0 then some "exec: environment variable contains NUL"
  else if (s.path :: Command.argv args s.extraFlags).any (·.contains 0) then
    some ("fork/exec " ++ s.path ++ ": invalid argument")
  else launch.reason? s.path

def isTransient (s : Setup) (args : List Bytes) (launch : Launch) : Bool :=
  launch = .busy && s.obstacle? args launch = launch.reason? s.path

/-- Starts the tool: what went wrong, if anything, and the lines to log. -/
def start (s : Setup) (args : List Bytes) (launch : Launch) : Option Fault × List Bytes :=
  match s.obstacle? args launch with
  | none => (none, [])
  | some reason =>
    let line := "merlin: transient failure starting " ++ s.path ++ ": " ++ reason
    (some (.notStarted s.path reason),
      if s.isTransient args launch then List.replicate s.attempts line else [])

def starts (s : Setup) (args : List Bytes) (launch : Launch) : Bool :=
  (s.start args launch).1.isNone

end Setup

inductive Ending where
  | endOfFile
  | failed (reason : Bytes)
  | givenUp (cause : Cancellation)
deriving DecidableEq

inductive Exit where
  | status (code : UInt8)
  | signal (number : Int64)
  | never
deriving DecidableEq

def signalName (n : Int64) : Bytes :=
  match n.toInt with
  | 1 => "hangup"
  | 2 => "interrupt"
  | 3 => "quit"
  | 4 => "illegal instruction"
  | 5 => "trace/breakpoint trap"
  | 6 => "aborted"
  | 7 => "bus error"
  | 8 => "floating point exception"
  | 9 => "killed"
  | 10 => "user defined signal 1"
  | 11 => "segmentation fault"
  | 12 => "user defined signal 2"
  | 13 => "broken pipe"
  | 14 => "alarm clock"
  | 15 => "terminated"
  | i => "signal " ++ Decimal.ofInt i

def blockSize : Nat := 4096

def blocks : (chunk : Bytes) → List Bytes
  | [] => []
  | b :: rest => (b :: rest).take blockSize :: blocks (rest.drop (blockSize - 1))
termination_by chunk => chunk.length
decreasing_by
  simp only [List.length_drop, List.length_cons]
  omega

/-- What is read until the first read that ends in a newline, and whether there was one. -/
def collect : (reads : List Bytes) → Bytes × Bool
  | [] => ([], false)
  | r :: rest =>
    if r.getLast? = some Bytes.newline then (r, true)
    else
      let (out, complete) := collect rest
      (r ++ out, complete)

structure Outcome where
  output : Bytes
  fault : Option Fault
  log : List Bytes

/-- The fault of an exit status other than zero, with what the tool wrote to its standard error. -/
def exitFault? (path stderr : Bytes) : Exit → Option Fault
  | .status code =>
    if code = 0 then none
    else some (.exited path (Int64.ofNat code.toNat) (Trim.trim (Ansi.strip stderr)))
  | _ => none

/-- The end of a run whose reply is complete: the tool is waited for, and killed in the end. -/
def retire (s : Setup) (stderr : Bytes) : Exit → Option Fault × List Bytes
  | .never =>
    (none, ["merlin: pid <pid> did not exit within " ++ Duration.text s.patience ++
      "; killing it"])
  | e => (exitFault? s.path stderr e, [])

def incompleteFault (s : Setup) (output stderr : Bytes) (ending : Ending) (e : Exit) : Fault :=
  match ending with
  | .givenUp cause => .timeout cause
  | _ =>
    match exitFault? s.path stderr e, ending, e with
    | some f, _, _ => f
    | none, .failed reason, _ => .notRead reason
    | none, _, .signal n => .notAwaited s.path ("signal: " ++ signalName n)
    | none, _, _ => if output = [] then .noOutput else .incomplete

def communicate (s : Setup) (reads : List Bytes) (ending : Ending) (e : Exit) (stderr : Bytes) :
    Outcome :=
  let (output, complete) := collect reads
  if complete then
    let (fault, log) := retire s stderr e
    ⟨output, fault, log⟩
  else ⟨output, some (incompleteFault s output stderr ending e), []⟩

def run (s : Setup) (args : List Bytes) (launch : Launch) (reads : List Bytes) (ending : Ending)
    (e : Exit) (stderr : Bytes) : Outcome :=
  match s.start args launch with
  | (some fault, log) => ⟨[], some fault, log⟩
  | (none, log) =>
    let o := communicate s reads ending e stderr
    { o with log := log ++ o.log }

end Tool

end MerlinBridge
