import MerlinBridge.Document.Range

/-!
# Diagnostics

A diagnostic is a message about a range of a file, with a severity. The editor underlines the range
in a format chosen by the severity, lists the message as a task, and shows it when the cursor rests
on the range. Where several diagnostics overlap, the one of the highest priority is shown, and of
those the first.
-/

namespace MerlinBridge

inductive Severity where
  | unknown
  | warning
  | error
deriving DecidableEq, Repr

namespace Severity

/-- The severity that the tool's word names; any other word names none. -/
def ofWord (word : Bytes) : Severity :=
  if word = "error" then error
  else if word = "warning" then warning
  else unknown

def code : Severity → Int64
  | unknown => 0
  | warning => 1
  | error => 2

def ofCode? (n : Int64) : Option Severity :=
  if n = 0 then some unknown
  else if n = 1 then some warning
  else if n = 2 then some error
  else none

def ofCode (n : Int64) : Severity :=
  (ofCode? n).getD unknown

def name : Severity → Bytes
  | unknown => "Unknown"
  | warning => "Warning"
  | error => "Error"

def formatKind : Severity → Nat
  | unknown => 1
  | warning => 0
  | error => 2

def priority : Severity → Nat
  | unknown => 10
  | warning => 12
  | error => 14

end Severity

structure Diagnostic where
  filename : Bytes
  range : Range
  severity : Severity
  message : Bytes
deriving DecidableEq

namespace Diagnostic

def text (d : Diagnostic) : Bytes :=
  d.severity.name ++ ": " ++ d.message

/-- The better of two candidates for one place: the earlier `best`, unless `d` has a higher
priority. -/
def prefer (best : Option Diagnostic) (d : Diagnostic) : Option Diagnostic :=
  match best with
  | none => some d
  | some b => if b.severity.priority < d.severity.priority then some d else some b

def atOffset (ds : List Diagnostic) (offset : Int64) : Option Diagnostic :=
  ds.foldl (fun best d => if d.range.contains offset then prefer best d else best) none

end Diagnostic

structure Task where
  category : Bytes
  filename : Bytes
  line : Int64
  severity : Severity
  message : Bytes
deriving DecidableEq

end MerlinBridge
