import MerlinBridge.Bridge.State

/-!
# What is shown of the bridge

The user of a command sees what an editor would show, one line for each thing. Columns are counted
from zero, as the tool counts them. Diagnostics are shown only by the command that asks for them,
and messages are shown apart from results.
-/

namespace MerlinBridge

namespace Console

def place (path : Bytes) (r : Range) : Bytes :=
  path ++ ":" ++ Decimal.ofInt64 r.startLine ++ ":" ++ Decimal.ofInt64 (r.startCol - 1) ++ ": "

def diagnosticLine (path : Bytes) (d : Diagnostic) : Bytes :=
  place path d.range ++ d.severity.name.map Bytes.toLower ++ ": " ++ d.message ++ "\n"

def usageLine (u : Usage) : Bytes :=
  place u.filename u.range ++ Trim.trim u.lineText ++ "\n"

def itemLine (i : CompletionItem) : Bytes :=
  i.text ++ "\t" ++ i.detail ++ "\n"

def resultLines (e : Editor) (showsDiagnostics : Bool) : HostCall → Bytes
  | .highlights doc ds _ =>
    if showsDiagnostics then
      ds.flatMap (diagnosticLine (((e.document? doc).map Document.path).getD []))
    else []
  | .openAt path line col => Location.text ⟨path, line, col⟩ ++ "\n"
  | .usages us => us.flatMap usageLine
  | .tasks _ _ => []
  | .message _ => []

def messageLine : HostCall → Bytes
  | .message text => text ++ "\n"
  | _ => []

def hostCalls (trace : List Event) : List HostCall :=
  trace.filterMap fun e =>
    match e with
    | .host call => some call
    | _ => none

end Console

end MerlinBridge
