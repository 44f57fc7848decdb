import MerlinBridge.Console.Job

/-!
# A command from start to end

Given what the tool does for each of its commands, a command runs from start to end. A tool that
never exits and has not replied is given up when its time is over.
-/

namespace MerlinBridge

namespace Tool

/-- What a tool does: it writes to its standard error and its standard output, and exits. -/
structure Behaviour where
  stdout : Bytes := []
  stderr : Bytes := []
  exit : Exit := .status 0

namespace Behaviour

def ending (t : Behaviour) : Ending :=
  if t.exit = .never then .givenUp .deadline else .endOfFile

def outcome (t : Behaviour) (s : Setup) (args : List Bytes) (launch : Launch) : Outcome :=
  run s args launch (blocks t.stdout) t.ending t.exit t.stderr

end Behaviour

end Tool

namespace Console

/-- A tool: how a program of a path is found, and what it does for given arguments. -/
structure Toolbox where
  launch : Bytes → Tool.Launch
  behaviour : List Bytes → Tool.Behaviour

structure Call where
  args : List Bytes
  stdin : Bytes
  log : Bytes
deriving DecidableEq

namespace Job

def callFor (j : Job) (r : Request) : Call :=
  { args := MerlinBridge.Command.argv r.args j.bridge.settings.merlinFlags
    stdin := r.snapshot.contents
    log := j.bridge.settings.merlinLog }

/-- Runs the tool for one request after the other, at most `fuel` times: the job afterwards and the
runs that started. -/
def drive (t : Toolbox) : (fuel : Nat) → Job → Job × List Call
  | 0, j => (j, [])
  | fuel + 1, j =>
    match j.pending? with
    | none => (j, [])
    | some r =>
      let launch := t.launch j.setup.path
      let o := (t.behaviour r.args).outcome j.setup r.args launch
      let (done, calls) := drive t fuel (j.resume o)
      (done, if j.setup.starts r.args launch then j.callFor r :: calls else calls)

end Job

def run (s : Surroundings) (t : Toolbox) (args : List Bytes) : Report × List Call :=
  match start s args with
  | .error e => (.ofError e, [])
  | .ok j =>
    let (done, calls) := j.settle.drive t (j.bridge.queue.length + 1)
    (done.report, calls)

end Console

end MerlinBridge
