import MerlinBridge.Console.Run

/-!
# The program

The variables, the users, and the files and directories that the arguments mention are read before
the command starts.
The tool answers on standard input: each run takes the next line as its reply.
-/

namespace MerlinBridge

namespace Console

def fromString (s : String) : Bytes :=
  s.toUTF8.toList

def put (h : IO.FS.Stream) (b : Bytes) : IO Unit := do
  h.write (ByteArray.mk b.toArray)
  h.flush

def readContent (name : String) : IO Bytes := do
  try
    let content ← IO.FS.readBinFile name
    pure content.toList
  catch _ => pure []

/-- The variables in a list of definitions, each of which ends with a byte of value zero. -/
def definitions (b : Bytes) : List (Bytes × Bytes) :=
  (Bytes.split 0x00 b).filterMap (Bytes.cut? (Bytes.byte '='))

def homes (b : Bytes) : List (Bytes × Bytes) :=
  (Bytes.split Bytes.newline b).filterMap fun line =>
    match Bytes.split (Bytes.byte ':') line with
    | user :: _ :: _ :: _ :: _ :: home :: _ => some ("HOME " ++ user, home)
    | _ => none

def readEnvironment : IO Shell.Environment := do
  let defined := definitions (← readContent "/proc/self/environ")
  let users := homes (← readContent "/etc/passwd")
  pure fun n => (((defined ++ users).find? fun v => v.1 = n).map Prod.snd).getD []

def addName (d : Disk) (name : String) : IO Disk := do
  try
    let content ← IO.FS.readBinFile name
    pure (d.write (fromString name) content.toList)
  catch _ =>
    let isDirectory ← ((← IO.currentDir) / name).isDir
    pure (if isDirectory then d.addDirectory (fromString name) else d)

def withParents (name : String) : List String :=
  let parts := name.splitOn "/"
  (List.range parts.length).map fun i => String.intercalate "/" (parts.take (i + 1))

def namesOf (arg : String) : List String :=
  match arg.splitOn "=" with
  | _ :: value :: rest => [arg, String.intercalate "=" (value :: rest)]
  | _ => [arg]

def readDisk (args : List String) : IO Disk := do
  let workDir := (← IO.currentDir).toString
  let names := (args.flatMap namesOf).flatMap withParents
  names.foldlM addName { workDir := Path.components (fromString workDir) }

def surroundings (args : List String) : IO Surroundings := do
  let environment ← readEnvironment
  let tempDir := environment "TMPDIR"
  pure
    { disk := ← readDisk args
      environment
      tempDir := if tempDir = [] then "/tmp" else tempDir
      startTime := Decimal.ofNat (← IO.monoNanosNow) }

partial def serve (replies : IO.FS.Stream) (j : Job) : IO Job := do
  match j.pending? with
  | none => pure j
  | some r =>
    let reply ← replies.getLine
    let tool : Tool.Behaviour := { stdout := fromString reply }
    serve replies (j.resume (tool.outcome j.setup r.args .ready))

end Console

end MerlinBridge

open MerlinBridge in
def main (args : List String) : IO UInt32 := do
  let s ← Console.surroundings args
  let report ←
    match Console.start s (args.map Console.fromString) with
    | .error e => pure (Console.Report.ofError e)
    | .ok j => do
      let j ← Console.serve (← IO.getStdin) j.settle
      pure j.report
  Console.put (← IO.getStdout) report.stdout
  Console.put (← IO.getStderr) report.stderr
  pure report.status.toUInt32
