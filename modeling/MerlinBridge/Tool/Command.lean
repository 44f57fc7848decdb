import MerlinBridge.Text.Decimal

/-!
# Commands to the tool

The tool answers one query per run. A query names its command, and the arguments of the run are the
word `single`, the arguments of the command, and the flags that the user has configured.
-/

namespace MerlinBridge

/-- A query to the tool. Lines count from one and columns from zero. -/
inductive Command where
  | errors (filename : Bytes)
  | completePrefix (line col : Int64) (word : Bytes)
  | locate (line col : Int64) (filename : Bytes)
  | occurrences (line col : Int64)
deriving DecidableEq

namespace Command

def buffer : Bytes := "*buffer*"

def filenameOf (path : Bytes) : Bytes :=
  if path = [] then buffer else path

def position (line col : Int64) : Bytes :=
  Decimal.ofInt64 line ++ ":" ++ Decimal.ofInt64 col

def args : Command → List Bytes
  | errors filename => ["errors", "-filename", filenameOf filename]
  | completePrefix line col word =>
    ["complete-prefix", "-position", position line col, "-prefix", word, "-doc", "true"]
  | locate line col filename =>
    ["locate", "-position", position line col, "-filename", filenameOf filename]
  | occurrences line col => ["occurrences", "-identifier-at", position line col]

def single : Bytes := "single"

def argv (args extra : List Bytes) : List Bytes :=
  [single] ++ args ++ extra

end Command

end MerlinBridge
