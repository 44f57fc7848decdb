import MerlinBridge.Console.Error

/-!
# Commands

A command is a name and its arguments. All but one ask about a place in a file, given as a line
counted from one, a colon and a column counted from zero.
-/

namespace MerlinBridge

namespace Console

structure Spot where
  file : Bytes
  line : Int64
  col : Int64
  written : Bytes
deriving DecidableEq

inductive Command where
  | errors (files : List Bytes) (isWatched : Bool)
  | complete (spot : Spot)
  | locate (spot : Spot)
  | occurrences (spot : Spot)
  /-- The quick fixes at a place, or the file with one of them. -/
  | quickFix (spot : Spot) (choice : Option Bytes)
  | hover (spot : Spot)
deriving DecidableEq

def position? (s : Bytes) : Option (Int64 × Int64) := do
  let (before, after) ← Bytes.cut? (Bytes.byte ':') s
  let line ← Decimal.int64? before
  let col ← Decimal.int64? after
  if line < 1 || col < 0 then none else some (line, col)

def spot (command : Bytes) (extra : Nat) : List Bytes → Except Error (Spot × List Bytes)
  | file :: written :: rest =>
    if extra < rest.length then .error (.missingPosition command)
    else
      match position? written with
      | some (line, col) => .ok (⟨file, line, col, written⟩, rest)
      | none => .error (.badPosition written)
  | _ => .error (.missingPosition command)

namespace Command

def asksForWatch (args : List Bytes) : Bool :=
  args.head? = some "-watch"

def parse (name : Bytes) (args : List Bytes) : Except Error Command :=
  if name = "errors" then
    let isWatched := asksForWatch args
    let files := if isWatched then args.drop 1 else args
    if files = [] then .error .missingFile else .ok (.errors files isWatched)
  else if name = "complete" then (spot name 0 args).map fun r => .complete r.1
  else if name = "locate" then (spot name 0 args).map fun r => .locate r.1
  else if name = "occurrences" then (spot name 0 args).map fun r => .occurrences r.1
  else if name = "quickfix" then (spot name 1 args).map fun r => .quickFix r.1 r.2.head?
  else if name = "hover" then (spot name 0 args).map fun r => .hover r.1
  else .error (.unknownCommand name)

end Command

end Console

end MerlinBridge
