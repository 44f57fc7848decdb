import MerlinBridge.Duration
import MerlinBridge.Text.Quoted

/-!
# Flags

Flags come before the command. A flag starts with one dash or two, and its value follows an equals
sign or is the next argument. A switch takes a value only after an equals sign. The first argument
that is not a flag, or two dashes alone, ends the flags.
-/

namespace MerlinBridge

namespace Console

structure Flags where
  tail : Bool := false
  config : Bytes := []
  merlin : Bytes := []
  timeout : Duration := 0
deriving DecidableEq

namespace Flags

inductive Error where
  | help
  | badForm (arg : Bytes)
  | unknown (name : Bytes)
  | noValue (name : Bytes)
  | badValue (name value : Bytes)
  | badSwitch (name value : Bytes)
deriving DecidableEq

namespace Error

def message? : Error → Option Bytes
  | help => none
  | badForm arg => some ("bad flag syntax: " ++ arg)
  | unknown name => some ("flag provided but not defined: -" ++ name)
  | noValue name => some ("flag needs an argument: -" ++ name)
  | badValue name value =>
    some ("invalid value " ++ Quoted.quote value ++ " for flag -" ++ name ++ ": parse error")
  | badSwitch name value =>
    some ("invalid boolean value " ++ Quoted.quote value ++ " for -" ++ name ++ ": parse error")

end Error

def usage : Bytes :=
  "Usage of ocamlcreator:\n\n" ++
  "\tocamlcreator [flags] errors [-watch] FILE...\n" ++
  "\tocamlcreator [flags] complete FILE LINE:COL\n" ++
  "\tocamlcreator [flags] locate FILE LINE:COL\n" ++
  "\tocamlcreator [flags] occurrences FILE LINE:COL\n" ++
  "\tocamlcreator [flags] quickfix FILE LINE:COL [N]\n" ++
  "\tocamlcreator [flags] hover FILE LINE:COL\n\n" ++
  "LINE is 1-based, COL is 0-based.\n\n" ++
  "  -config string\n    \tpath to a .yaml, .toml or .json config file\n" ++
  "  -merlin string\n    \tpath to the ocamlmerlin binary\n" ++
  "  -tail\n    \twhether to also log output to stderr\n" ++
  "  -timeout duration\n    \tper request timeout; 0 keeps the configured value\n"

def switch? (value : Bytes) : Option Bool :=
  if (["1", "t", "T", "TRUE", "true", "True"] : List Bytes).contains value then some true
  else if (["0", "f", "F", "FALSE", "false", "False"] : List Bytes).contains value then some false
  else none

def set (f : Flags) (name value : Bytes) : Except Error Flags :=
  if name = "config" then .ok { f with config := value }
  else if name = "merlin" then .ok { f with merlin := value }
  else
    match Duration.parse value with
    | .ok d => .ok { f with timeout := d }
    | .error _ => .error (.badValue name value)

def setTail (f : Flags) (value : Option Bytes) : Except Error Flags :=
  match value with
  | none => .ok { f with tail := true }
  | some v =>
    match switch? v with
    | some b => .ok { f with tail := b }
    | none => .error (.badSwitch "tail" v)

def takesValue (name : Bytes) : Bool :=
  name = "config" || name = "merlin" || name = "timeout"

/-- The name of a flag and the value after an equals sign, which cannot come first. -/
def divide (body : Bytes) : Bytes × Option Bytes :=
  match body with
  | [] => ([], none)
  | b :: rest =>
    match Bytes.cut? (Bytes.byte '=') rest with
    | some (name, value) => (b :: name, some value)
    | none => (body, none)

inductive Form where
  | operand
  | terminator
  | bad
  | flag (name : Bytes) (value : Option Bytes)
deriving DecidableEq

def form (arg : Bytes) : Form :=
  let dash := Bytes.byte '-'
  match arg with
  | a :: b :: rest =>
    if a ≠ dash then .operand
    else if b = dash && rest = [] then .terminator
    else
      let body := if b = dash then rest else b :: rest
      if body.head? = some dash || body.head? = some (Bytes.byte '=') then .bad
      else .flag (divide body).1 (divide body).2
  | _ => .operand

/-- Reads flags, on top of those read before: the flags, and the arguments after them. -/
def parseFrom (f : Flags) : List Bytes → Except Error (Flags × List Bytes)
  | [] => .ok (f, [])
  | arg :: rest =>
    match form arg with
    | .operand => .ok (f, arg :: rest)
    | .terminator => .ok (f, rest)
    | .bad => .error (.badForm arg)
    | .flag name value =>
      if name = "tail" then
        match f.setTail value with
        | .ok f => parseFrom f rest
        | .error e => .error e
      else if takesValue name then
        match value, rest with
        | some v, rest =>
          match f.set name v with
          | .ok f => parseFrom f rest
          | .error e => .error e
        | none, v :: rest =>
          match f.set name v with
          | .ok f => parseFrom f rest
          | .error e => .error e
        | none, [] => .error (.noValue name)
      else if name = "help" || name = "h" then .error .help
      else .error (.unknown name)

def parse (args : List Bytes) : Except Error (Flags × List Bytes) :=
  parseFrom {} args

end Flags

end Console

end MerlinBridge
