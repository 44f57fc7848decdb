import MerlinBridge.Settings.Config
import MerlinBridge.Shell.Fields

/-!
# Configuration by environment variables

Three variables override the configuration: the path of the tool, its flags, which are split like a
command line, and the time that a request may take. An empty variable is ignored. They are looked at
in this order, and what was set before one that makes no sense stays set.
-/

namespace MerlinBridge

namespace Config

inductive EnvironmentError where
  | flags
  | requestTimeout (cause : Duration.Error)
deriving DecidableEq

namespace Variable

def merlinPath : Bytes := "OCAMLCREATOR_MERLIN_PATH"

def merlinFlags : Bytes := "OCAMLCREATOR_MERLIN_FLAGS"

def requestTimeout : Bytes := "OCAMLCREATOR_REQUEST_TIMEOUT"

def logPattern : Bytes := "OCAMLCREATOR_LOGFILE_TMPL"

end Variable

namespace EnvironmentError

def message : EnvironmentError → Bytes
  | flags => "invalid env var " ++ Variable.merlinFlags
  | requestTimeout cause =>
    "invalid env var " ++ Variable.requestTimeout ++ ": " ++ cause.message

end EnvironmentError

def overridePath (env : Shell.Environment) (c : Config) : Config :=
  match env.get? Variable.merlinPath with
  | none => c
  | some v => { c with merlinPath := some v }

def overrideFlags (env : Shell.Environment) (c : Config) : Except EnvironmentError Config :=
  match env.get? Variable.merlinFlags with
  | none => .ok c
  | some v =>
    match Shell.fields? env v with
    | none => .error .flags
    | some fs => .ok { c with merlinFlags := some fs }

def overrideTimeout (env : Shell.Environment) (c : Config) : Except EnvironmentError Config :=
  match env.get? Variable.requestTimeout with
  | none => .ok c
  | some v =>
    match Duration.parse v with
    | .error e => .error (.requestTimeout e)
    | .ok _ => .ok { c with requestTimeout := some v }

def applyEnvironment (env : Shell.Environment) (c : Config) :
    Config × Option EnvironmentError :=
  let c := c.overridePath env
  match c.overrideFlags env with
  | .error e => (c, some e)
  | .ok c =>
    match c.overrideTimeout env with
    | .error e => (c, some e)
    | .ok c => (c, none)

end Config

end MerlinBridge
