import MerlinBridge.Settings.Config

/-!
# The fields of a configuration

A configuration file sets fields by name. Each field has two names, one in lower case with
underscores and one in mixed case, and takes values of one kind. A field can also be left unset
explicitly.
-/

namespace MerlinBridge

namespace Config

inductive Field where
  | merlinPath
  | merlinFlags
  | merlinLog
  | requestTimeout
  | retireTimeout
  | startAttempts
  | breakerThreshold
  | breakerCooldown
  | watchProjectFiles
deriving DecidableEq, Repr

inductive Value where
  | unset
  | text (t : Bytes)
  | texts (ts : List Bytes)
  | number (n : Int64)
  | switch (b : Bool)
deriving DecidableEq

inductive Kind where
  | text
  | texts
  | number
  | switch
deriving DecidableEq, Repr

namespace Field

def all : List Field :=
  [merlinPath, merlinFlags, merlinLog, requestTimeout, retireTimeout, startAttempts,
    breakerThreshold, breakerCooldown, watchProjectFiles]

def name : Field → Bytes
  | merlinPath => "merlin_path"
  | merlinFlags => "merlin_flags"
  | merlinLog => "merlin_log"
  | requestTimeout => "request_timeout"
  | retireTimeout => "retire_timeout"
  | startAttempts => "start_attempts"
  | breakerThreshold => "breaker_threshold"
  | breakerCooldown => "breaker_cooldown"
  | watchProjectFiles => "watch_project_files"

def label : Field → Bytes
  | merlinPath => "MerlinPath"
  | merlinFlags => "MerlinFlags"
  | merlinLog => "MerlinLog"
  | requestTimeout => "RequestTimeout"
  | retireTimeout => "RetireTimeout"
  | startAttempts => "StartAttempts"
  | breakerThreshold => "BreakerThreshold"
  | breakerCooldown => "BreakerCooldown"
  | watchProjectFiles => "WatchProjectFiles"

def kind : Field → Kind
  | merlinFlags => .texts
  | startAttempts => .number
  | breakerThreshold => .number
  | watchProjectFiles => .switch
  | _ => .text

def named? (n : Bytes) : Option Field :=
  all.find? fun f => f.name = n

end Field

def Kind.empty : Kind → Value
  | text => .text []
  | texts => .texts []
  | number => .number 0
  | switch => .switch false

namespace Value

def text? : Value → Option (Option Bytes)
  | unset => some none
  | text t => some (some t)
  | _ => none

def texts? : Value → Option (Option (List Bytes))
  | unset => some none
  | texts ts => some (some ts)
  | _ => none

def number? : Value → Option (Option Int64)
  | unset => some none
  | number n => some (some n)
  | _ => none

def switch? : Value → Option (Option Bool)
  | unset => some none
  | switch b => some (some b)
  | _ => none

end Value

def get (c : Config) : Field → Value
  | .merlinPath => (c.merlinPath.map Value.text).getD .unset
  | .merlinFlags => (c.merlinFlags.map Value.texts).getD .unset
  | .merlinLog => (c.merlinLog.map Value.text).getD .unset
  | .requestTimeout => (c.requestTimeout.map Value.text).getD .unset
  | .retireTimeout => (c.retireTimeout.map Value.text).getD .unset
  | .startAttempts => (c.startAttempts.map Value.number).getD .unset
  | .breakerThreshold => (c.breakerThreshold.map Value.number).getD .unset
  | .breakerCooldown => (c.breakerCooldown.map Value.text).getD .unset
  | .watchProjectFiles => (c.watchProjectFiles.map Value.switch).getD .unset

def put (c : Config) (f : Field) (v : Value) : Option Config :=
  match f with
  | .merlinPath => v.text?.map fun x => { c with merlinPath := x }
  | .merlinFlags => v.texts?.map fun x => { c with merlinFlags := x }
  | .merlinLog => v.text?.map fun x => { c with merlinLog := x }
  | .requestTimeout => v.text?.map fun x => { c with requestTimeout := x }
  | .retireTimeout => v.text?.map fun x => { c with retireTimeout := x }
  | .startAttempts => v.number?.map fun x => { c with startAttempts := x }
  | .breakerThreshold => v.number?.map fun x => { c with breakerThreshold := x }
  | .breakerCooldown => v.text?.map fun x => { c with breakerCooldown := x }
  | .watchProjectFiles => v.switch?.map fun x => { c with watchProjectFiles := x }

end Config

end MerlinBridge
