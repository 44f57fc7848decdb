import MerlinBridge.Duration
import MerlinBridge.Path

/-!
# Configuration

A configuration sets some of nine fields and leaves the others unset. Configurations are layered:
what an upper layer sets hides what is below it. The settings of the bridge are what is left on top
of the defaults, once the durations are read and everything is found to be in range.
-/

namespace MerlinBridge

structure Config where
  merlinPath : Option Bytes := none
  merlinFlags : Option (List Bytes) := none
  merlinLog : Option Bytes := none
  requestTimeout : Option Bytes := none
  retireTimeout : Option Bytes := none
  startAttempts : Option Int64 := none
  breakerThreshold : Option Int64 := none
  breakerCooldown : Option Bytes := none
  watchProjectFiles : Option Bool := none
deriving DecidableEq

structure Settings where
  merlinPath : Bytes
  merlinFlags : List Bytes
  merlinLog : Bytes
  requestTimeout : Duration
  retireTimeout : Duration
  startAttempts : Int64
  breakerThreshold : Int64
  breakerCooldown : Duration
  watchProjectFiles : Bool
deriving DecidableEq

namespace Config

/-- The default configuration, which sets every field. The log of the tool is kept in the directory
for temporary files. -/
def default (tempDir : Bytes) : Config where
  merlinPath := some "ocamlmerlin"
  merlinFlags := some []
  merlinLog := some (Path.join tempDir "merlin.ocamlcreator.log")
  requestTimeout := some "10s"
  retireTimeout := some "3s"
  startAttempts := some 3
  breakerThreshold := some 0
  breakerCooldown := some "30s"
  watchProjectFiles := some true

def apply (lower upper : Config) : Config where
  merlinPath := upper.merlinPath.or lower.merlinPath
  merlinFlags := upper.merlinFlags.or lower.merlinFlags
  merlinLog := upper.merlinLog.or lower.merlinLog
  requestTimeout := upper.requestTimeout.or lower.requestTimeout
  retireTimeout := upper.retireTimeout.or lower.retireTimeout
  startAttempts := upper.startAttempts.or lower.startAttempts
  breakerThreshold := upper.breakerThreshold.or lower.breakerThreshold
  breakerCooldown := upper.breakerCooldown.or lower.breakerCooldown
  watchProjectFiles := upper.watchProjectFiles.or lower.watchProjectFiles

@[simp] theorem apply_empty (c : Config) : c.apply {} = c := by
  cases c
  simp [apply]

@[simp] theorem empty_apply (c : Config) : Config.apply {} c = c := by
  cases c
  simp [apply]

inductive Error where
  | emptyPath
  | startAttempts (n : Int64)
  | breakerThreshold (n : Int64)
  | badDuration (field : Bytes) (cause : Duration.Error)
  | negativeDuration (field written : Bytes)
deriving DecidableEq

namespace Error

def message : Error → Bytes
  | emptyPath => "MerlinPath is empty"
  | startAttempts n => "StartAttempts must be at least 1; got " ++ Decimal.ofInt64 n
  | breakerThreshold n => "BreakerThreshold must not be negative; got " ++ Decimal.ofInt64 n
  | badDuration field cause => "invalid " ++ field ++ ": " ++ cause.message
  | negativeDuration field written => field ++ " must not be negative; got " ++ written

end Error

def duration (field written : Bytes) : Except Error Duration :=
  match Duration.parse written with
  | .error e => .error (.badDuration field e)
  | .ok d => if d < 0 then .error (.negativeDuration field written) else .ok d

def resolve (c : Config) : Except Error Settings := do
  let path := c.merlinPath.getD []
  let attempts := c.startAttempts.getD 0
  let threshold := c.breakerThreshold.getD 0
  if path = [] then throw .emptyPath
  if attempts < 1 then throw (.startAttempts attempts)
  if threshold < 0 then throw (.breakerThreshold threshold)
  let requestTimeout ← duration "RequestTimeout" (c.requestTimeout.getD [])
  let retireTimeout ← duration "RetireTimeout" (c.retireTimeout.getD [])
  let breakerCooldown ← duration "BreakerCooldown" (c.breakerCooldown.getD [])
  pure
    { merlinPath := path
      merlinFlags := c.merlinFlags.getD []
      merlinLog := c.merlinLog.getD []
      requestTimeout := requestTimeout
      retireTimeout := retireTimeout
      startAttempts := attempts
      breakerThreshold := threshold
      breakerCooldown := breakerCooldown
      watchProjectFiles := c.watchProjectFiles.getD false }

def settings (tempDir : Bytes) (c : Config) : Except Error Settings :=
  ((Config.default tempDir).apply c).resolve

end Config

end MerlinBridge
