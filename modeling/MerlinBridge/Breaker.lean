import MerlinBridge.Duration

/-!
# The circuit breaker

A tool that keeps failing to run is left alone for a while. The breaker counts the failures since
the last success. At a given number of them it opens, and rejects calls until the cooldown has
passed; then it is half open and lets one trial call through. A success closes it, and a failure
opens it again. The outcome of a call is reported some time after the call was let through.

The breaker has no clock of its own: the time, in nanoseconds, is given to the operations.
-/

namespace MerlinBridge

namespace Breaker

inductive State where
  | closed
  | opened
  | halfOpen
deriving DecidableEq, Repr

namespace State

def name : State → Bytes
  | closed => "closed"
  | opened => "open"
  | halfOpen => "half-open"

def ofCode? (n : Int64) : Option State :=
  if n = 0 then some closed
  else if n = 1 then some opened
  else if n = 2 then some halfOpen
  else none

def nameOfCode (n : Int64) : Bytes :=
  match ofCode? n with
  | some s => s.name
  | none => "unknown"

end State

def rejection : Bytes := "circuit breaker is open"

end Breaker

structure Breaker where
  /-- The number of failures at which it opens; zero or less disables it. -/
  maxFailures : Int64
  cooldown : Duration
  state : Breaker.State := .closed
  failures : Int64 := 0
  openedAt : Int := 0
  /-- Whether a trial call has been let through and not been reported yet. -/
  trial : Bool := false
deriving DecidableEq

namespace Breaker

def disabled : Breaker :=
  { maxFailures := 0, cooldown := 0 }

def isEnabled (b : Breaker) : Bool :=
  0 < b.maxFailures

/-- The time from `t` to `now` as a duration, the longest or the shortest one if it does not fit. -/
def since (now t : Int) : Int :=
  max (-0x8000000000000000) (min 0x7FFFFFFFFFFFFFFF (now - t))

/-- Asks for a call at the time `now`: the breaker afterwards, and whether the call may go on. -/
def allow (b : Breaker) (now : Int) : Breaker × Bool :=
  if b.isEnabled then
    match b.state with
    | .closed => (b, true)
    | .opened =>
      if since now b.openedAt < b.cooldown.toInt then (b, false)
      else ({ b with state := .halfOpen, trial := true }, true)
    | .halfOpen => if b.trial then (b, false) else ({ b with trial := true }, true)
  else (b, true)

def success (b : Breaker) : Breaker :=
  if b.isEnabled then { b with failures := 0, trial := false, state := .closed } else b

def failure (b : Breaker) (now : Int) : Breaker :=
  if b.isEnabled then
    let failures := b.failures + 1
    if b.state = .halfOpen ∨ b.maxFailures ≤ failures then
      { b with failures := failures, trial := false, state := .opened, openedAt := now }
    else { b with failures := failures, trial := false }
  else b

def isOpen (b : Breaker) : Bool :=
  b.isEnabled && b.state = .opened

end Breaker

end MerlinBridge
