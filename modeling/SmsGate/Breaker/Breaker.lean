import SmsGate.Prog.Object
import Mathlib.Data.Int.Notation

/-!
# The circuit breaker (`internal/breaker/breaker.go`)

Every method holds the lock while it runs, and reads the clock inside, so a run of any number of
callers is a list of calls with the times they read.  Times and durations are in nanoseconds.

`State` has no values beside the three, so the `default` branches of the source are left out.
-/

namespace SmsGate

/-- `State`. -/
inductive Breaker.State where
  /-- `Closed`: all calls are allowed. -/
  | closed
  /-- `Open`: calls are rejected until the reset timeout elapses. -/
  | opened
  /-- `HalfOpen`: a probe may test whether the downstream is healthy. -/
  | halfOpen
  deriving DecidableEq

/-- `Breaker`. -/
structure Breaker where
  state : Breaker.State
  failures : ℤ
  threshold : ℤ
  resetTimeout : ℤ
  /-- Set whenever the breaker becomes `Open`, and read only there. -/
  openUntil : ℤ
  deriving DecidableEq

namespace Breaker

/-- `New`. -/
def new (threshold resetTimeout : ℤ) : Breaker where
  state := .closed
  failures := 0
  threshold := threshold
  resetTimeout := resetTimeout
  openUntil := 0

/-- `Allow`. -/
def allow (b : Breaker) (now : ℤ) : Bool × Breaker :=
  match b.state with
  | .closed => (true, b)
  | .opened =>
    if now < b.openUntil then (false, b)
    else (true, { b with state := .halfOpen })
  | .halfOpen => (true, b)

/-- `RecordSuccess`. -/
def recordSuccess (b : Breaker) : Breaker :=
  if b.state = .halfOpen ∨ b.state = .opened then { b with failures := 0, state := .closed }
  else { b with failures := 0 }

/-- `RecordFailure`. -/
def recordFailure (b : Breaker) (now : ℤ) : Breaker :=
  match b.state with
  | .opened => b
  | .halfOpen => { b with state := .opened, openUntil := now + b.resetTimeout }
  | .closed =>
    if b.threshold ≤ b.failures + 1 then
      { b with
        failures := b.failures + 1
        state := .opened
        openUntil := now + b.resetTimeout }
    else { b with failures := b.failures + 1 }

/-! ### Runs -/

/-- The methods. -/
inductive Op where
  | allow
  | recordSuccess
  | recordFailure
  deriving DecidableEq

/-- A call, with the time that it reads. -/
structure Call where
  op : Op
  now : ℤ
  deriving DecidableEq

/-- A call and what it changes; the answer is whether it lets an operation pass, as only `Allow`
does. -/
def step (b : Breaker) (c : Call) : Bool × Breaker :=
  match c.op with
  | .allow => b.allow c.now
  | .recordSuccess => (false, b.recordSuccess)
  | .recordFailure => (false, b.recordFailure c.now)

/-- A new breaker after some calls. -/
def run (threshold resetTimeout : ℤ) (calls : List Call) : Breaker :=
  Object.after step (new threshold resetTimeout) calls

end Breaker

end SmsGate
