import SmsGate.Config.Load
import SmsGate.Go.Outcome
import Mathlib.Algebra.Group.Nat.Defs

/-!
# What is made of a configuration

The durations that `New` and `Run` (`internal/gateway/gateway.go`) derive from a configuration and
that `time.NewTicker` gets from the tunnel and from a worker, and the limits that `newWindow`
(`internal/modem/ratelimit.go`) gets.  A `time.Duration` is an `Int64`, in nanoseconds, and its
product wraps around.
-/

namespace SmsGate.Config

open Go

/-- `time.Second`. -/
def second : Int64 := 1000000000

/-- `time.Minute`. -/
def minute : Int64 := 60000000000

namespace GatewayConfig

variable (cfg : GatewayConfig)

/-- `PingInterval`. -/
def pingInterval : Int64 := cfg.tunnel.pingIntervalS * second

/-- `HeartbeatInterval`. -/
def heartbeatInterval : Int64 := cfg.tunnel.heartbeatIntervalS * second

/-- `FlushInterval`. -/
def flushInterval : Int64 := cfg.buffer.flushIntervalM * minute

/-- `KeepaliveInterval`. -/
def keepaliveInterval : Int64 := cfg.health.keepaliveIntervalS * second

/-- `SignalPollInterval`, with the default of `NewWorker`. -/
def signalPollInterval : Int64 :=
  if cfg.health.signalPollIntervalS * second ≤ 0 then 30 * second
  else cfg.health.signalPollIntervalS * second

/-- What the tickers of the tunnel and of the workers get. -/
def tickers : List Int64 :=
  [cfg.flushInterval, cfg.pingInterval, cfg.heartbeatInterval, cfg.keepaliveInterval,
    cfg.signalPollInterval]

end GatewayConfig

/-- The limits of a modem. -/
def RateLimitConfig.limits (r : RateLimitConfig) : List Int64 := [r.perMin, r.perHour, r.perDay]

/-- `time.NewTicker`, which panics on an interval that is not positive. -/
def newTicker {ε : Type} (d : Int64) : Outcome ε Unit := if d ≤ 0 then .panic else .ok ()

/-- A platform with 64-bit integers. -/
structure Platform where
  /-- The most bytes that can be allocated at once. -/
  maxAlloc : UInt64
  large : 2 ^ 32 ≤ maxAlloc.toNat

/-- The size of a `time.Time`. -/
def sizeofTime : ℕ := 24

/-- `make([]time.Time, 0, cap)`, which panics on a capacity that is negative or too large. -/
def makeTimes {ε : Type} (p : Platform) (cap : Int64) : Outcome ε Unit :=
  if cap < 0 ∨ (p.maxAlloc.toNat : ℤ) < sizeofTime * cap.toInt then .panic else .ok ()

/-- The allocation of `newWindow`. -/
def newWindowEvents {ε : Type} (p : Platform) (limit : Int64) : Outcome ε Unit :=
  makeTimes p (limit + 1)

end SmsGate.Config
