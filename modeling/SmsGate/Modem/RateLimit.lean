import SmsGate.Go.Strings
import Mathlib.Data.Int.Notation
import Mathlib.Logic.Function.Basic

/-!
# The rate limiter of a SIM (`internal/modem/ratelimit.go`)

A limiter has three windows.  `tryAll` asks all of them first and advances them only if all agree.
Times and durations are in nanoseconds.

`window.Allow` moves the events that are still in the window to the front of their own array; no
event is overwritten before it was looked at, so the slice ends up as the filtered list.  The
capacity with which a window's slice is made is left out.
-/

namespace SmsGate.Modem

/-- `RateLimitConfig`. -/
structure RateLimitConfig where
  perMin : ℤ
  perHour : ℤ
  perDay : ℤ
  deriving DecidableEq

/-- `window`. -/
structure Window where
  limit : ℤ
  duration : ℤ
  events : List ℤ
  deriving DecidableEq

/-- `newWindow`. -/
def newWindow (limit dur : ℤ) : Window where
  limit := limit
  duration := dur
  events := []

/-- `window.Allow`. -/
def Window.allow (w : Window) (now : ℤ) : Bool × Window :=
  let cutoff := now - w.duration
  let valid := w.events.filter fun t => cutoff < t
  if w.limit ≤ valid.length then (false, { w with events := valid })
  else (true, { w with events := valid ++ [now] })

/-- `wouldAllow`. -/
def wouldAllow (w : Window) (now : ℤ) : Bool :=
  let cutoff := now - w.duration
  let count : ℕ := w.events.countP fun t => cutoff < t
  count < w.limit

/-- `SIMRateLimiter`. -/
structure SIMRateLimiter where
  perMin : Window
  perHour : Window
  perDay : Window
  deriving DecidableEq

/-- `newSIMRateLimiter`. -/
def newSIMRateLimiter (cfg : RateLimitConfig) : SIMRateLimiter where
  perMin := newWindow cfg.perMin (60 * 1000000000)
  perHour := newWindow cfg.perHour (3600 * 1000000000)
  perDay := newWindow cfg.perDay (24 * 3600 * 1000000000)

/-- `tryAll`.  The operands of `&&` are evaluated in order, up to the first that is false. -/
def SIMRateLimiter.tryAll (r : SIMRateLimiter) (now : ℤ) : Bool × SIMRateLimiter :=
  if ¬ (wouldAllow r.perMin now && wouldAllow r.perHour now && wouldAllow r.perDay now) then
    (false, r)
  else
    let (minOk, perMin) := r.perMin.allow now
    if ¬ minOk then (false, { r with perMin })
    else
      let (hourOk, perHour) := r.perHour.allow now
      if ¬ hourOk then (false, { r with perMin, perHour })
      else
        let (dayOk, perDay) := r.perDay.allow now
        (dayOk, { perMin, perHour, perDay })

/-- `RateLimiterRegistry`: the limiter of each ICCID. -/
abbrev RateLimiterRegistry := List UInt8 → Option SIMRateLimiter

namespace RateLimiterRegistry

/-- `NewRateLimiterRegistry`. -/
def new : RateLimiterRegistry := fun _ => none

/-- `Register`: a new limiter, in place of the one that the ICCID may have. -/
def register (r : RateLimiterRegistry) (iccid : List UInt8) (cfg : RateLimitConfig) :
    RateLimiterRegistry :=
  Function.update r iccid (some (newSIMRateLimiter cfg))

/-- `Allow`; `now` is the time that `SIMRateLimiter.Allow` reads. -/
def allow (r : RateLimiterRegistry) (iccid : List UInt8) (now : ℤ) :
    Bool × RateLimiterRegistry :=
  match r iccid with
  | none => (true, r)
  | some lim =>
    let (ok, lim) := lim.tryAll now
    (ok, Function.update r iccid (some lim))

end RateLimiterRegistry

end SmsGate.Modem
