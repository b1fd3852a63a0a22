import SmsGate.Go.Strconv
import SmsGate.Prog.Object
import Mathlib.Data.Rat.Floor
import Mathlib.Logic.Function.Basic

/-!
# Rate limits per key (`internal/ratelimit/limiter.go`, `internal/ratelimit/registry.go`)

A token bucket for each key, made when the key is first seen.  `Limiter` is `Registry` at strings:
the two have the same code.  Times and durations are in nanoseconds.

The floating-point numbers of the source are rationals here, so that arithmetic is exact; their
conversion to an integer discards the fraction.  Differences of times are exact, too: `Time.Sub`
saturates only after 292 years, when any bucket is full.
-/

namespace SmsGate.Ratelimit

open Go Go.Strconv

/-- `time.Second`. -/
def second : ℤ := 1000000000

/-- `time.Minute`. -/
def minute : ℤ := 60 * second

/-- `Duration.Seconds`. -/
def seconds (d : ℤ) : ℚ := d / second

/-- The conversion of a floating-point number to an integer type. -/
def truncate (x : ℚ) : ℤ := if 0 ≤ x then ⌊x⌋ else ⌈x⌉

/-- `bucket`. -/
structure Bucket where
  tokens : ℚ
  maxTokens : ℚ
  /-- Tokens per nanosecond. -/
  refillRate : ℚ
  lastRefill : ℤ
  deriving DecidableEq

/-- `newBucket`. -/
def newBucket (perMin now : ℤ) : Bucket where
  tokens := perMin
  maxTokens := perMin
  refillRate := perMin / minute
  lastRefill := now

namespace Bucket

/-- The first half of `bucket.Allow`: what has flowed in since the last call. -/
def refill (b : Bucket) (now : ℤ) : Bucket :=
  let elapsed := now - b.lastRefill
  let tokens := b.tokens + seconds elapsed * b.refillRate * second
  { b with
    lastRefill := now
    tokens := if b.maxTokens < tokens then b.maxTokens else tokens }

/-- The end of `bucket.Allow`: the time until one full token is available, and a second at
least. -/
def waitNs (b : Bucket) : ℤ :=
  let needed := 1 - b.tokens
  let waitNs := truncate (needed / (b.refillRate * second) * second)
  if waitNs < second then second else waitNs

/-- `bucket.Allow`: whether a request is permitted, and if not, how long to wait. -/
def allow (b : Bucket) (now : ℤ) : (Bool × ℤ) × Bucket :=
  let b := b.refill now
  if 1 ≤ b.tokens then ((true, 0), { b with tokens := b.tokens - 1 })
  else ((false, b.waitNs), b)

end Bucket

/-- `Registry`. -/
structure Registry (K : Type) where
  perMin : ℤ
  buckets : K → Option Bucket

/-- A call of `Allow`.  A bucket that is made for it reads the clock first. -/
structure Call (K : Type) where
  key : K
  created : ℤ
  now : ℤ
  created_le : created ≤ now
  deriving DecidableEq

namespace Registry

variable {K : Type} [DecidableEq K]

/-- `NewRegistry`. -/
def new (perMin : ℤ) : Registry K where
  perMin := perMin
  buckets _ := none

/-- The bucket that a call uses. -/
def bucket (r : Registry K) (c : Call K) : Bucket :=
  (r.buckets c.key).getD (newBucket r.perMin c.created)

/-- `Registry.Allow`. -/
def allow (r : Registry K) (c : Call K) : (Bool × ℤ) × Registry K :=
  let res := (r.bucket c).allow c.now
  (res.1, { r with buckets := Function.update r.buckets c.key (some res.2) })

/-- A new registry after some calls. -/
def run (perMin : ℤ) (calls : List (Call K)) : Registry K :=
  Object.after allow (new perMin) calls

/-- The calls with what they return. -/
def answers (perMin : ℤ) (calls : List (Call K)) : List (Call K × Bool × ℤ) :=
  Object.answered allow (new perMin) calls

end Registry

/-! ### Requests -/

/-- `Limiter`. -/
abbrev Limiter := Registry (List UInt8)

/-- `defaultPerMin`. -/
def defaultPerMin : ℤ := 10

/-- `FromEnv`, for the value of `RATE_LIMIT_PER_ICCID`, which is empty if the variable is not set.
`none` is no limit. -/
def fromEnv (v : List UInt8) : Option Limiter :=
  let perMin :=
    match atoi v with
    | some n => if 0 ≤ n then n else defaultPerMin
    | none => defaultPerMin
  if perMin = 0 then none else some (.new perMin)

/-- A request.  Its key is the header `X-ICCID`, which is empty if the request has none. -/
abbrev Request := Call (List UInt8)

/-- What becomes of a request. -/
inductive Response where
  /-- The next handler serves it. -/
  | next
  /-- `http.Error`, with the header `Retry-After`. -/
  | error (status : ℕ) (retryAfter body : List UInt8)
  deriving DecidableEq

/-- `Middleware`. -/
def Limiter.middleware (l : Limiter) (req : Request) : Response × Limiter :=
  if req.key = [] then (.next, l)
  else
    let res := l.allow req
    if res.1.1 = false then
      let secs := truncate (seconds res.1.2)
      let secs := if secs < 1 then 1 else secs
      (.error 429 (decimal secs) (lit "rate limit exceeded\n"), res.2)
    else (.next, res.2)

/-- A new limiter after some requests. -/
def Limiter.run (perMin : ℤ) (reqs : List Request) : Limiter :=
  Object.after middleware (Registry.new perMin) reqs

end SmsGate.Ratelimit
