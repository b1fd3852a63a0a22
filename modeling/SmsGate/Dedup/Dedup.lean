import SmsGate.Go.Hex
import SmsGate.Prog.Object
import Mathlib.Data.Int.Notation

/-!
# Duplicate detection (`internal/dedup/dedup.go`)

The fingerprints of the messages that were not duplicates, with the times at which they came, in a
ring.  SHA-256 is a parameter.  Times and durations are in nanoseconds, and the difference of two
times is exact: `Time.Sub` saturates only after 292 years.
-/

namespace SmsGate

open Go

/-- `entry`. -/
structure Dedup.Entry where
  key : List UInt8
  ts : ℤ
  deriving DecidableEq

/-- `Dedup`. -/
structure Dedup where
  entries : List Dedup.Entry
  maxSize : ℤ
  window : ℤ
  deriving DecidableEq

namespace Dedup

/-- `DefaultMaxSize`. -/
def defaultMaxSize : ℤ := 100

/-- `New`. -/
def new (maxSize window : ℤ) : Dedup where
  entries := []
  maxSize := if maxSize ≤ 0 then defaultMaxSize else maxSize
  window := window

/-- A message. -/
structure Message where
  iccid : List UInt8
  dest : List UInt8
  body : List UInt8
  deriving DecidableEq

/-- `fingerprint`: the first 128 bits of the hash of the three fields, which are separated by zero
bytes. -/
def fingerprint (sum256 : List UInt8 → List UInt8) (m : Message) : List UInt8 :=
  Hex.encodeToString ((sum256 (m.iccid ++ [0] ++ m.dest ++ [0] ++ m.body)).take 16)

/-- A call of `IsDuplicate`, with the time that it reads. -/
structure Call where
  message : Message
  now : ℤ
  deriving DecidableEq

/-- `IsDuplicate`. -/
def isDuplicate (sum256 : List UInt8 → List UInt8) (d : Dedup) (c : Call) : Bool × Dedup :=
  let key := fingerprint sum256 c.message
  if d.entries.any fun e => e.key = key ∧ c.now - e.ts < d.window then (true, d)
  else
    let entries := if d.maxSize ≤ d.entries.length then d.entries.drop 1 else d.entries
    (false, { d with entries := entries ++ [⟨key, c.now⟩] })

/-- A new `Dedup` after some calls. -/
def run (sum256 : List UInt8 → List UInt8) (maxSize window : ℤ) (calls : List Call) : Dedup :=
  Object.after (isDuplicate sum256) (new maxSize window) calls

/-- The calls with what they return. -/
def answers (sum256 : List UInt8 → List UInt8) (maxSize window : ℤ) (calls : List Call) :
    List (Call × Bool) :=
  Object.answered (isDuplicate sum256) (new maxSize window) calls

end Dedup

end SmsGate
