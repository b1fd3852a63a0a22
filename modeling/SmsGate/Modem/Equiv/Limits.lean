import SmsGate.Modem.Equiv.Drain
import SmsGate.Modem.Equiv.RateLimit
import Mathlib.Data.List.Dedup

/-!
# The limits of a worker and what it submits

A worker asks the limiter once for each message, before it encodes it, and then submits the parts of
the message one by one.  What the limiter bounds are the messages, by the time at which they are
admitted; what the modem sends are the parts, by the time at which they are written.

The calls of the registry that a run makes are a run of the registry (`BudgetInv.run`), so the
messages admitted are bounded by the limits.  What they leave of a limit has to do for the further
parts of these messages, and for parts of a message that was admitted before the interval
(`submissions_le_iff`).
-/

namespace SmsGate.Modem

open Tunnel SlidingWindow

/-! ### What a run asks of the limiter, and what it submits -/

/-- The call of the registry that a call of the worker is. -/
def Call.limiterCall (now : ℤ) : (e : Call) → e.Ans → Option LimiterCall
  | .registerLimiter iccid, _ => some (.register iccid now)
  | .allow iccid, (ok : Bool) => some (.allow iccid now ok)
  | _, _ => none

variable {O C : Type}

/-- The calls of the registry, the newest first. -/
def limiterCalls : History O → List LimiterCall
  | [] => []
  | .call _ e a s :: past => (e.limiterCall s.clock a).toList ++ limiterCalls past
  | _ :: past => limiterCalls past

/-- The times at which a message was admitted, the oldest first. -/
def admitted : List LimiterCall → List ℤ
  | [] => []
  | .register _ _ :: past => admitted past
  | .allow _ now ok :: past => admitted past ++ if ok then [now] else []

/-- `ExecuteSend` has written the PDU, as far as its result tells: the other errors come before. -/
def pduWritten : Except At.Err ℤ → Bool
  | .error .writeCMGS | .error .sendPrompt | .error (.rejected _) | .error .writePDU => false
  | _ => true

/-- A PDU that was written: when, and for which message, in the order in which the messages were
admitted. -/
structure Submission where
  time : ℤ
  message : ℕ
  deriving DecidableEq

/-- The submissions of a run, the newest first. -/
def submissions : History O → List Submission
  | [] => []
  | .call _ (.executeSend _ _) (a : Except At.Err ℤ) s :: past =>
    if pduWritten a then ⟨s.clock, (admitted (limiterCalls past)).length - 1⟩ :: submissions past
    else submissions past
  | _ :: past => submissions past

/-! ### How `Run` uses the limiter -/

/-- The calls that have to do with the limits. -/
def Call.limits : Call → Bool
  | .registerLimiter _ | .allow _ | .executeSend _ _ | .select => true
  | _ => false

/-- What `Run` may do: nothing before it has registered a limiter, ask it, or send a message that
was admitted. -/
inductive Budget where
  | none
  | ask (iccid : List UInt8)
  | send (iccid : List UInt8)

/-- `Run` registers one limiter, asks only this one, and sends only what was admitted. -/
def budgetProtocol : Protocol Call Call.Ans Budget where
  allows q e :=
    match e with
    | .registerLimiter _ => q = .none
    | .allow iccid => q = .ask iccid
    | .executeSend _ _ => ∃ iccid, q = .send iccid
    | _ => True
  next q e a :=
    match e, a with
    | .registerLimiter iccid, _ => .ask iccid
    | .allow iccid, (ok : Bool) => if ok then .send iccid else .ask iccid
    | .select, _ =>
      match q with
      | .send iccid => .ask iccid
      | q => q
    | _, _ => q

theorem budgetProtocol_stays {q : Budget} (e : Call) (he : e.limits = false) :
    budgetProtocol.allows q e ∧ ∀ a, budgetProtocol.next q e a = q := by
  cases e with
  | registerLimiter | allow | executeSend | select => cases he
  | _ => exact ⟨trivial, fun _ => rfl⟩

/-- A program that has nothing to do with the limits. -/
abbrev Unlimited {α : Type} (p : Work α) : Prop := p.Calls fun e => e.limits = false

theorem Unlimited.obeys {α : Type} {p : Work α} (hp : Unlimited p) {q : Budget}
    {Φ : α → Budget → Prop} (hΦ : ∀ a, Φ a q) : p.Obeys budgetProtocol q Φ :=
  Prog.Calls.obeys hp budgetProtocol_stays hΦ

theorem Unlimited.bind_obeys {α β : Type} {p : Work α} {f : α → Work β} (hp : Unlimited p)
    {q : Budget} {Φ : β → Budget → Prop} (hf : ∀ a, (f a).Obeys budgetProtocol q Φ) :
    (p >>= f).Obeys budgetProtocol q Φ :=
  Prog.Calls.bind_obeys hp budgetProtocol_stays hf

/-- Only one ICCID was registered, at the start, and only this one was asked for. -/
structure OneSim (iccid : List UInt8) (calls : List LimiterCall) : Prop where
  registered : ∃ t, .register iccid t ∈ calls
  admitted_eq : admitted calls = admittedBy iccid calls
  before : admittedBefore iccid calls = []

theorem OneSim.allow {iccid : List UInt8} {calls : List LimiterCall} (h : OneSim iccid calls)
    (now : ℤ) (ok : Bool) : OneSim iccid (.allow iccid now ok :: calls) where
  registered := by
    obtain ⟨t, ht⟩ := h.registered
    exact ⟨t, List.mem_cons_of_mem _ ht⟩
  admitted_eq := by
    unfold admitted admittedBy
    rw [h.admitted_eq]
    simp only [true_and]
  before := h.before

/-- What the calls of the registry are, by what `Run` may do. -/
def BudgetOk (calls : List LimiterCall) : Budget → Prop
  | .none => calls = []
  | .ask iccid => OneSim iccid calls
  | .send iccid => OneSim iccid calls ∧ admitted calls ≠ []

/-- The calls of the registry are a run of it, and every submission is for a message that was
admitted before. -/
structure BudgetInv (cfg : RateLimitConfig) (s : World O) (past : History O) (q : Budget) :
    Prop where
  run : answered cfg (limiterCalls past) → LimiterRun cfg (limiterCalls past) s.clock
  budget : BudgetOk (limiterCalls past) q
  admitted_le : ∀ t ∈ admitted (limiterCalls past), t ≤ s.clock
  submitted : ∀ sub ∈ submissions past,
    ∃ t, (admitted (limiterCalls past))[sub.message]? = some t ∧ t ≤ sub.time

section Step

variable {cfg : RateLimitConfig} {outside : C → O → (e : Call) → e.Ans → Option O} {ch : C}
  {s s' : World O} {past past' : History O} {q : Budget}

theorem BudgetInv.of_same (h : BudgetInv cfg s past q) (hclock : s.clock ≤ s'.clock)
    (hcalls : limiterCalls past' = limiterCalls past)
    (hsubs : submissions past' = submissions past) : BudgetInv cfg s' past' q where
  run hans := by
    rw [hcalls] at hans ⊢
    exact (h.run hans).wait hclock
  budget := by
    rw [hcalls]
    exact h.budget
  admitted_le t ht := by
    rw [hcalls] at ht
    exact (h.admitted_le t ht).trans hclock
  submitted := by
    rw [hcalls, hsubs]
    exact h.submitted

end Step

/-! ### Whole runs -/

variable (h : Host) (w : Worker) (outside : C → O → (e : Call) → e.Ans → Option O)

/-- The messages that were admitted are bounded by the limits. -/
theorem BudgetInv.bounded {cfg : RateLimitConfig} {s : World O} {past : History O} {q : Budget}
    (hinv : BudgetInv cfg s past q) (hans : answered cfg (limiterCalls past)) (span : Span) :
    Bounded span.nanos (cfg.limit span).toNat (admitted (limiterCalls past)) := by
  have hone : ∀ iccid, OneSim iccid (limiterCalls past) →
      Bounded span.nanos (cfg.limit span).toNat (admitted (limiterCalls past)) := by
    intro iccid hsim
    rw [hsim.admitted_eq, admittedBy_eq_append, hsim.before]
    exact (hinv.run hans).bounded_since span
  have hbudget := hinv.budget
  cases q with
  | none =>
    rw [show limiterCalls past = [] from hbudget]
    exact bounded_nil
  | ask iccid => exact hone iccid hbudget
  | send iccid => exact hone iccid hbudget.1

/-- The message of a submission was admitted before the interval. -/
def Submission.late (past : History O) (x : ℤ) (sub : Submission) : Bool :=
  (admitted (limiterCalls past))[sub.message]?.all (· ≤ x)

end SmsGate.Modem
