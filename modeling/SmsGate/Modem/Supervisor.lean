import SmsGate.Modem.System

/-!
# The supervisor of a modem (`internal/modem/supervisor.go`)

`RunSupervised` runs one worker after the other on the same port, as one goroutine: the blocks of
`Run` are blocks of it.  Every worker has a watchdog goroutine of its own.

What outlives a worker are the modem, the buffer and the limiters (`outside`), the clock and the
context.  The delay of the back-off is left open, as all times are: the clock moves by steps of the
environment.
-/

namespace SmsGate.Modem

/-- The calls of the supervisor and of the workers it runs. -/
inductive SupervisorCall where
  | work (e : Call)
  /-- `factory`. -/
  | newWorker
  /-- `ctx.Err() != nil`. -/
  | ctxErr
  /-- The `select` after a worker has returned; `true` is its timer. -/
  | backOff (attempt : ℕ)
  deriving DecidableEq

/-- What a call is answered by. -/
abbrev SupervisorCall.Ans : SupervisorCall → Type
  | work e => e.Ans
  | newWorker => Unit
  | ctxErr | backOff _ => Bool

/-- The blocks of the supervisor and of the watchdogs. -/
inductive SupervisorLabel where
  /-- The head of the loop, after `n` attempts. -/
  | attempt (n : ℕ)
  /-- `Run` of an attempt, or the watchdog of its worker. -/
  | run (attempt : ℕ) (l : Label)
  /-- `Run` has returned. -/
  | returned (attempt : ℕ) (finalState : State)
  deriving DecidableEq

/-- The programs of the supervisor. -/
abbrev Supervision := Prog SupervisorCall SupervisorCall.Ans

/-- The program that makes one call. -/
def askSupervisor (c : SupervisorCall) : Supervision c.Ans := Prog.perform c

/-- A program of a worker, as a part of the supervisor. -/
def supervised {α : Type} (p : Work α) : Supervision α := p.embed .work fun _ a => a

section

variable (h : Host) (w : Worker)

/-- One iteration of `RunSupervised`, up to `Run`.  The first worker is there from the start. -/
def startAttempt (n : ℕ) : Supervision (SupervisorLabel ⊕ Unit) := do
  let attempt := n + 1
  if attempt ≠ 1 then askSupervisor .newWorker else pure ()
  return .inl (.run attempt .init)

/-- The rest of the iteration, once `Run` has returned. -/
def afterRun (attempt : ℕ) (finalState : State) : Supervision (SupervisorLabel ⊕ Unit) := do
  let canceled : Bool ← askSupervisor .ctxErr
  if canceled then return .inr ()
  else if finalState = .banned then return .inr ()
  else
    let timer : Bool ← askSupervisor (.backOff attempt)
    if timer then return .inl (.attempt attempt) else return .inr ()

/-- The next block after one of `Run`. -/
def supervisorNext (attempt : ℕ) : Label ⊕ Exit → SupervisorLabel ⊕ Unit
  | .inl l => .inl (.run attempt l)
  | .inr (.run st) => .inl (.returned attempt st)
  | .inr .watchdog => .inr ()

/-- The code of all goroutines. -/
def supervisorBlock : SupervisorLabel → Supervision (SupervisorLabel ⊕ Unit)
  | .attempt n => startAttempt n
  | .run attempt l => do return supervisorNext attempt (← supervised (block h w l))
  | .returned attempt finalState => afterRun attempt finalState

end

/-- The goroutines: the supervisor and the watchdog of each attempt's worker. -/
inductive SupervisorThread where
  | supervisor
  | watchdog (attempt : ℕ)
  deriving DecidableEq

/-- The worker that is running, and its number. -/
structure SupervisorWorld (O : Type) where
  world : World O
  attempt : ℕ

/-- A new worker; the clock, the context and what lies outside go on. -/
def World.restart {O : Type} (s : World O) : World O :=
  { World.new s.outside with
    clock := s.clock, ctxDone := s.ctxDone, connections := s.connections }

/-- The first worker. -/
def SupervisorWorld.new {O : Type} (o : O) : SupervisorWorld O := ⟨World.new o, 1⟩

/-- The world after a call is answered; `none` if it cannot be answered so. -/
def SupervisorWorld.exec {O C : Type} (outside : C → O → (e : Call) → e.Ans → Option O)
    (t : SupervisorThread) (ch : C) (s : SupervisorWorld O) :
    (e : SupervisorCall) → e.Ans → Option (SupervisorWorld O)
  | .work e, a =>
    match t with
    | .supervisor => (s.world.exec outside ch e a).map fun s' => { s with world := s' }
    | .watchdog n =>
      -- the watchdog of an old worker sees and changes the atomics of that worker only
      if n < s.attempt then some s
      else if n = s.attempt then (s.world.exec outside ch e a).map fun s' => { s with world := s' }
      else none
  | .newWorker, _ => some { world := s.world.restart, attempt := s.attempt + 1 }
  | .ctxErr, canceled => if canceled = s.world.ctxDone then some s else none
  | .backOff _, timer => if timer ∨ s.world.ctxDone then some s else none

/-- Where the goroutines start. -/
def supervisorEntry : SupervisorThread → SupervisorLabel
  | .supervisor => .attempt 0
  | .watchdog n => .run n .watchdog

end SmsGate.Modem
