import SmsGate.Modem.Supervisor

/-!
# The supervised modems of a gateway

Every modem of a gateway has a supervisor.  The supervisors share the clock, the context and the
gauge `ActiveConnections` (`internal/metrics/metrics.go`).  What lies outside gives every modem its
own answers.

`World.connections` of a modem is its own share of the gauge.
-/

namespace SmsGate.Modem

open Tunnel

/-- What a call adds to `ActiveConnections`. -/
def SupervisorCall.connections : SupervisorCall → ℤ
  | .work .incConnections => 1
  | .work .decConnections => -1
  | _ => 0

/-- What the supervisors share, and what belongs to each modem. -/
structure SupervisorsWorld (ι O : Type) where
  activeConnections : ℤ
  modems : ι → SupervisorWorld O

namespace SupervisorsWorld

variable {ι O C : Type} [DecidableEq ι]

/-- The first worker of every modem. -/
def new (o : ι → O) : SupervisorsWorld ι O where
  activeConnections := 0
  modems i := .new (o i)

/-- A modem's own part, changed. -/
def setModem (s : SupervisorsWorld ι O) (i : ι) (s' : SupervisorWorld O) : SupervisorsWorld ι O :=
  { s with modems := Function.update s.modems i s' }

/-- The worlds of all modems, changed. -/
def mapWorlds (s : SupervisorsWorld ι O) (f : World O → World O) : SupervisorsWorld ι O :=
  { s with modems := fun i => { s.modems i with world := f (s.modems i).world } }

/-- A call of a goroutine of a modem. -/
def exec (outside : ι → C → O → (e : Call) → e.Ans → Option O) (t : ι × SupervisorThread) (ch : C)
    (s : SupervisorsWorld ι O) (e : SupervisorCall) (a : e.Ans) : Option (SupervisorsWorld ι O) :=
  ((s.modems t.1).exec (outside t.1) t.2 ch e a).map fun s' =>
    { s.setModem t.1 s' with activeConnections := s.activeConnections + e.connections }

end SupervisorsWorld

/-- What the rest of the gateway does. -/
inductive SupervisorsOuter (ι : Type) where
  /-- `Dispatch` finds the worker of a modem in the registry. -/
  | lookup (i : ι)
  /-- `Dispatch` sends a task, or finds the channel full. -/
  | send (i : ι) (task : Task)
  | requestReset (i : ι)
  | cancel
  /-- Time passes, in nanoseconds. -/
  | tick (ns : ℕ)

namespace SupervisorsOuter

variable {ι O : Type} [DecidableEq ι]

/-- A step that concerns one modem. -/
def stepModem (w : ι → Worker) (s : SupervisorsWorld ι O) (i : ι) (v : Outer) :
    Option (SupervisorsWorld ι O) :=
  (v.step (w i).inboundQueueSize (s.modems i).world).map fun s' =>
    s.setModem i { s.modems i with world := s' }

/-- A step of the rest of the gateway. -/
def step (w : ι → Worker) (s : SupervisorsWorld ι O) :
    SupervisorsOuter ι → Option (SupervisorsWorld ι O)
  | .lookup i => stepModem w s i .lookup
  | .send i task => stepModem w s i (.send task)
  | .requestReset i => stepModem w s i .requestReset
  | .cancel => some (s.mapWorlds fun s => { s with ctxDone := true })
  | .tick ns => some (s.mapWorlds fun s => { s with clock := s.clock + ns })

end SupervisorsOuter

/-- The supervised modems of a gateway, next to the rest of it. -/
def supervisorsSystem {ι O C : Type} [DecidableEq ι] (h : Host) (w : ι → Worker)
    (outside : ι → C → O → (e : Call) → e.Ans → Option O) :
    System (ι × SupervisorThread) (SupervisorsWorld ι O) SupervisorCall SupervisorCall.Ans
      SupervisorLabel Unit C (SupervisorsOuter ι) where
  block t l := supervisorBlock h (w t.1) l
  exec t ch s e a := s.exec outside t ch e a
  env v s := v.step w s
  crash _ _ := none

/-- Where the goroutines start. -/
def supervisorsEntry {ι : Type} (t : ι × SupervisorThread) : SupervisorLabel := supervisorEntry t.2

end SmsGate.Modem
