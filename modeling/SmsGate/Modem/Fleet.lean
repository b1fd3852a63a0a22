import SmsGate.Modem.Registry
import SmsGate.Modem.System

/-!
# Several workers over one registry

The workers of a gateway, each with its `Run` and its watchdog, share the registry, the clock and
the context.  They are numbered, and the number of a worker stands for its address in the registry's
map.  A modem that is started again gets a new worker, which is one that has not made a step yet.

`World.registered` of a worker says here that it has called `Register` and not yet `Deregister`;
what the registry has is in its map.
-/

namespace SmsGate.Modem

open Tunnel

/-- The registry after a call of worker `i`. -/
def Workers.after (m : Workers) (i : ℕ) : Call → Workers
  | .register iccid => m.register iccid i
  | .deregister iccid => m.deregister iccid
  | _ => m

/-- What the workers share, and what belongs to each of them. -/
structure FleetWorld (O : Type) where
  workers : Workers
  worlds : ℕ → World O

namespace FleetWorld

variable {O C : Type}

/-- New workers and an empty registry. -/
def new (o : ℕ → O) : FleetWorld O where
  workers := .new
  worlds i := World.new (o i)

/-- A worker's own part, changed. -/
def setWorld (s : FleetWorld O) (i : ℕ) (s' : World O) : FleetWorld O :=
  { s with worlds := Function.update s.worlds i s' }

/-- A call of worker `i`. -/
def exec (outside : ℕ → C → O → (e : Call) → e.Ans → Option O) (i : ℕ) (ch : C) (s : FleetWorld O)
    (e : Call) (a : e.Ans) : Option (FleetWorld O) :=
  ((s.worlds i).exec (outside i) ch e a).map fun s' =>
    { s.setWorld i s' with workers := s.workers.after i e }

end FleetWorld

/-- What the rest of the gateway does. -/
inductive FleetOuter where
  /-- `Dispatch` looks an ICCID up. -/
  | lookup (iccid : List UInt8)
  /-- `Dispatch`, which has found worker `i`, sends a task or finds the channel full. -/
  | send (i : ℕ) (task : Task)
  | requestReset (i : ℕ)
  | cancel
  /-- Time passes, in nanoseconds. -/
  | tick (ns : ℕ)

/-- A step of the rest of the gateway. -/
def FleetOuter.step {O : Type} (w : ℕ → Worker) (s : FleetWorld O) :
    FleetOuter → Option (FleetWorld O)
  | .lookup iccid =>
    match s.workers.lookup iccid with
    | some i => some (s.setWorld i { s.worlds i with lookups := (s.worlds i).lookups + 1 })
    | none => some s
  | .send i task =>
    ((Outer.send task).step (w i).inboundQueueSize (s.worlds i)).map fun s' => s.setWorld i s'
  | .requestReset i => some (s.setWorld i { s.worlds i with resetCh := true })
  | .cancel => some { s with worlds := fun i => { s.worlds i with ctxDone := true } }
  | .tick ns =>
    some { s with worlds := fun i => { s.worlds i with clock := (s.worlds i).clock + ns } }

/-- The workers of a gateway.  What lies outside of them gives each its own answers. -/
def fleetSystem {O C : Type} (h : Host) (w : ℕ → Worker)
    (outside : ℕ → C → O → (e : Call) → e.Ans → Option O) :
    System (ℕ × Thread) (FleetWorld O) Call Call.Ans Label Exit C FleetOuter where
  block t l := block h (w t.1) l
  exec t ch s e a := s.exec outside t.1 ch e a
  env v s := v.step w s
  crash _ _ := none

/-- Where the goroutines start. -/
def fleetEntry (t : ℕ × Thread) : Label := entry t.2

end SmsGate.Modem
