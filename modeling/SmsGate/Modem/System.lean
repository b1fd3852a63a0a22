import SmsGate.Modem.Worker
import SmsGate.Prog.System

/-!
# A worker at work

The two goroutines of a worker, `Run` and its watchdog, over what they share: the worker's atomics
and channels, the clock, and whether the registry knows the worker.  What lies outside (the modem,
the buffer, the rate limiter) is a parameter: a state and the answers that it can give.

Beside the two goroutines there is the rest of the gateway.  `Registry.Dispatch` looks a worker up
and then sends to its channel, in two steps, so a task can be sent to a worker that has deregistered
in between.
-/

namespace SmsGate.Modem

open Tunnel

/-- The goroutines of a worker. -/
inductive Thread where
  | worker
  | watchdog
  deriving DecidableEq

/-- Whether the watchdog goroutine has been started, and whether its channel is closed. -/
inductive WatchdogState where
  | notStarted
  | running
  | closed
  deriving DecidableEq

/-- What had been dispatched, and what was still in `inboundCh`, at a point of a run. -/
structure Snapshot where
  dispatched : List InboundTask
  queue : List InboundTask
  deriving DecidableEq

/-- What the goroutines share. -/
structure World (O : Type) where
  outside : O
  state : State
  regStat : ℤ
  signalRSSI : ℤ
  /-- In nanoseconds. -/
  clock : ℤ
  lastLoop : ℤ
  inboundCh : List InboundTask
  resetCh : Bool
  ctxDone : Bool
  /-- The registry has the worker under its ICCID. -/
  registered : Bool
  /-- The calls of `Dispatch` that have looked the worker up and not sent yet. -/
  lookups : ℕ
  watchdog : WatchdogState
  connections : ℤ
  /-- What went through `eventFn`. -/
  events : List Event
  /-- The calls of the tasks' `AckFn`. -/
  acks : List (ℕ × TaskAckEvent)
  /-- Every task that was sent to `inboundCh`. -/
  dispatched : List InboundTask
  /-- The tasks when `Deregister` was called. -/
  atDeregister : Option Snapshot

namespace World

variable {O : Type}

/-- A worker as `NewWorker` makes it. -/
def new (o : O) : World O where
  outside := o
  state := .initializing
  regStat := 0
  signalRSSI := 0
  clock := 0
  lastLoop := 0
  inboundCh := []
  resetCh := false
  ctxDone := false
  registered := false
  lookups := 0
  watchdog := .notStarted
  connections := 0
  events := []
  acks := []
  dispatched := []
  atDeregister := none

/-- The world after a call is answered; `none` if it cannot be answered so. -/
def exec {C : Type} (outside : C → O → (e : Call) → e.Ans → Option O) (ch : C) (s : World O) :
    (e : Call) → e.Ans → Option (World O)
  | .event e, _ => some { s with events := s.events ++ [e] }
  | .ack ackFn a, _ => some { s with acks := s.acks ++ [(ackFn, a)] }
  | .loadState, (st : State) => if st = s.state then some s else none
  | .storeState st, _ => some { s with state := st }
  | .loadRegStat, (stat : ℤ) => if stat = s.regStat then some s else none
  | .storeRegStat stat, _ => some { s with regStat := stat }
  | .loadSignalRSSI, (rssi : ℤ) => if rssi = s.signalRSSI then some s else none
  | .storeSignalRSSI rssi, _ => some { s with signalRSSI := rssi }
  | .now, (ns : ℤ) => if ns = s.clock then some s else none
  | .select, (.ctxDone : Selected) => if s.ctxDone then some s else none
  | .select, (.reset : Selected) => if s.resetCh then some { s with resetCh := false } else none
  | .select, (.task it : Selected) =>
    match s.inboundCh with
    | it' :: rest => if it = it' then some { s with inboundCh := rest } else none
    | [] => none
  | .select, _ => some s
  | .tryRecv, (some it : Option InboundTask) =>
    match s.inboundCh with
    | it' :: rest => if it = it' then some { s with inboundCh := rest } else none
    | [] => none
  | .tryRecv, (none : Option InboundTask) => if s.inboundCh = [] then some s else none
  | .register _, _ => some { s with registered := true }
  | .deregister _, _ =>
    some { s with registered := false, atDeregister := some ⟨s.dispatched, s.inboundCh⟩ }
  | .incConnections, _ => some { s with connections := s.connections + 1 }
  | .decConnections, _ => some { s with connections := s.connections - 1 }
  | .loadLastLoop, (ns : ℤ) => if ns = s.lastLoop then some s else none
  | .storeLastLoop ns, _ => some { s with lastLoop := ns }
  | .startWatchdog, _ => some { s with watchdog := .running }
  | .closeWatchdog, _ => some { s with watchdog := .closed }
  | .watchdogTick, (tick : Bool) =>
    -- the ticker of a closed watchdog can still be chosen
    match s.watchdog, tick with
    | .running, true | .closed, _ => some s
    | _, _ => none
  | .panic, _ => none
  | .openPort, a => (outside ch s.outside .openPort a).map fun o => { s with outside := o }
  | .execute c, a => (outside ch s.outside (.execute c) a).map fun o => { s with outside := o }
  | .executeSend hex n, a =>
    (outside ch s.outside (.executeSend hex n) a).map fun o => { s with outside := o }
  | .insert m, a => (outside ch s.outside (.insert m) a).map fun o => { s with outside := o }
  | .allow iccid, a => (outside ch s.outside (.allow iccid) a).map fun o => { s with outside := o }
  | .newUUID, a => (outside ch s.outside .newUUID a).map fun o => { s with outside := o }
  | .sleep ms, a => (outside ch s.outside (.sleep ms) a).map fun o => { s with outside := o }
  | .registerLimiter iccid, a =>
    (outside ch s.outside (.registerLimiter iccid) a).map fun o => { s with outside := o }

end World

/-- What the rest of the gateway does. -/
inductive Outer where
  /-- `Dispatch` finds the worker in the registry. -/
  | lookup
  /-- `Dispatch` sends a task, or finds the channel full. -/
  | send (task : Task)
  | requestReset
  | cancel
  /-- Time passes, in nanoseconds. -/
  | tick (ns : ℕ)

/-- A step of the rest of the gateway. -/
def Outer.step {O : Type} (queueSize : ℕ) (s : World O) : Outer → Option (World O)
  | .lookup => if s.registered then some { s with lookups := s.lookups + 1 } else none
  | .send task =>
    if s.lookups = 0 then none
    else if s.inboundCh.length < queueSize then
      let it : InboundTask := { task, ackFn := s.dispatched.length }
      some
        { s with
          lookups := s.lookups - 1
          inboundCh := s.inboundCh ++ [it]
          dispatched := s.dispatched ++ [it] }
    else some { s with lookups := s.lookups - 1 }
  | .requestReset => some { s with resetCh := true }
  | .cancel => some { s with ctxDone := true }
  | .tick ns => some { s with clock := s.clock + ns }

/-- A worker with its watchdog, next to the rest of the gateway. -/
def workerSystem {O C : Type} (h : Host) (w : Worker)
    (outside : C → O → (e : Call) → e.Ans → Option O) :
    System Thread (World O) Call Call.Ans Label Exit C Outer where
  block _ l := block h w l
  exec _ ch s e a := s.exec outside ch e a
  env v s := v.step w.inboundQueueSize s
  crash _ _ := none

/-- Where the goroutines start. -/
def entry : Thread → Label
  | .worker => .init
  | .watchdog => .watchdog

end SmsGate.Modem
