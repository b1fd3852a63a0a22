import SmsGate.Modem.Equiv.Receive
import SmsGate.Modem.Supervisor
import SmsGate.Prog.Interpret
import SmsGate.Router.Dispatch

/-!
# The gateway as a whole (`internal/gateway/gateway.go`)

`Gateway.Run` starts the tunnel manager and one supervisor for every configured modem.  `New` has
wired them to each other: the workers insert into the buffer that the tunnel flushes, their events
and the `AckFn` of every task go to `Manager.Push`, and `handleInbound` hands a task to
`Router.Dispatch`, which finds a worker in the registry and sends to its channel.

The goroutines of the tunnel, of all supervisors and of all watchdogs run next to each other over
what they share.  `Dispatch` is a program of its own: between its lookup and its send anything can
happen.  A worker is known by its modem and the number of the supervisor's attempt that made it.

What lies outside: the cloud, which sends any messages; the modems, which give any answers; the
SIMs, in which messages arrive and from which only `AT+CMGD` takes them; the database, whose
statements can fail but are committed as a whole or not at all; the clock; the rate limiters, whose
answers are left open; and the operator, who stops the gateway or asks for resets.
-/

namespace SmsGate.Gateway

open Go Tunnel Modem

/-- A worker: the one that the supervisor of a modem has made for an attempt. -/
structure Address (ι : Type) where
  modem : ι
  attempt : ℕ
  deriving DecidableEq

/-- The goroutines of the tunnel and of the modems. -/
inductive Thread (ι : Type) where
  | tunnel (t : Tunnel.Thread)
  | modem (i : ι) (t : SupervisorThread)
  deriving DecidableEq

/-- What the goroutines do. -/
inductive Call (ι : Type) where
  | tunnel (c : Tunnel.Call)
  | modem (c : SupervisorCall)
  /-- `Registry.Dispatch` looks an ICCID up. -/
  | lookup (iccid : List UInt8)
  /-- `Registry.Dispatch` sends a task to the worker that it has found. -/
  | send (w : Address ι) (task : Task)

/-- What a call is answered by. -/
abbrev Call.Ans {ι : Type} : Call ι → Type
  | tunnel c => c.Ans
  | modem c => c.Ans
  | lookup _ => Option (Address ι)
  -- whether there was room
  | send _ _ => Bool

/-- The code of a goroutine. -/
abbrev Io (ι : Type) := Prog (Call ι) Call.Ans

/-- The program that makes one call. -/
def ask {ι : Type} (c : Call ι) : Io ι c.Ans := Prog.perform c

/-- Where a goroutine is. -/
inductive Label where
  | tunnel (l : Tunnel.Label)
  | modem (l : SupervisorLabel)

/-! ### The code -/

section

variable {ι : Type} (h : Router.Host)

/-- `Router.Dispatch` and `Registry.Dispatch`: the error, if there is one. -/
def dispatch (task : Task) : Io ι (Option (List UInt8)) :=
  match Router.extractICCID h task with
  | .error text => return some (DispatchError.modemNotFound.text ++ lit ": " ++ text)
  | .ok iccid => do
    let found : Option (Address ι) ← ask (.lookup iccid)
    match found with
    | none =>
      return some (ErrCode.modemNotFound.text ++ lit ": " ++ DispatchError.modemNotFound.text)
    | some w =>
      let sent : Bool ← ask (.send w task)
      if sent then return none
      else return some (ErrCode.modemBusy.text ++ lit ": " ++ DispatchError.modemBusy.text)

/-- A call of the tunnel; `InboundTaskFn` is `Router.Dispatch`. -/
def tunnelCall : (c : Tunnel.Call) → Io ι c.Ans
  | .route task => dispatch h task
  | c => ask (.tunnel c)

/-- A worker as `Run` configures it: all of them have the id of the gateway. -/
def wired (cfg : ManagerConfig) (w : Worker) : Worker := { w with gatewayID := cfg.gatewayID }

/-- The code of a goroutine at a label. -/
def block (cfg : ManagerConfig) (w : ι → Worker) (t : Thread ι) : Label → Io ι (Label ⊕ Unit)
  | .tunnel l => do
    let next ← (Tunnel.block cfg l).interpret (tunnelCall h)
    return next.map .tunnel id
  | .modem l =>
    match t with
    | .tunnel _ => return .inr ()
    | .modem i _ => do
      let next ← (supervisorBlock h.toModem (wired cfg (w i)) l).embed .modem fun _ a => a
      return next.map .modem id

end

/-! ### What they share -/

/-- The PDU in each slot of a SIM. -/
abbrev Sim := ℤ → Option (List UInt8)

/-- What a call leaves open beside its answer. -/
structure Chance where
  /-- The slots that a deletion has emptied, if it may. -/
  deleted : ℤ → Bool
  fault : Buffer.Fault
  /-- The clock of the database, in seconds. -/
  sec : ℤ
  /-- A time that the tunnel's calls on the database use, in milliseconds. -/
  ms : ℤ

/-- What a call of a worker does to its SIM. -/
def Sim.exec (ch : Chance) (sim : Sim) : (e : Modem.Call) → e.Ans → Option Sim
  -- a deletion may be done and still be answered by an error
  | .execute (.deleteSMS i), _ =>
    some (if ch.deleted i then Function.update sim i none else sim)
  | .execute .deleteAllSMS, _ => some fun i => if ch.deleted i then none else sim i
  | _, _ => some sim

/-- The state of a gateway. -/
structure World (ι : Type) where
  /-- With the buffer and the outbox. -/
  tunnel : Tunnel.World
  /-- The map of the registry. -/
  workers : List UInt8 → Option (Address ι)
  modems : ι → SupervisorWorld Sim

namespace World

variable {ι : Type} [DecidableEq ι]

/-- A gateway as `New` makes it, with messages on its SIMs and rows in its buffer. -/
def new (sims : ι → Sim) (table : Buffer.Table) : World ι where
  tunnel := .new table
  workers _ := none
  modems i := .new (sims i)

/-- The SIM of a modem. -/
def sim (s : World ι) (i : ι) : Sim := (s.modems i).world.outside

/-- The buffer. -/
def table (s : World ι) : Buffer.Table := s.tunnel.table

def setModem (s : World ι) (i : ι) (m : SupervisorWorld Sim) : World ι :=
  { s with modems := Function.update s.modems i m }

/-- The worker that is running, changed. -/
def setWorker (s : World ι) (i : ι) (m : Modem.World Sim) : World ι :=
  s.setModem i { s.modems i with world := m }

/-- `Manager.Push`. -/
def push (s : World ι) (m : Outbound) : World ι :=
  if s.tunnel.outbox.length < outboxCap then
    { s with tunnel := { s.tunnel with outbox := s.tunnel.outbox ++ [m] } }
  else s

/-- What a call of a supervisor or of its workers does to what they share with others. -/
def shared (ch : Chance) (i : ι) (s : World ι) : (c : SupervisorCall) → c.Ans → Option (World ι)
  | .work (.insert m), (a : Except Buffer.InsertErr (ℤ × Bool)) =>
    let res := Buffer.insert ch.fault ch.sec m s.table
    if a = res.1 then some { s with tunnel := { s.tunnel with table := res.2 } } else none
  | .work (.event e), _ => some (s.push (.event e))
  | .work (.ack _ ack), _ => some (s.push (.taskAck ack))
  | .work (.register iccid), _ =>
    some { s with workers := Function.update s.workers iccid (some ⟨i, (s.modems i).attempt⟩) }
  | .work (.deregister iccid), _ =>
    some { s with workers := Function.update s.workers iccid none }
  | _, _ => some s

/-- The lookup of `Dispatch` has found a worker, or nothing. -/
def found (s : World ι) : Option (Address ι) → World ι
  | some a =>
    -- an old worker that is still in the registry has no goroutine that reads its channel
    if a.attempt = (s.modems a.modem).attempt then
      s.setWorker a.modem
        { (s.modems a.modem).world with lookups := (s.modems a.modem).world.lookups + 1 }
    else s
  | none => s

/-- The `select` of `Dispatch`: whether there was room, and the gateway after it. -/
def send (w : ι → Worker) (s : World ι) (a : Address ι) (task : Task) (sent : Bool) :
    Option (World ι) :=
  if a.attempt = (s.modems a.modem).attempt then
    let m := (s.modems a.modem).world
    if sent = decide (m.inboundCh.length < (w a.modem).inboundQueueSize) then
      ((Modem.Outer.send task).step (w a.modem).inboundQueueSize m).map (s.setWorker a.modem)
    else none
  else some s

/-- The state after a call is answered; `none` if it cannot be answered so. -/
def exec (w : ι → Worker) (t : Thread ι) (ch : Chance) (s : World ι) :
    (c : Call ι) → c.Ans → Option (World ι)
  | .tunnel c, a =>
    match t with
    | .tunnel t => (s.tunnel.exec t ch.ms c a).map fun tunnel => { s with tunnel }
    | .modem _ _ => none
  | .modem c, a =>
    match t with
    | .tunnel _ => none
    | .modem i t =>
      ((s.modems i).exec Sim.exec t ch c a).bind fun m => (s.setModem i m).shared ch i c a
  | .lookup iccid, (a : Option (Address ι)) =>
    if a = s.workers iccid then some (s.found a) else none
  | .send a task, (sent : Bool) => s.send w a task sent

end World

/-- What happens outside of the gateway. -/
inductive Outer (ι : Type) where
  /-- A message arrives in an empty slot of a SIM. -/
  | arrive (i : ι) (slot : ℤ) (pdu : List UInt8)
  /-- `POST /modems/reset` for a modem that is registered. -/
  | requestReset (iccid : List UInt8)
  | cancel
  /-- Time passes, in nanoseconds. -/
  | tick (ns : ℕ)

section

variable {ι : Type} [DecidableEq ι]

/-- A step of what lies outside. -/
def Outer.step (s : World ι) : Outer ι → Option (World ι)
  | .arrive i slot pdu =>
    if s.sim i slot = none then
      some (s.setWorker i
        { (s.modems i).world with outside := Function.update (s.sim i) slot (some pdu) })
    else none
  | .requestReset iccid =>
    match s.workers iccid with
    | some a =>
      some (if a.attempt = (s.modems a.modem).attempt then
        s.setWorker a.modem { (s.modems a.modem).world with resetCh := true } else s)
    | none => none
  | .cancel =>
    some
      { s with
        tunnel := { s.tunnel with ctxDone := true }
        modems := fun i =>
          { s.modems i with world := { (s.modems i).world with ctxDone := true } } }
  | .tick ns =>
    some
      { s with
        tunnel := { s.tunnel with clock := s.tunnel.clock + ns }
        modems := fun i =>
          { s.modems i with
            world := { (s.modems i).world with clock := (s.modems i).world.clock + ns } } }

/-- The gateway. -/
def gatewaySystem (h : Router.Host) (cfg : ManagerConfig) (w : ι → Worker) :
    System (Thread ι) (World ι) (Call ι) Call.Ans Label Unit Chance (Outer ι) where
  block t l := block h cfg w t l
  exec t ch s c a := s.exec w t ch c a
  env v s := v.step s
  crash _ _ := none

end

/-- Where the goroutines start. -/
def entry {ι : Type} : Thread ι → Label
  | .tunnel t => .tunnel (Tunnel.entry t)
  | .modem _ t => .modem (supervisorEntry t)

end SmsGate.Gateway
