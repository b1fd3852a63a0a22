import SmsGate.Buffer.Table
import SmsGate.Prog.System
import SmsGate.Tunnel.Protocol

/-!
# The tunnel manager (`internal/tunnel/manager.go`)

`Run` dials, and each connection has a session: `HELLO`, then a writer, a reader, a flush of the
offline buffer, a periodic flush and a purge, each in a goroutine of its own.  The sessions are
numbered, and so are their connections.  `Run` waits for the writer and the reader only, so the
other goroutines of a session can still be running in the next one.

A call is what one goroutine does at a time: a method of the connection or of the buffer, an
operation on a channel, a section under `ackMu`.  A goroutine that is about to make a call, or is in
the middle of it, stands at this call.
-/

namespace SmsGate.Tunnel

open Go

/-- The parts of a `ManagerConfig` that the sessions read.  Times are in nanoseconds. -/
structure ManagerConfig where
  gatewayID : List UInt8
  agentVersion : List UInt8
  pingTimeout : ℤ
  ackTimeout : ℤ
  writeDeadline : ℤ
  startTime : ℤ

/-- The deadline of a write, with the default of `NewManager`. -/
def ManagerConfig.deadline (cfg : ManagerConfig) : ℤ :=
  if cfg.writeDeadline ≤ 0 then 30 * 1000000000 else cfg.writeDeadline

/-- The capacity of `outbox`. -/
def outboxCap : ℕ := 256

/-- `MaxPendingACKs`. -/
def maxPendingACKs : ℕ := 1000

/-- The goroutines of a session. -/
inductive Role where
  | writer
  | reader
  | flushOnConnect
  | periodicFlush
  | purge
  deriving DecidableEq

/-- The goroutines: `Run`, and those of each session. -/
inductive Thread where
  | run
  | session (n : ℕ) (role : Role)
  deriving DecidableEq

/-- What the writer writes for. -/
inductive WriterEvent where
  | outbox (m : Outbound)
  | ping
  | heartbeat

/-- What the writer's `select` has chosen. -/
inductive Selected where
  | ctxDone
  | event (e : WriterEvent)

/-- How the wait for an ACK ends. -/
inductive Waited where
  | acked
  | timeout
  | ctxDone

/-- A WebSocket message. -/
inductive Frame where
  | ping
  | text (m : Outbound)
  deriving DecidableEq

/-- What the goroutines do; `n` is the number of a session and of its connection. -/
inductive Call where
  /-- Whether the context of `Run` is done. -/
  | pollCtx
  | dial
  | backOff
  /-- Whether the context of the session is done. -/
  | pollSession (n : ℕ)
  | cancel (n : ℕ)
  /-- A goroutine is started, and it starts. -/
  | go (n : ℕ) (role : Role)
  | started (n : ℕ) (role : Role)
  | wgDone (n : ℕ)
  | wgWait (n : ℕ)
  /-- `json.Marshal` in `writeJSON`. -/
  | marshal (n : ℕ) (m : Outbound)
  /-- `time.Now()` in `writeJSON`. -/
  | writeTime (n : ℕ)
  | setWriteDeadline (n : ℕ) (deadline : ℤ)
  | writeMessage (n : ℕ) (f : Frame)
  | setReadDeadline (n : ℕ) (deadline : ℤ)
  | readMessage (n : ℕ)
  | closeConn (n : ℕ)
  /-- The writer's `select`. -/
  | select (n : ℕ)
  /-- The `select` on a ticker and the context. -/
  | tick (n : ℕ)
  /-- `flushMu`. -/
  | tryLock
  | unlock
  /-- A new ACK channel for a row, unless `pending` is full. -/
  | registerAck (id : ℤ)
  /-- `time.After`: the time from which the timer can be read. -/
  | timeAfter (d : ℤ)
  | awaitAck (n ch : ℕ) (timer : ℤ)
  | dropAck (id : ℤ)
  /-- The ACK channel of a row is taken out of `pending`. -/
  | takeAck (id : ℤ)
  | closeAck (ch : ℕ)
  /-- Every channel in `pending` is closed and taken out. -/
  | drainAcks
  | pendingRows
  | pendingCount
  | markDelivered (id : ℤ)
  | purge
  /-- `Push`. -/
  | push (m : Outbound)
  /-- `InboundTaskFn`. -/
  | route (t : Task)
  /-- `StatusFn`. -/
  | status
  | newUUID
  | now

/-- What a call is answered by. -/
abbrev Call.Ans : Call → Type
  | pollCtx | dial | pollSession _ | tick _ | tryLock => Bool
  -- whether there was no error
  | marshal _ _ | setWriteDeadline _ _ | writeMessage _ _ | setReadDeadline _ _ => Bool
  | markDelivered _ => Bool
  | writeTime _ | now | timeAfter _ => ℤ
  | readMessage _ => Option Inbound
  | select _ => Selected
  | registerAck _ | takeAck _ => Option ℕ
  | awaitAck _ _ _ => Waited
  | pendingRows => Option (List Buffer.SMSRecord)
  | pendingCount => Option ℕ
  -- the error, if there is one
  | route _ => Option (List UInt8)
  | status => List ModemStatus
  | newUUID => List UInt8
  | backOff | cancel _ | go _ _ | started _ _ | wgDone _ | wgWait _ | closeConn _ | unlock => Unit
  | dropAck _ | closeAck _ | drainAcks | purge | push _ => Unit

/-- The code of a goroutine. -/
abbrev Io := Prog Call Call.Ans

/-- The program that makes one call. -/
def ask (c : Call) : Io c.Ans := Prog.perform c

/-- Where a goroutine is: in the loop of `Run` with `n` sessions behind it, not started, or in the
loop of a goroutine of a session. -/
inductive Label where
  | run (n : ℕ)
  | start (n : ℕ) (role : Role)
  | loop (n : ℕ) (role : Role)

/-- `NewEnvelope`. -/
def newEnvelope (type : MsgType) : Io Envelope := do
  let messageID ← ask .newUUID
  let ns : ℤ ← ask .now
  return { type, messageID, ts := ns / 1000000 }

/-- `NewEnvelopeFrom`. -/
def newEnvelopeFrom (type : MsgType) (messageID : List UInt8) : Io Envelope := do
  let ns : ℤ ← ask .now
  return { type, messageID, ts := ns / 1000000 }

section

variable (cfg : ManagerConfig)

/-! ### Writing -/

/-- `writeJSON`: whether there was no error. -/
def writeJSON (n : ℕ) (m : Outbound) : Io Bool := do
  if !(← ask (.marshal n m)) then return false
  let ns : ℤ ← ask (.writeTime n)
  if !(← ask (.setWriteDeadline n (ns + cfg.deadline))) then return false
  ask (.writeMessage n (.text m))

/-- `sendHello`. -/
def sendHello (n : ℕ) : Io Bool := do
  let envelope ← newEnvelope .hello
  let modems ← ask .status
  writeJSON cfg n (.hello
    { envelope, modems, protocolVersion
      gatewayID := cfg.gatewayID
      agentVersion := cfg.agentVersion })

/-- `sendHeartbeat`. -/
def sendHeartbeat (n : ℕ) : Io Bool := do
  let pending : Option ℕ ← ask .pendingCount
  match pending with
  | none => return false
  | some pendingMsgs =>
    let envelope ← newEnvelope .heartbeat
    let ns : ℤ ← ask .now
    let modems ← ask .status
    writeJSON cfg n (.heartbeat
      { envelope, pendingMsgs, modems
        gatewayID := cfg.gatewayID
        uptimeS := (ns - cfg.startTime).tdiv 1000000000 })

/-- The ping of the writer. -/
def sendPing (n : ℕ) : Io Bool := do
  let ns : ℤ ← ask .now
  if !(← ask (.setReadDeadline n (ns + cfg.pingTimeout))) then return false
  ask (.writeMessage n .ping)

/-- What the writer does for an event: whether there was no error. -/
def writeEvent (n : ℕ) : WriterEvent → Io Bool
  | .outbox m => writeJSON cfg n m
  | .ping => sendPing cfg n
  | .heartbeat => sendHeartbeat cfg n

/-- One round of `writer`. -/
def writer (n : ℕ) : Io (Label ⊕ Unit) := do
  let selected : Selected ← ask (.select n)
  match selected with
  | .ctxDone =>
    ask (.wgDone n)
    return .inr ()
  | .event e =>
    if ← writeEvent cfg n e then return .inl (.loop n .writer)
    ask (.cancel n)
    ask (.wgDone n)
    return .inr ()

/-! ### Reading -/

/-- `AckDelivered`. -/
def ackDelivered (bufferID : ℤ) : Io Unit := do
  let found : Option ℕ ← ask (.takeAck bufferID)
  match found with
  | some ch => ask (.closeAck ch)
  | none => pure ()
  let _ ← ask (.markDelivered bufferID)

/-- `makeErrorAck`. -/
def makeErrorAck (taskID err : List UInt8) : Io TaskAckEvent := do
  let envelope ← newEnvelopeFrom .taskAck taskID
  let error : TaskError := { code := .modemNotFound, message := err }
  return { envelope, status := .failed, result := none, error := some error }

/-- `handleInbound`. -/
def handleInbound : Inbound → Io Unit
  | .smsDeliveredAck bufferID => ackDelivered bufferID
  | .task t => do
    let err : Option (List UInt8) ← ask (.route t)
    match err with
    | some err =>
      let ack ← makeErrorAck t.messageID err
      ask (.push (.taskAck ack))
    | none => return
  | .malformed | .unknown => pure ()

/-- One round of `reader`. -/
def reader (n : ℕ) : Io (Label ⊕ Unit) := do
  if ← ask (.pollSession n) then
    ask (.wgDone n)
    return .inr ()
  let msg : Option Inbound ← ask (.readMessage n)
  match msg with
  | some m =>
    handleInbound m
    return .inl (.loop n .reader)
  | none =>
    if !(← ask (.pollSession n)) then ask (.cancel n)
    ask (.wgDone n)
    return .inr ()

/-! ### Flushing -/

/-- The event of a row. -/
def rowEvent (envelope : Envelope) (row : Buffer.SMSRecord) : SMSReceivedEvent where
  envelope := envelope
  gatewayID := cfg.gatewayID
  iccid := row.message.iccid
  sender := row.message.sender
  body := row.message.body
  receivedAt := row.message.receivedAt
  smsc := row.message.smsc
  pduHash := row.message.pduHash
  bufferID := row.id

/-- The loop of `flushBuffer`. -/
def flushRows (n : ℕ) : List Buffer.SMSRecord → Io Unit
  | [] => pure ()
  | row :: rows => do
    if ← ask (.pollSession n) then return
    let envelope ← newEnvelope .smsReceived
    if !(← writeJSON cfg n (.event (.smsReceived (rowEvent cfg envelope row)))) then return
    let registered : Option ℕ ← ask (.registerAck row.id)
    match registered with
    | none => flushRows n rows
    | some ch =>
      let timer : ℤ ← ask (.timeAfter cfg.ackTimeout)
      let waited : Waited ← ask (.awaitAck n ch timer)
      match waited with
      | .acked => flushRows n rows
      | .timeout =>
        ask (.dropAck row.id)
        flushRows n rows
      | .ctxDone => return

/-- `flushBuffer`. -/
def flushBuffer (n : ℕ) : Io Unit := do
  if !(← ask .tryLock) then return
  let rows : Option (List Buffer.SMSRecord) ← ask .pendingRows
  match rows with
  | some rows => flushRows cfg n rows
  | none => pure ()
  ask .unlock

/-- One round of the periodic flush. -/
def periodicFlush (n : ℕ) : Io (Label ⊕ Unit) := do
  if ← ask (.tick n) then
    flushBuffer cfg n
    return .inl (.loop n .periodicFlush)
  return .inr ()

/-- One round of the purge. -/
def purge (n : ℕ) : Io (Label ⊕ Unit) := do
  if ← ask (.tick n) then
    ask .purge
    return .inl (.loop n .purge)
  return .inr ()

/-! ### Sessions -/

/-- `runSession`. -/
def runSession (n : ℕ) : Io Unit := do
  ask .purge
  if ← sendHello cfg n then
    ask (.go n .writer)
    ask (.go n .reader)
    ask (.go n .flushOnConnect)
    ask (.go n .periodicFlush)
    ask (.go n .purge)
    ask (.wgWait n)
    ask .drainAcks
    ask (.cancel n)
  ask (.closeConn n)

/-- One round of `Run`, with `n` sessions behind it. -/
def run (n : ℕ) : Io (Label ⊕ Unit) := do
  if ← ask .pollCtx then return .inr ()
  if ← ask .dial then
    runSession cfg n
    ask .backOff
    return .inl (.run (n + 1))
  ask .backOff
  return .inl (.run n)

/-- The code of a goroutine at a label. -/
def block : Label → Io (Label ⊕ Unit)
  | .run n => run cfg n
  | .start n role => do
    ask (.started n role)
    return .inl (.loop n role)
  | .loop n .writer => writer cfg n
  | .loop n .reader => reader n
  | .loop n .flushOnConnect => do
    flushBuffer cfg n
    return .inr ()
  | .loop n .periodicFlush => periodicFlush cfg n
  | .loop n .purge => purge n

end

/-! ### What they share -/

/-- The fields of a `Manager`, the connections and the buffer, with the history of some of it. -/
structure World where
  ctxDone : Bool
  /-- The sessions' own contexts. -/
  cancelled : ℕ → Bool
  /-- The goroutines that have been started. -/
  spawned : ℕ → Role → Bool
  /-- The calls of `wg.Done`. -/
  wgDone : ℕ → ℕ
  outbox : List Outbound
  flushMu : Bool
  /-- `pending`: the ACK channel of each row. -/
  pending : List (ℤ × ℕ)
  /-- The number of ACK channels made so far; they are named in order. -/
  made : ℕ
  /-- The ACK channels in the order in which they were closed. -/
  closedAcks : List ℕ
  closedConns : ℕ → Bool
  /-- The write deadline of each connection. -/
  writeDeadline : ℕ → Option ℤ
  table : Buffer.Table
  clock : ℤ
  /-- The frames that were written. -/
  written : List (ℕ × Frame)
  /-- The session's writer has taken an event and not written it yet. -/
  busy : ℕ → Bool
  /-- A flush of the session has found rows and not returned yet. -/
  rowsHeld : ℕ → Bool

namespace World

/-- A manager as `NewManager` makes it. -/
def new (table : Buffer.Table) : World where
  ctxDone := false
  cancelled _ := false
  spawned _ _ := false
  wgDone _ := 0
  outbox := []
  flushMu := false
  pending := []
  made := 0
  closedAcks := []
  closedConns _ := false
  writeDeadline _ := none
  table := table
  clock := 0
  written := []
  busy _ := false
  rowsHeld _ := false

/-- The context of a session is done. -/
def sessionDone (s : World) (n : ℕ) : Bool := s.ctxDone || s.cancelled n

/-- The cases of the wait for an ACK that are ready.  The `select` chooses one of them at random,
when it starts if there is one, and else as soon as there is. -/
def ready (s : World) (n ch : ℕ) (timer : ℤ) : Waited → Bool
  | .acked => ch ∈ s.closedAcks
  | .timeout => timer ≤ s.clock
  | .ctxDone => s.sessionDone n

/-- A channel for a row, in place of one that it may have. -/
def setPending (s : World) (id : ℤ) (ch : ℕ) : List (ℤ × ℕ) :=
  (id, ch) :: s.pending.filter (·.1 ≠ id)

/-- The channel of a row. -/
def lookupPending (s : World) (id : ℤ) : Option ℕ :=
  (s.pending.find? (·.1 = id)).map Prod.snd

/-- The history of a writer that has done with an event. -/
def settle (t : Thread) (s : World) : World :=
  match t with
  | .session n .writer => { s with busy := Function.update s.busy n false }
  | _ => s

/-- The history of a writer that has taken an event. -/
def take (t : Thread) (s : World) : World :=
  match t with
  | .session n .writer => { s with busy := Function.update s.busy n true }
  | _ => s

/-- The history of a flush that has found rows, or has returned. -/
def hold (t : Thread) (held : Bool) (s : World) : World :=
  match t with
  | .session n _ => { s with rowsHeld := Function.update s.rowsHeld n held }
  | .run => s

/-- What a call does when it is answered by `a`; `none` if it cannot be answered so.  The
milliseconds are a time that the database uses: a cutoff, or `delivered_at`. -/
def exec (t : Thread) (ms : ℤ) (s : World) : (c : Call) → c.Ans → Option World
  | .pollCtx, (b : Bool) => if b = s.ctxDone then some s else none
  | .pollSession n, (b : Bool) => if b = s.sessionDone n then some s else none
  | .cancel n, _ => some (settle t { s with cancelled := Function.update s.cancelled n true })
  | .go n role, _ =>
    some { s with spawned := Function.update s.spawned n (Function.update (s.spawned n) role true) }
  | .started n role, _ => if s.spawned n role then some s else none
  | .wgDone n, _ => some { s with wgDone := Function.update s.wgDone n (s.wgDone n + 1) }
  | .wgWait n, _ => if s.wgDone n = 2 then some s else none
  | .setWriteDeadline n deadline, (ok : Bool) =>
    if ok then some { s with writeDeadline := Function.update s.writeDeadline n (some deadline) }
    else some s
  | .writeTime _, (ns : ℤ) => if ns = s.clock then some s else none
  | .now, (ns : ℤ) => if ns = s.clock then some s else none
  | .writeMessage n f, (ok : Bool) =>
    some (settle t (if ok then { s with written := s.written ++ [(n, f)] } else s))
  | .closeConn n, _ => some { s with closedConns := Function.update s.closedConns n true }
  | .select n, (.ctxDone : Selected) => if s.sessionDone n then some s else none
  | .select _, (.event (.outbox m) : Selected) =>
    match s.outbox with
    | m' :: rest => if m = m' then some (take t { s with outbox := rest }) else none
    | [] => none
  | .select _, (.event _ : Selected) => some (take t s)
  | .tick n, (b : Bool) => if b || s.sessionDone n then some s else none
  | .tryLock, (ok : Bool) => if ok = !s.flushMu then some { s with flushMu := true } else none
  | .unlock, _ => some (hold t false { s with flushMu := false })
  | .registerAck id, (ch : Option ℕ) =>
    if maxPendingACKs ≤ s.pending.length then if ch = none then some s else none
    else if ch = some s.made then
      some { s with pending := s.setPending id s.made, made := s.made + 1 }
    else none
  | .timeAfter d, (timer : ℤ) => if timer = s.clock + d then some s else none
  | .awaitAck n ch timer, (waited : Waited) =>
    if s.ready n ch timer waited then some s else none
  | .dropAck id, _ => some { s with pending := s.pending.filter (·.1 ≠ id) }
  | .takeAck id, (ch : Option ℕ) =>
    if ch = s.lookupPending id then some { s with pending := s.pending.filter (·.1 ≠ id) }
    else none
  | .closeAck ch, _ => some { s with closedAcks := s.closedAcks ++ [ch] }
  | .drainAcks, _ =>
    some { s with closedAcks := s.closedAcks ++ s.pending.map Prod.snd, pending := [] }
  | .pendingRows, (some rows : Option (List Buffer.SMSRecord)) =>
    if rows = Buffer.pendingRows s.table then some (if rows = [] then s else hold t true s)
    else none
  | .pendingCount, (some count : Option ℕ) =>
    if count = Buffer.pendingCount s.table then some s else none
  | .markDelivered id, (ok : Bool) =>
    some (if ok then { s with table := Buffer.markDelivered ms id s.table } else s)
  | .purge, _ => some { s with table := (Buffer.purge ms s.table).2 }
  | .push m, _ =>
    some (if s.outbox.length < outboxCap then { s with outbox := s.outbox ++ [m] } else s)
  | _, _ => some s

end World

/-- What the rest of the gateway does. -/
inductive Outer where
  /-- A worker or the router pushes an event. -/
  | push (m : Outbound)
  /-- A worker inserts a message. -/
  | insert (fault : Buffer.Fault) (sec : ℤ) (m : Buffer.Message)
  | cancel
  /-- Time passes, in nanoseconds. -/
  | pass (ns : ℕ)

/-- A step of the rest of the gateway. -/
def Outer.step (s : World) : Outer → Option World
  | .push m =>
    some (if s.outbox.length < outboxCap then { s with outbox := s.outbox ++ [m] } else s)
  | .insert fault sec m => some { s with table := (Buffer.insert fault sec m s.table).2 }
  | .cancel => some { s with ctxDone := true }
  | .pass ns => some { s with clock := s.clock + ns }

/-- `Run` with its sessions, next to the rest of the gateway. -/
def managerSystem (cfg : ManagerConfig) :
    System Thread World Call Call.Ans Label Unit ℤ Outer where
  block _ l := block cfg l
  exec t ms s c a := s.exec t ms c a
  env v s := v.step s
  crash _ _ := none

/-- Where the goroutines start. -/
def entry : Thread → Label
  | .run => .run 0
  | .session n role => .start n role

end SmsGate.Tunnel
