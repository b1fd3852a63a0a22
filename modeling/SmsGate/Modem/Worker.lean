import SmsGate.At.Commands
import SmsGate.At.Pdu
import SmsGate.Buffer.Table
import SmsGate.Prog.Basic
import SmsGate.Tunnel.Protocol

/-!
# The modem worker (`internal/modem/worker.go`)

The methods of `Worker` as programs.  A `Call` is what a method asks of something outside its own
local variables: the serializer, the buffer, the callbacks, the atomics it shares with other
goroutines, its channels and the clock.  What the calls do is not said here.

`Run` is cut into blocks where its loops are: `init`, one iteration of the main loop, and one
iteration of `drainInboundCh`.  The watchdog goroutine is a loop of its own.

Left out are logging, the counters that only feed metrics or the heartbeat (`sent1H`, `recv1H`,
`lastActivityNs`) and the metrics themselves, except for the gauge `ActiveConnections`.
-/

namespace SmsGate.Modem

open Go Go.Strings Go.Strconv Tunnel

/-- `State`. -/
inductive State where
  | initializing
  | active
  | executing
  | recovering
  | resetting
  | banned
  | failed
  deriving DecidableEq

/-- `InboundTask`.  The router makes a closure of its own for every task it dispatches; `ackFn` is
its identity. -/
structure InboundTask where
  task : Task
  ackFn : ℕ
  deriving DecidableEq

/-- What is read from the SIM in `runInitSequence`. -/
structure Identity where
  iccid : List UInt8
  imsi : List UInt8
  operator : List UInt8
  deriving DecidableEq

/-- The fields of `Worker` that are set on construction. -/
structure Worker where
  gatewayID : List UInt8
  /-- Empty if any SIM will do. -/
  expectedICCID : List UInt8
  simCapacityWarnPct : ℤ
  simCapacityPurgePct : ℤ
  /-- The capacity of `inboundCh`. -/
  inboundQueueSize : ℕ
  /-- In nanoseconds. -/
  stallDuration : ℤ
  deriving DecidableEq

/-- What the worker takes from its host: SHA-256 and the case table, `encoding/json`, and the texts
of library errors. -/
structure Host extends At.Host where
  texts : At.Texts
  unmarshalSendSMS : List UInt8 → Except (List UInt8) SendSMSPayload
  unmarshalRebootModem : List UInt8 → Except (List UInt8) RebootModemPayload
  marshalSendSMSResult : SendSMSResult → Except (List UInt8) (List UInt8)
  marshalCheckSignalResult : CheckSignalResult → Except (List UInt8) (List UInt8)

/-- The case that the `select` of the main loop takes. -/
inductive Selected where
  | ctxDone
  | urc (line : At.Line)
  | task (it : InboundTask)
  | keepalive
  | capacity
  | signal
  | reset
  deriving DecidableEq

/-- The calls of the worker's goroutines. -/
inductive Call where
  | openPort
  /-- `Serializer.Execute`. -/
  | execute (c : At.Cmd)
  /-- `Serializer.ExecuteSend`. -/
  | executeSend (pduHex : List UInt8) (pduLen : ℕ)
  /-- `Buffer.Insert`. -/
  | insert (m : Buffer.Message)
  /-- `RateLimiterRegistry.Allow`. -/
  | allow (iccid : List UInt8)
  /-- `eventFn`. -/
  | event (e : Event)
  /-- A task's `AckFn`. -/
  | ack (ackFn : ℕ) (a : TaskAckEvent)
  | loadState
  | storeState (s : State)
  | loadRegStat
  | storeRegStat (stat : ℤ)
  | loadSignalRSSI
  | storeSignalRSSI (rssi : ℤ)
  /-- `time.Now().UnixNano()`. -/
  | now
  /-- `uuid.New()`. -/
  | newUUID
  /-- `time.Sleep`, in milliseconds. -/
  | sleep (ms : ℕ)
  /-- The `select` of the main loop. -/
  | select
  /-- The `select` of `drainInboundCh`; `none` is its `default`. -/
  | tryRecv
  /-- `Registry.Register` and `RateLimiterRegistry.Register`. -/
  | register (iccid : List UInt8)
  | registerLimiter (iccid : List UInt8)
  | deregister (iccid : List UInt8)
  /-- `ActiveConnections`. -/
  | incConnections
  | decConnections
  | loadLastLoop
  | storeLastLoop (ns : ℤ)
  | startWatchdog
  | closeWatchdog
  /-- The `select` of the watchdog; `true` is its ticker. -/
  | watchdogTick
  /-- A run-time panic. -/
  | panic
  deriving DecidableEq

/-- What a call is answered by. -/
def Call.Ans : Call → Type
  | openPort => Bool
  | execute _ => Except At.Err (List At.Line)
  | executeSend _ _ => Except At.Err ℤ
  | insert _ => Except Buffer.InsertErr (ℤ × Bool)
  | allow _ => Bool
  | loadState => State
  | loadRegStat => ℤ
  | loadSignalRSSI => ℤ
  | now => ℤ
  | newUUID => List UInt8
  | select => Selected
  | tryRecv => Option InboundTask
  | loadLastLoop => ℤ
  | watchdogTick => Bool
  | _ => Unit

/-- The programs of the worker. -/
abbrev Work := Prog Call Call.Ans

/-- The program that makes one call. -/
def ask (c : Call) : Work c.Ans := Prog.perform c

/-- `Serializer.Execute` as a call. -/
def execute (c : At.Cmd) : Work (Except At.Err (List At.Line)) := ask (.execute c)

/-- The value of `int32(v)`. -/
def wrap32 (v : ℤ) : ℤ := (v + 2 ^ 31) % 2 ^ 32 - 2 ^ 31

/-- `NewEnvelope`. -/
def newEnvelope (type : MsgType) : Work Envelope := do
  let messageID ← ask .newUUID
  let ns : ℤ ← ask .now
  return { type, messageID, ts := ns / 1000000 }

/-- `NewEnvelopeFrom`. -/
def newEnvelopeFrom (type : MsgType) (messageID : List UInt8) : Work Envelope := do
  let ns : ℤ ← ask .now
  return { type, messageID, ts := ns / 1000000 }

/-- A `MODEM_ALERT` through `eventFn`. -/
def pushAlert (iccid : List UInt8) (alertCode : AlertCode) (detail : List UInt8) : Work Unit := do
  let envelope ← newEnvelope .modemAlert
  ask (.event (.modemAlert { envelope, iccid, alertCode, detail }))

/-! ### `runInitSequence` -/

/-- The steps that can fail the init sequence. -/
inductive InitErr where
  | ping (e : At.Err)
  | disableEcho (e : At.Err)
  | pduMode (e : At.Err)
  | enableCMTIURCs (e : At.Err)
  | readICCID (e : At.Err)
  | mismatch (expected got : List UInt8)
  deriving DecidableEq

section Init

variable {m : Type → Type} [Monad m] (exec : At.Cmd → m (Except At.Err (List At.Line)))
  (sleep : ℕ → m Unit)

/-- `retryN` and `retryNVal`: up to `n` attempts, with a pause after each one that failed.  `err`
is what the last one failed with. -/
def retryN {α : Type} (fn : m (Except At.Err α)) : ℕ → At.Err → m (Except At.Err α)
  | 0, err => return .error err
  | n + 1, _ => do
    match ← fn with
    | .ok a => return .ok a
    | .error e => do
      sleep 500
      retryN fn n e

/-- `runInitSequence`.  The capabilities, the IMSI and the operator may fail to be read. -/
def runInitSequence (t : CaseTable) (expectedICCID : List UInt8) :
    m (Except InitErr Identity) := do
  match ← retryN sleep (At.outcome exec .ping) 3 .closed with
  | .error e => return .error (.ping e)
  | .ok _ =>
  match ← At.outcome exec .disableEcho with
  | .error e => return .error (.disableEcho e)
  | .ok _ =>
  match ← At.outcome exec .setPDUMode with
  | .error e => return .error (.pduMode e)
  | .ok _ =>
  match ← At.outcome exec .enableCMTIURCs with
  | .error e => return .error (.enableCMTIURCs e)
  | .ok _ =>
  let _ ← At.query exec .readCapabilities At.capabilitiesOf
  match ← retryN sleep (At.readICCID exec t) 3 .closed with
  | .error e => return .error (.readICCID e)
  | .ok iccid =>
  if expectedICCID ≠ [] ∧ iccid ≠ expectedICCID then
    return .error (.mismatch expectedICCID iccid)
  else
    let imsi ← At.query exec .readIMSI At.imsiOf
    let operator ← At.query exec .readOperator fun lines => .ok (At.operatorOf lines)
    return .ok
      { iccid, imsi := imsi.toOption.getD [], operator := operator.toOption.getD [] }

end Init

section Methods

variable (h : Host) (w : Worker) (id : Identity)

/-! ### State transitions -/

/-- `enterBanned`. -/
def enterBanned (detail : List UInt8) : Work Unit := do
  ask (.storeState .banned)
  pushAlert id.iccid .simBanned detail

/-- `enterReset`. -/
def enterReset : Work Unit := do
  ask (.storeState .resetting)
  match ← At.outcome execute .hardReset with
  | .error _ =>
    ask (.storeState .failed)
    pushAlert id.iccid .modemHang (lit "hard reset failed")
  | .ok _ =>
    ask (.sleep 5000)
    ask (.storeState .initializing)

/-- `enterRecovery`. -/
def enterRecovery : Work Unit := do
  ask (.storeState .recovering)
  match ← At.outcome execute .radioOff with
  | .error _ => enterReset id
  | .ok _ =>
    ask (.sleep 2000)
    match ← At.outcome execute .radioOn with
    | .error _ => enterReset id
    | .ok _ =>
      ask (.sleep 5000)
      match ← At.outcome execute .ping with
      | .error _ => enterReset id
      | .ok _ =>
        -- the outcome of `SetPDUMode` is logged only
        let _ ← At.outcome execute .setPDUMode
        ask (.storeState .active)

/-! ### Receiving -/

/-- `receiveSMS`. -/
def receiveSMS (index : ℤ) : Work Unit := do
  match ← At.readSMS execute index with
  | .error _ => pure ()
  | .ok pduHex =>
    match At.decodePDU h.toHost pduHex with
    | .panic => ask .panic
    | .err _ =>
      let _ ← At.outcome execute (.deleteSMS index)
      pure ()
    | .ok decoded =>
      let receivedAt := decoded.timestamp.unixMilli
      let inserted : Except Buffer.InsertErr (ℤ × Bool) ← ask (.insert
        { iccid := id.iccid, sender := decoded.sender, body := decoded.body
          pduHash := decoded.pduHash, smsc := decoded.smsc, receivedAt })
      match inserted with
      | .error _ => pure ()
      | .ok (bufferID, isDuplicate) =>
        let _ ← At.outcome execute (.deleteSMS index)
        if isDuplicate then pure ()
        else do
          let envelope ← newEnvelope .smsReceived
          ask (.event (.smsReceived
            { envelope, gatewayID := w.gatewayID, iccid := id.iccid, sender := decoded.sender
              body := decoded.body, receivedAt, smsc := decoded.smsc
              pduHash := decoded.pduHash, bufferID }))

/-- `handleURC`. -/
def handleURC (urc : At.Line) : Work Unit :=
  if hasPrefix urc (lit "+CMTI:") then
    match At.parseCMTI urc with
    | .error _ => pure ()
    | .ok idx => receiveSMS h w id idx
  else if 6 < urc.length ∧ hasPrefix urc (lit "+CREG:") then do
    let stat := At.parseCREG urc
    ask (.storeRegStat (wrap32 stat))
    if stat = 3 then enterBanned id urc else pure ()
  else pure ()

/-! ### Tasks -/

/-- The parts of a message, sent one by one; `total` is their number and `i` that of the parts
sent. -/
def sendParts (total : ℕ) : (i : ℕ) → List At.EncodedPDU → Work (Except TaskError Unit)
  | _, [] => return .ok ()
  | i, part :: parts => do
    let sent : Except At.Err ℤ ← ask (.executeSend part.hexStr part.length)
    match sent with
    | .error e =>
      return .error
        { code := .sendFailed
          message := lit "part " ++ decimal (i + 1 : ℕ) ++ lit "/" ++ decimal total ++ lit ": " ++
            e.message h.texts }
    | .ok _ => sendParts total (i + 1) parts

/-- `maxSMSBody` of `doSendSMS`. -/
def maxSMSBody : ℕ := 10000

/-- The checks of `doSendSMS` on its payload. -/
def checkSendSMS (p : SendSMSPayload) : Except TaskError Unit :=
  if p.iccid = [] ∨ p.dest = [] ∨ p.body = [] then
    .error { code := .invalidPayload, message := lit "iccid, to, and body are required" }
  else if ¬ validE164 p.dest then
    .error
      { code := .invalidPayload
        message := lit "invalid E.164 phone number: " ++ h.texts.quote p.dest }
  else if maxSMSBody < p.body.length then
    .error
      { code := .invalidPayload
        message := lit "body too long: " ++ decimal p.body.length ++ lit " chars (max " ++
          decimal maxSMSBody ++ lit ")" }
  else .ok ()

/-- `doSendSMS`. -/
def doSendSMS (task : Task) : Work (Except TaskError (Option (List UInt8))) := do
  match h.unmarshalSendSMS task.payload with
  | .error text => return .error { code := .invalidPayload, message := text }
  | .ok p =>
  match checkSendSMS h p with
  | .error e => return .error e
  | .ok _ =>
  let allowed : Bool ← ask (.allow id.iccid)
  if ¬ allowed then
    return .error { code := .rateLimited, message := lit "per-SIM rate limit exceeded" }
  else
  match At.encodePDU p.dest p.body p.encoding with
  | .error (.unsupported encoding) =>
    return .error
      { code := .sendFailed, message := lit "unsupported encoding " ++ h.texts.quote encoding }
  | .ok parts =>
  match ← sendParts h parts.length 0 parts with
  | .error e => return .error e
  | .ok _ =>
  let rssi ← ask .loadSignalRSSI
  let stat ← ask .loadRegStat
  match h.marshalSendSMSResult
    { parts := parts.length, signalCSQ := rssi, regStatus := regStatusString stat } with
  | .error text =>
    return .error { code := .sendFailed, message := lit "marshal send result: " ++ text }
  | .ok json => return .ok (some json)

/-- The error of a task whose command failed. -/
def unresponsive (e : At.Err) : TaskError where
  code := .modemUnresponsive
  message := e.message h.texts

/-- `doRebootModem`. -/
def doRebootModem (task : Task) : Work (Except TaskError (Option (List UInt8))) := do
  match h.unmarshalRebootModem task.payload with
  | .error text => return .error { code := .invalidPayload, message := text }
  | .ok p =>
  if p.hard then
    match ← At.outcome execute .hardReset with
    | .error e => return .error (unresponsive h e)
    | .ok _ => return .ok none
  else
    match ← At.outcome execute .radioOff with
    | .error e => return .error (unresponsive h e)
    | .ok _ =>
    ask (.sleep 2000)
    match ← At.outcome execute .radioOn with
    | .error e => return .error (unresponsive h e)
    | .ok _ => return .ok none

/-- `doCheckSignal`. -/
def doCheckSignal : Work (Except TaskError (Option (List UInt8))) := do
  match ← At.signalQuality execute with
  | .error e => return .error (unresponsive h e)
  | .ok rssi =>
  match ← At.registrationStatus execute with
  | .error e => return .error (unresponsive h e)
  | .ok stat =>
  ask (.storeSignalRSSI (wrap32 rssi))
  ask (.storeRegStat (wrap32 stat))
  match h.marshalCheckSignalResult { rssi, regStatus := regStatusString stat } with
  | .error text =>
    return .error { code := .sendFailed, message := lit "marshal signal result: " ++ text }
  | .ok json => return .ok (some json)

/-- `doDeleteAllSMS`. -/
def doDeleteAllSMS : Work (Except TaskError (Option (List UInt8))) := do
  match ← At.outcome execute .deleteAllSMS with
  | .error e => return .error { code := .sendFailed, message := e.message h.texts }
  | .ok _ => return .ok none

/-- What the action of a task does. -/
def doTask (task : Task) : Work (Except TaskError (Option (List UInt8))) :=
  match task.action with
  | .sendSMS => doSendSMS h id task
  | .rebootModem => doRebootModem h task
  | .checkSignal => doCheckSignal h
  | .deleteAllSMS => doDeleteAllSMS h
  | .other name =>
    return .error
      { code := .unsupportedAction, message := lit "unknown action: " ++ h.texts.quote name }

/-- The `TASK_ACK` for what a task ended in. -/
def taskAck (envelope : Envelope) : Except TaskError (Option (List UInt8)) → TaskAckEvent
  | .ok result => { envelope, status := .success, result, error := none }
  | .error e => { envelope, status := .failed, result := none, error := some e }

/-- `executeTask`.  The state that was found is stored again when the method returns. -/
def executeTask (it : InboundTask) : Work Unit := do
  let prev ← ask .loadState
  ask (.storeState .executing)
  let res ← doTask h id it.task
  let envelope ← newEnvelopeFrom .taskAck it.task.messageID
  ask (.ack it.ackFn (taskAck envelope res))
  ask (.storeState prev)

/-! ### Tickers -/

/-- `pollSignalStrength`. -/
def pollSignalStrength : Work Unit := do
  match ← At.signalQuality execute with
  | .error _ => pure ()
  | .ok rssi => ask (.storeSignalRSSI (wrap32 rssi))

/-- `runKeepalive`. -/
def runKeepalive : Work Unit := do
  match ← At.registrationStatus execute with
  | .error _ => enterRecovery id
  | .ok stat =>
    ask (.storeRegStat (wrap32 stat))
    match ← At.signalQuality execute with
    | .error _ => pure ()
    | .ok rssi => ask (.storeSignalRSSI (wrap32 rssi))
    if stat = 3 then
      enterBanned id (lit "+CREG: " ++ decimal stat ++ lit " (Registration denied)")
    else pure ()

/-- The detail of a `SIM_FULL` alert. -/
def capacityDetail (pct used total : ℤ) : List UInt8 :=
  lit "SIM at " ++ decimal pct ++ lit "% capacity (" ++ decimal used ++ lit "/" ++ decimal total ++
    lit ")"

/-- `checkCapacity`. -/
def checkCapacity : Work Unit := do
  match ← At.storageStatus execute with
  | .error _ => pure ()
  | .ok (used, total) =>
    if total = 0 then pure ()
    else
      let pct := wrap64 ((wrap64 (used * 100)).tdiv total)
      if w.simCapacityPurgePct ≤ pct then do
        pushAlert id.iccid .simFull (capacityDetail pct used total ++ lit ", purging")
        let _ ← At.outcome execute .deleteAllSMS
        pure ()
      else if w.simCapacityWarnPct ≤ pct then
        pushAlert id.iccid .simFull (capacityDetail pct used total)
      else pure ()

/-! ### `Run` -/

/-- The blocks of the two goroutines. -/
inductive Label where
  | init
  | main (id : Identity)
  | drain
  | watchdog
  deriving DecidableEq

/-- What a goroutine ends in: the final state of `Run`, or nothing. -/
inductive Exit where
  | run (s : State)
  | watchdog
  deriving DecidableEq

/-- `Run` up to its main loop. -/
def init : Work (Label ⊕ Exit) := do
  let opened : Bool ← ask .openPort
  if ¬ opened then
    ask (.storeState .failed)
    return .inr (.run .failed)
  else
    match ← runInitSequence execute (fun ms => ask (.sleep ms)) h.caseTable
      w.expectedICCID with
    | .error _ =>
      ask (.storeState .failed)
      return .inr (.run .failed)
    | .ok id =>
      ask (.register id.iccid)
      ask (.registerLimiter id.iccid)
      ask (.storeState .active)
      ask .incConnections
      let ns ← ask .now
      ask (.storeLastLoop ns)
      ask .startWatchdog
      return .inl (.main id)

/-- The handler of a case of the main loop's `select`; `ctxDone` is not handled here. -/
def handle : Selected → Work Unit
  | .ctxDone => pure ()
  | .urc line => handleURC h w id line
  | .task it => executeTask h id it
  | .keepalive => runKeepalive id
  | .capacity => checkCapacity w id
  | .signal => pollSignalStrength
  | .reset => enterReset id

/-- One iteration of the main loop. -/
def mainLoop : Work (Label ⊕ Exit) := do
  let selected : Selected ← ask .select
  if selected = .ctxDone then
    ask (.deregister id.iccid)
    return .inl .drain
  else
    handle h w id selected
    let ns ← ask .now
    ask (.storeLastLoop ns)
    let st : State ← ask .loadState
    if st = .failed ∨ st = .banned then
      ask (.deregister id.iccid)
      ask .closeWatchdog
      return .inr (.run st)
    else return .inl (.main id)

/-- The `TASK_ACK` of a task that is drained. -/
def shutdownError : TaskError where
  code := .modemUnresponsive
  message := lit "gateway shutting down — task was not executed"

/-- One iteration of `drainInboundCh`, and what follows the loop in `Run`. -/
def drainInboundCh : Work (Label ⊕ Exit) := do
  let received : Option InboundTask ← ask .tryRecv
  match received with
  | some it =>
    let envelope ← newEnvelopeFrom .taskAck it.task.messageID
    ask (.ack it.ackFn (taskAck envelope (.error shutdownError)))
    return .inl .drain
  | none =>
    ask .decConnections
    ask .closeWatchdog
    return .inr (.run .active)

/-- One iteration of the watchdog goroutine. -/
def watchdog : Work (Label ⊕ Exit) := do
  let tick : Bool ← ask .watchdogTick
  if ¬ tick then return .inr .watchdog
  else
    let last : ℤ ← ask .loadLastLoop
    let ns : ℤ ← ask .now
    if w.stallDuration < ns - last then
      ask (.storeState .failed)
      return .inr .watchdog
    else return .inl .watchdog

/-- The code of both goroutines. -/
def block : Label → Work (Label ⊕ Exit)
  | .init => init h w
  | .main id => mainLoop h w id
  | .drain => drainInboundCh
  | .watchdog => watchdog w

end Methods

/-! ### For runs on fixed inputs -/

/-- The JSON of the result of a `SEND_SMS`.  The texts of `RegStatusString` need no escapes. -/
def jsonSendSMSResult (r : SendSMSResult) : List UInt8 :=
  lit "\x7b\"parts\":" ++ decimal r.parts ++ lit ",\"signal_csq\":" ++ decimal r.signalCSQ ++
    lit ",\"reg_status\":\"" ++ r.regStatus ++ lit "\"\x7d"

/-- That of a `CHECK_SIGNAL`. -/
def jsonCheckSignalResult (r : CheckSignalResult) : List UInt8 :=
  lit "\x7b\"rssi\":" ++ decimal r.rssi ++ lit ",\"reg_status\":\"" ++ r.regStatus ++ lit "\"\x7d"

/-- The JSON of a `SEND_SMS` payload whose texts need no escapes. -/
def jsonSendSMS (p : SendSMSPayload) : List UInt8 :=
  lit "\x7b\"iccid\":\"" ++ p.iccid ++ lit "\",\"to\":\"" ++ p.dest ++ lit "\",\"body\":\"" ++
    p.body ++ lit "\",\"encoding\":\"" ++ p.encoding ++ lit "\"\x7d"

/-- A host to which no payload is known. -/
def Host.plain : Host where
  sum256 _ := []
  caseTable := .ascii
  texts := ⟨fun s => s, fun _ => []⟩
  unmarshalSendSMS _ := .error []
  unmarshalRebootModem _ := .error []
  marshalSendSMSResult r := .ok (jsonSendSMSResult r)
  marshalCheckSignalResult r := .ok (jsonCheckSignalResult r)

/-- A host to which one payload is known. -/
def Host.sending (p : SendSMSPayload) : Host :=
  { Host.plain with
    unmarshalSendSMS := fun json =>
      if json = jsonSendSMS p then .ok p else .error (lit "invalid character") }

def Worker.plain : Worker where
  gatewayID := []
  expectedICCID := []
  simCapacityWarnPct := 80
  simCapacityPurgePct := 95
  inboundQueueSize := 64
  stallDuration := 300000000000

/-- An answer to every call. -/
def Call.plainAns : (e : Call) → e.Ans
  | .openPort | .allow _ | .watchdogTick => true
  | .execute _ => .ok []
  | .executeSend _ _ => .ok (0 : ℤ)
  | .insert _ => .ok ((1 : ℤ), false)
  | .loadState => State.active
  | .loadRegStat | .loadSignalRSSI | .now | .loadLastLoop => (0 : ℤ)
  | .newUUID => ([] : List UInt8)
  | .select => Selected.ctxDone
  | .tryRecv => (none : Option InboundTask)
  | .event _ | .ack _ _ | .storeState _ | .storeRegStat _ | .storeSignalRSSI _ | .sleep _
  | .register _ | .registerLimiter _ | .deregister _ | .incConnections | .decConnections
  | .storeLastLoop _ | .startWatchdog | .closeWatchdog | .panic => ()

end SmsGate.Modem
