import SmsGate.Go.Strings
import Mathlib.Data.Int.Notation

/-!
# The tunnel's messages (`internal/tunnel/protocol.go`)

The messages that travel between the gateway and the cloud.  A field whose values are constants of
the source is an enumeration with its text; an action comes from the cloud and can be any text.
-/

namespace SmsGate.Tunnel

open Go Go.Strings

/-- The message types. -/
inductive MsgType where
  | hello
  | task
  | smsReceived
  | smsDeliveredAck
  | taskAck
  | modemAlert
  | heartbeat
  deriving DecidableEq

def MsgType.text : MsgType → List UInt8
  | hello => lit "HELLO"
  | task => lit "TASK"
  | smsReceived => lit "SMS_RECEIVED"
  | smsDeliveredAck => lit "SMS_DELIVERED_ACK"
  | taskAck => lit "TASK_ACK"
  | modemAlert => lit "MODEM_ALERT"
  | heartbeat => lit "HEARTBEAT"

/-- The alert codes that a worker raises. -/
inductive AlertCode where
  | simBanned
  | simFull
  | modemHang
  deriving DecidableEq

/-- The status of a finished task. -/
inductive TaskStatus where
  | success
  | failed
  deriving DecidableEq

/-- The error codes of a failed task. -/
inductive ErrCode where
  | modemNotFound
  | modemBusy
  | modemUnresponsive
  | sendFailed
  | rateLimited
  | invalidPayload
  | unsupportedAction
  deriving DecidableEq

def ErrCode.text : ErrCode → List UInt8
  | modemNotFound => lit "MODEM_NOT_FOUND"
  | modemBusy => lit "MODEM_BUSY"
  | modemUnresponsive => lit "MODEM_UNRESPONSIVE"
  | sendFailed => lit "SEND_FAILED"
  | rateLimited => lit "RATE_LIMITED"
  | invalidPayload => lit "INVALID_PAYLOAD"
  | unsupportedAction => lit "UNSUPPORTED_ACTION"

/-- `Envelope`. -/
structure Envelope where
  type : MsgType
  messageID : List UInt8
  /-- In milliseconds. -/
  ts : ℤ
  deriving DecidableEq

/-- The actions of a task. -/
inductive Action where
  | sendSMS
  | rebootModem
  | checkSignal
  | deleteAllSMS
  | other (name : List UInt8)
  deriving DecidableEq

/-- The action with a name. -/
def Action.ofName (name : List UInt8) : Action :=
  if name = lit "SEND_SMS" then .sendSMS
  else if name = lit "REBOOT_MODEM" then .rebootModem
  else if name = lit "CHECK_SIGNAL" then .checkSignal
  else if name = lit "DELETE_ALL_SMS" then .deleteAllSMS
  else .other name

/-- `Task`, with its message id from the envelope. -/
structure Task where
  messageID : List UInt8
  action : Action
  /-- JSON that the action's handler parses. -/
  payload : List UInt8
  deriving DecidableEq

structure SendSMSPayload where
  iccid : List UInt8
  dest : List UInt8
  body : List UInt8
  encoding : List UInt8
  deriving DecidableEq

structure RebootModemPayload where
  iccid : List UInt8
  hard : Bool
  deriving DecidableEq

structure CheckSignalPayload where
  iccid : List UInt8
  deriving DecidableEq

structure DeleteAllSMSPayload where
  iccid : List UInt8
  deriving DecidableEq

structure SMSReceivedEvent where
  envelope : Envelope
  gatewayID : List UInt8
  iccid : List UInt8
  sender : List UInt8
  body : List UInt8
  receivedAt : ℤ
  smsc : List UInt8
  pduHash : List UInt8
  bufferID : ℤ
  deriving DecidableEq

structure TaskError where
  code : ErrCode
  message : List UInt8
  deriving DecidableEq

structure TaskAckEvent where
  envelope : Envelope
  status : TaskStatus
  result : Option (List UInt8)
  error : Option TaskError
  deriving DecidableEq

structure ModemAlertEvent where
  envelope : Envelope
  iccid : List UInt8
  alertCode : AlertCode
  detail : List UInt8
  deriving DecidableEq

/-- The events that a worker pushes through `eventFn`. -/
inductive Event where
  | smsReceived (e : SMSReceivedEvent)
  | modemAlert (e : ModemAlertEvent)
  deriving DecidableEq

/-- `ModemStatus`. -/
structure ModemStatus where
  iccid : List UInt8
  port : List UInt8
  state : List UInt8
  imsi : List UInt8
  operator : List UInt8
  signalRSSI : ℤ
  regStatus : List UInt8
  sent1H : ℤ
  recv1H : ℤ
  deriving DecidableEq

/-- `ProtocolVersion`. -/
def protocolVersion : ℕ := 2

structure HelloEvent where
  envelope : Envelope
  gatewayID : List UInt8
  protocolVersion : ℕ
  agentVersion : List UInt8
  modems : List ModemStatus
  deriving DecidableEq

structure HeartbeatEvent where
  envelope : Envelope
  gatewayID : List UInt8
  uptimeS : ℤ
  pendingMsgs : ℕ
  modems : List ModemStatus
  deriving DecidableEq

/-- The messages that the gateway writes. -/
inductive Outbound where
  | hello (e : HelloEvent)
  | heartbeat (e : HeartbeatEvent)
  | event (e : Event)
  | taskAck (e : TaskAckEvent)
  deriving DecidableEq

/-- What `handleInbound` can make of a message from the cloud. -/
inductive Inbound where
  /-- The envelope, or the message of a known type, does not parse. -/
  | malformed
  | smsDeliveredAck (bufferID : ℤ)
  | task (t : Task)
  /-- A message of another type. -/
  | unknown

structure CheckSignalResult where
  rssi : ℤ
  regStatus : List UInt8
  deriving DecidableEq

structure SendSMSResult where
  parts : ℕ
  signalCSQ : ℤ
  regStatus : List UInt8
  deriving DecidableEq

/-- `RegStatusString`. -/
def regStatusString (stat : ℤ) : List UInt8 :=
  if stat = 0 then lit "NOT_REGISTERED"
  else if stat = 1 then lit "REGISTERED_HOME"
  else if stat = 2 then lit "SEARCHING"
  else if stat = 3 then lit "REGISTRATION_DENIED"
  else if stat = 5 then lit "REGISTERED_ROAMING"
  else lit "UNKNOWN"

end SmsGate.Tunnel
