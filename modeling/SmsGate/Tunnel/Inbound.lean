import SmsGate.Tunnel.Manager

/-!
# Messages from the cloud (`internal/tunnel/manager.go`, `protocol.go`)

`handleInbound` unmarshals a message twice: into an `Envelope` to learn its type, and then into the
struct of the type.  The structs embed `Envelope`.
-/

namespace SmsGate.Tunnel

open Go

/-- An `Envelope` as it comes from the cloud: its type can be any text. -/
structure InboundEnvelope where
  type : List UInt8
  messageID : List UInt8
  ts : ℤ
  deriving DecidableEq

/-- `Task` as it is unmarshalled. -/
structure TaskMessage where
  envelope : InboundEnvelope
  action : List UInt8
  payload : List UInt8
  deriving DecidableEq

/-- The task of a message. -/
def TaskMessage.task (m : TaskMessage) : Task where
  messageID := m.envelope.messageID
  action := .ofName m.action
  payload := m.payload

/-- `json.Unmarshal` for the messages from the cloud.  The fields of an embedded struct are
unmarshalled as those of the struct itself, so a message that unmarshals as a task has an envelope,
and it is the task's. -/
structure Codec where
  unmarshalEnvelope : List UInt8 → Except (List UInt8) InboundEnvelope
  /-- The `BufferID` of an `SMSDeliveredAck`. -/
  unmarshalSMSDeliveredAck : List UInt8 → Except (List UInt8) ℤ
  unmarshalTask : List UInt8 → Except (List UInt8) TaskMessage
  envelope_of_task : ∀ raw m, unmarshalTask raw = .ok m → unmarshalEnvelope raw = .ok m.envelope

/-- `MaxInboundPayloadBytes`.  Neither `reader` nor `handleInbound` compares a message with it. -/
def maxInboundPayloadBytes : ℕ := 64 * 1024

/-- What `handleInbound` makes of a message. -/
def Codec.inbound (codec : Codec) (raw : List UInt8) : Inbound :=
  match codec.unmarshalEnvelope raw with
  | .error _ => .malformed
  | .ok env =>
    if env.type = MsgType.smsDeliveredAck.text then
      match codec.unmarshalSMSDeliveredAck raw with
      | .error _ => .malformed
      | .ok bufferID => .smsDeliveredAck bufferID
    else if env.type = MsgType.task.text then
      match codec.unmarshalTask raw with
      | .error _ => .malformed
      | .ok m => .task m.task
    else .unknown

theorem Codec.inbound_task {codec : Codec} {raw : List UInt8} {m : TaskMessage}
    (hraw : codec.unmarshalTask raw = .ok m) (htype : m.envelope.type = MsgType.task.text) :
    codec.inbound raw = .task m.task := by
  have hne : m.envelope.type ≠ MsgType.smsDeliveredAck.text := by
    rw [htype]
    decide
  unfold inbound
  rw [codec.envelope_of_task raw m hraw]
  simp only [if_neg hne, if_pos htype, hraw]

end SmsGate.Tunnel
