import SmsGate.Router.Equiv.Outcome

/-!
# Messages that are too long

`MaxInboundPayloadBytes` is meant to keep long messages away from the gateway.  Nothing compares the
length of a message with it: a long message is handled as a short one is.

* `inert_iff`: the messages that leave the buffer, the channels of the workers and the outbox as
  they are in every state are those that do not unmarshal and those of an unknown type;
* `oversized_inert_iff`: a message that is too long is without effect if and only if it is such a
  one.
-/

namespace SmsGate

open Tunnel
open Modem (Registry TaskQueue InboundTask)

/-- No row of the buffer was marked, no task was queued, and nothing was pushed. -/
def Untouched (g g' : Gateway) : Prop :=
  g'.world.table = g.world.table ∧ g'.router.registry.queue = g.router.registry.queue ∧
    g'.world.outbox = g.world.outbox

/-- Handled in any state, the message touches nothing. -/
def Inert (codec : Codec) (raw : List UInt8) : Prop :=
  ∀ (h : Router.Host) (t : Tunnel.Thread) (ms : ℤ) (g : Gateway),
    (handleInbound (codec.inbound raw)).Ends (Gateway.exec h t ms) g fun _ g' => Untouched g g'

/-! ### States in which a message has an effect -/

/-- A message that waits in the buffer under a given key. -/
def waitingRow (id : ℤ) : Buffer.Row where
  id := id
  message := ⟨[], [], [], [], [], 0⟩
  status := .pending
  createdAt := 0
  deliveredAt := none

def waitingTable (id : ℤ) : Buffer.Table where
  rows := [waitingRow id]
  seq := id
  sorted := List.pairwise_singleton _ _
  id_le r hr := by rw [List.mem_singleton.mp hr]; exact le_rfl
  hash_unique := List.pairwise_singleton _ _

/-- The row is marked as delivered when the statement succeeds. -/
theorem not_inert_of_ack {codec : Codec} {raw : List UInt8} {id : ℤ}
    (hraw : codec.inbound raw = .smsDeliveredAck id) : ¬ Inert codec raw := by
  intro hinert
  have hends := hinert oneSIM .run 0 (noWorkers (waitingTable id))
  rw [hraw] at hends
  -- nobody waits for the acknowledgement, and the statement succeeds
  have hmark := hends.2 none (noWorkers (waitingTable id)) rfl
  obtain ⟨htable, -, -⟩ := hmark.2 true _ rfl
  have hrows : (Buffer.markDelivered 0 id (waitingTable id)).rows = (waitingTable id).rows :=
    congrArg Buffer.Table.rows htable
  rw [Buffer.rows_markDelivered] at hrows
  have hstatus := congrArg (List.map Buffer.Row.status) hrows
  simp [waitingTable, waitingRow] at hstatus

/-- A task for which there is no worker is refused, and the refusal is pushed. -/
theorem not_inert_of_task {codec : Codec} {raw : List UInt8} {task : Task}
    (hraw : codec.inbound raw = .task task) : ¬ Inert codec raw := by
  intro hinert
  have hends := hinert oneSIM .run 0 (noWorkers .empty)
  rw [hraw] at hends
  obtain ⟨text, htext⟩ :
      ∃ text, ((noWorkers .empty).router.dispatch oneSIM task).1 = some text := by
    rcases dispatch_cases oneSIM task (noWorkers .empty).router with ⟨-, iccid, -, hok⟩ | ⟨herr, -⟩
    · obtain ⟨-, w, hw, -⟩ := dispatch_ok hok
      cases hw
    · exact herr
  have hpushed : (handleInbound (.task task)).Ends (Gateway.exec oneSIM .run 0) (noWorkers .empty)
      fun _ g' => ∃ ack, g'.world.outbox = [.taskAck ack] := by
    refine route_bind_ends ?_
    rw [htext]
    refine (makeErrorAck_ends _ _).bind ?_
    rintro ack g ⟨rfl, -⟩
    refine (push_ends (.taskAck ack) ?_).mono fun _ g' hpush => ⟨ack, hpush.1⟩
    exact (show 0 < outboxCap by decide)
  obtain ⟨-, g', ⟨-, -, hsame⟩, ack, houtbox⟩ := hends.exists_and hpushed
  rw [hsame] at houtbox
  cases houtbox

/-- The messages without an effect. -/
theorem inert_iff (codec : Codec) (raw : List UInt8) :
    Inert codec raw ↔ codec.inbound raw = .malformed ∨ codec.inbound raw = .unknown := by
  constructor
  · intro hinert
    cases hraw : codec.inbound raw with
    | smsDeliveredAck id => exact absurd hinert (not_inert_of_ack hraw)
    | task task => exact absurd hinert (not_inert_of_task hraw)
    | malformed => exact .inl rfl
    | unknown => exact .inr rfl
  · rintro (hraw | hraw) h t ms g
    · rw [hraw]
      exact ⟨rfl, rfl, rfl⟩
    · rw [hraw]
      exact ⟨rfl, rfl, rfl⟩

/-- **When a long message has no effect.**  A message that is longer than `MaxInboundPayloadBytes`
touches neither the buffer nor a channel nor the outbox, in any state of the manager, the registry
and the buffer, if and only if it fails to unmarshal or has an unknown type: the length itself is no
guard. -/
theorem oversized_inert_iff (codec : Codec) (raw : List UInt8)
    (_hlong : maxInboundPayloadBytes < raw.length) :
    Inert codec raw ↔ codec.inbound raw = .malformed ∨ codec.inbound raw = .unknown :=
  inert_iff codec raw

/-! ### Texts with blanks behind them -/

/-- A text with 65536 blanks behind it. -/
@[irreducible] def padded (text : List UInt8) : List UInt8 :=
  text ++ List.replicate maxInboundPayloadBytes 0x20

theorem lt_length_padded {text : List UInt8} (hne : text ≠ []) :
    maxInboundPayloadBytes < (padded text).length := by
  rw [padded, List.length_append, List.length_replicate]
  exact Nat.lt_add_of_pos_left (List.length_pos_iff.mpr hne)

theorem trimRight_padded (text : List UInt8) :
    Go.Strings.trimRight (padded text) 0x20 = Go.Strings.trimRight text 0x20 := by
  unfold padded
  induction maxInboundPayloadBytes with
  | zero => rw [List.replicate_zero, List.append_nil]
  | succ n ih =>
    rw [List.replicate_succ', ← List.append_assoc]
    exact (List.rdropWhile_concat_pos (· == 0x20) _ 0x20 rfl).trans ih

/-- The blanks do not matter. -/
theorem inbound_padded (text : List UInt8) :
    textCodec.inbound (padded text) = textCodec.inbound text := by
  have hfields : fields (padded text) = fields text := by
    unfold fields
    rw [trimRight_padded]
  simp only [Codec.inbound, textCodec, hfields]

/-- A padded closing bracket is no JSON text: it has no effect. -/
theorem oversized_inert_iff_bracket :
    maxInboundPayloadBytes < (padded (Go.lit "]")).length ∧
      (Inert textCodec (padded (Go.lit "]")) ↔
        textCodec.inbound (padded (Go.lit "]")) = .malformed ∨
          textCodec.inbound (padded (Go.lit "]")) = .unknown) ∧
      Inert textCodec (padded (Go.lit "]")) := by
  have hlong : maxInboundPayloadBytes < (padded (Go.lit "]")).length :=
    lt_length_padded (by decide)
  have hiff := oversized_inert_iff textCodec _ hlong
  have hmalformed : textCodec.inbound (padded (Go.lit "]")) = .malformed := by
    rw [inbound_padded]
    rfl
  exact ⟨hlong, hiff, hiff.mpr (.inl hmalformed)⟩

/-- A padded task is queued, and a padded acknowledgement marks its row. -/
theorem not_oversized_inert :
    (maxInboundPayloadBytes < (padded taskText).length ∧
      (handleInbound (textCodec.inbound (padded taskText))).Ends
        (Gateway.exec oneSIM .run 0) (oneWorker 1)
        fun _ g' => (g'.router.registry.queue 0).tasks = [⟨checkMessage.task, 0⟩]) ∧
    (maxInboundPayloadBytes < (padded ackText).length ∧
      ¬ (handleInbound (textCodec.inbound (padded ackText))).Ends
        (Gateway.exec oneSIM .run 0) (noWorkers (waitingTable 7))
        fun _ g' => g'.world.table = waitingTable 7) := by
  refine ⟨⟨lt_length_padded (by decide), ?_⟩, lt_length_padded (by decide), fun hends => ?_⟩
  · have herr : ((oneWorker 1).router.dispatch oneSIM checkMessage.task).1 = none := by decide
    rw [inbound_padded, Codec.inbound_task unmarshalTask_taskText rfl]
    refine route_bind_ends ?_
    rw [herr]
    exact (show _ = _ by decide)
  · have hack : textCodec.inbound ackText = .smsDeliveredAck 7 := rfl
    rw [inbound_padded, hack] at hends
    have hmark := hends.2 none (noWorkers (waitingTable 7)) rfl
    have htable := hmark.2 true _ rfl
    have hstatus := congrArg (fun table => table.rows.map Buffer.Row.status) htable
    revert hstatus
    decide

end SmsGate
