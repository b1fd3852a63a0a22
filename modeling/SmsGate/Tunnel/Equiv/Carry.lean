import SmsGate.Modem.Equiv.Receipt
import SmsGate.Tunnel.Equiv.Footprint

/-!
# What the tunnel passes on

A goroutine of the tunnel writes an `SMS_RECEIVED` for a row that it has read from the buffer, or
one that it has taken out of the outbox, and it marks a row as delivered when the cloud has
acknowledged it.  `carryProtocol` says so; every block keeps to it (`block_obeys_carry`).
-/

namespace SmsGate.Tunnel

/-- What an `SMS_RECEIVED` tells, beside its envelope. -/
@[ext]
structure Notice where
  gatewayID : List UInt8
  bufferID : ℤ
  message : Buffer.Message
  deriving DecidableEq

def SMSReceivedEvent.notice (e : SMSReceivedEvent) : Notice where
  gatewayID := e.gatewayID
  bufferID := e.bufferID
  message := e.message

/-- The notice in a message of the gateway. -/
def Outbound.notices : Outbound → List Notice
  | .event (.smsReceived e) => [e.notice]
  | _ => []

/-- What a goroutine has read: the last acknowledgement, and what it may write. -/
structure Carried where
  ack : Option ℤ
  notices : List Notice

section

variable (cfg : ManagerConfig)

/-- The notice for a row. -/
def rowNotice (row : Buffer.SMSRecord) : Notice := ⟨cfg.gatewayID, row.id, row.message⟩

/-- What is written comes from the buffer or the outbox, and a row is marked for an acknowledgement
that was read. -/
def carryProtocol : Protocol Call Call.Ans Carried where
  allows q c :=
    match c with
    | .markDelivered id => q.ack = some id
    | .writeMessage _ (.text m) => m.notices ⊆ q.notices
    | .push m => m.notices = []
    | _ => True
  next q c a :=
    match c, a with
    | .readMessage _, (some (.smsDeliveredAck id) : Option Inbound) => { q with ack := some id }
    | .pendingRows, (some rows : Option (List Buffer.SMSRecord)) =>
      { q with notices := rows.map (rowNotice cfg) }
    | .select _, (.event (.outbox m) : Selected) => { q with notices := m.notices }
    | _, _ => q

/-- The calls that the protocol is about. -/
def Call.carries : Call → Bool
  | markDelivered _ | writeMessage _ _ | push _ | readMessage _ | pendingRows | select _ => true
  | _ => false

variable {cfg} {n : ℕ} {q : Carried}

theorem carryProtocol_neutral (c : Call) (hc : c.carries = false) :
    (carryProtocol cfg).allows q c ∧ ∀ a, (carryProtocol cfg).next q c a = q := by
  cases c with
  | markDelivered | writeMessage | push | readMessage | pendingRows | select => cases hc
  | _ => exact ⟨trivial, fun _ => rfl⟩

/-- A program that reads and writes nothing. -/
abbrev Neutral {α : Type} (p : Io α) : Prop := p.Calls fun c => c.carries = false

theorem neutral_ask {c : Call} (hc : c.carries = false) : Neutral (ask c) := calls_ask hc

theorem Neutral.bind_obeys {α β : Type} {p : Io α} {f : α → Io β} {Φ : β → Carried → Prop}
    (hp : Neutral p) (hf : ∀ a, (f a).Obeys (carryProtocol cfg) q Φ) :
    (p >>= f).Obeys (carryProtocol cfg) q Φ :=
  Prog.Calls.bind_obeys hp carryProtocol_neutral hf

theorem Neutral.obeys {α : Type} {p : Io α} {Φ : α → Carried → Prop} (hp : Neutral p)
    (hΦ : ∀ a, Φ a q) : p.Obeys (carryProtocol cfg) q Φ :=
  Prog.Calls.obeys hp carryProtocol_neutral hΦ

theorem neutral_newEnvelope (type : MsgType) : Neutral (newEnvelope type) :=
  calls_newEnvelope type rfl rfl

/-! ### Writing -/

theorem writeJSON_obeys_carry {m : Outbound} (hm : m.notices ⊆ q.notices) :
    (writeJSON cfg n m).Obeys (carryProtocol cfg) q fun _ q' => q' = q := by
  refine (neutral_ask rfl).bind_obeys fun (marshalled : Bool) => ?_
  cases marshalled with
  | false => exact rfl
  | true =>
    refine (neutral_ask rfl).bind_obeys fun _ => (neutral_ask rfl).bind_obeys fun (set : Bool) => ?_
    cases set with
    | false => exact rfl
    | true => exact ⟨hm, fun _ => rfl⟩

theorem sendHello_obeys_carry :
    (sendHello cfg n).Obeys (carryProtocol cfg) q fun _ q' => q' = q :=
  (neutral_newEnvelope _).bind_obeys fun _ => (neutral_ask rfl).bind_obeys fun _ =>
    writeJSON_obeys_carry (List.nil_subset _)

theorem sendHeartbeat_obeys_carry :
    (sendHeartbeat cfg n).Obeys (carryProtocol cfg) q fun _ q' => q' = q := by
  refine (neutral_ask rfl).bind_obeys fun (pending : Option ℕ) => ?_
  cases pending with
  | none => exact rfl
  | some count =>
    exact (neutral_newEnvelope _).bind_obeys fun _ => (neutral_ask rfl).bind_obeys fun _ =>
      (neutral_ask rfl).bind_obeys fun _ => writeJSON_obeys_carry (List.nil_subset _)

theorem sendPing_obeys_carry :
    (sendPing cfg n).Obeys (carryProtocol cfg) q fun _ q' => q' = q := by
  refine (neutral_ask rfl).bind_obeys fun _ => (neutral_ask rfl).bind_obeys fun (set : Bool) => ?_
  cases set with
  | false => exact rfl
  | true => exact ⟨trivial, fun _ => rfl⟩

theorem writer_obeys_carry : (writer cfg n).Obeys (carryProtocol cfg) q fun _ _ => True := by
  have hrest : ∀ (ok : Bool) (q : Carried), (if ok then
      (pure (.inl (.loop n .writer)) : Io (Label ⊕ Unit)) else do
        ask (.cancel n); ask (.wgDone n); return .inr ()).Obeys (carryProtocol cfg) q
        fun _ _ => True := by
    intro ok q
    cases ok with
    | true => trivial
    | false =>
      exact (neutral_ask rfl).bind_obeys fun _ => (neutral_ask rfl).bind_obeys fun _ => trivial
  refine Prog.perform_bind_obeys trivial fun (selected : Selected) => ?_
  cases selected with
  | ctxDone => exact (neutral_ask rfl).bind_obeys fun _ => trivial
  | event e =>
    cases e with
    | outbox m =>
      exact (writeJSON_obeys_carry (List.Subset.refl _)).bind fun ok q' _ => hrest ok q'
    | ping => exact sendPing_obeys_carry.bind fun ok q' _ => hrest ok q'
    | heartbeat => exact sendHeartbeat_obeys_carry.bind fun ok q' _ => hrest ok q'

/-! ### Reading -/

theorem handleInbound_obeys_carry (m : Inbound)
    (hack : ∀ id, m = .smsDeliveredAck id → q.ack = some id) :
    (handleInbound m).Obeys (carryProtocol cfg) q fun _ _ => True := by
  cases m with
  | malformed | unknown => trivial
  | smsDeliveredAck id =>
    refine (neutral_ask rfl).bind_obeys fun (found : Option ℕ) => ?_
    cases found with
    | none => exact Prog.perform_bind_obeys (hack id rfl) fun _ => trivial
    | some ch =>
      refine (neutral_ask rfl).bind_obeys fun _ => ?_
      exact Prog.perform_bind_obeys (hack id rfl) fun _ => trivial
  | task t =>
    refine (neutral_ask rfl).bind_obeys fun (err : Option (List UInt8)) => ?_
    cases err with
    | none => trivial
    | some err =>
      have henvelope : Neutral (makeErrorAck t.messageID err) :=
        Prog.Calls.bind ((neutral_ask rfl).bind fun _ => Prog.calls_pure _)
          fun _ => Prog.calls_pure _
      -- what is pushed is a `TASK_ACK`
      exact henvelope.bind_obeys fun ack => ⟨rfl, fun _ => trivial⟩

theorem reader_obeys_carry : (reader n).Obeys (carryProtocol cfg) q fun _ _ => True := by
  refine (neutral_ask rfl).bind_obeys fun (done : Bool) => ?_
  cases done with
  | true => exact (neutral_ask rfl).bind_obeys fun _ => trivial
  | false =>
    refine Prog.perform_bind_obeys trivial fun (msg : Option Inbound) => ?_
    cases msg with
    | some m =>
      have hinbound : (handleInbound m).Obeys (carryProtocol cfg)
          ((carryProtocol cfg).next q (.readMessage n) (some m)) fun _ _ => True := by
        refine handleInbound_obeys_carry m ?_
        rintro id rfl
        rfl
      exact hinbound.bind fun _ _ _ => trivial
    | none =>
      refine (neutral_ask rfl).bind_obeys fun (done : Bool) => ?_
      cases done with
      | true => exact (neutral_ask rfl).bind_obeys fun _ => trivial
      | false =>
        exact (neutral_ask rfl).bind_obeys fun _ => (neutral_ask rfl).bind_obeys fun _ => trivial

/-! ### Flushing -/

theorem flushRows_obeys_carry (rows : List Buffer.SMSRecord)
    (hrows : rows.map (rowNotice cfg) ⊆ q.notices) :
    (flushRows cfg n rows).Obeys (carryProtocol cfg) q fun _ _ => True := by
  induction rows with
  | nil => trivial
  | cons row rows ih =>
    obtain ⟨hrow, hrows⟩ := List.cons_subset.mp hrows
    refine (neutral_ask rfl).bind_obeys fun (done : Bool) => ?_
    cases done with
    | true => trivial
    | false =>
      refine (neutral_newEnvelope _).bind_obeys fun envelope => ?_
      have hwrite : (writeJSON cfg n (.event (.smsReceived (rowEvent cfg envelope row)))).Obeys
          (carryProtocol cfg) q fun _ q' => q' = q :=
        writeJSON_obeys_carry (List.cons_subset.mpr ⟨hrow, List.nil_subset _⟩)
      refine hwrite.bind ?_
      rintro ok _ rfl
      cases ok with
      | false => trivial
      | true =>
        refine (neutral_ask rfl).bind_obeys fun (registered : Option ℕ) => ?_
        cases registered with
        | none => exact ih hrows
        | some ch =>
          refine (neutral_ask rfl).bind_obeys fun _ => ?_
          refine (neutral_ask rfl).bind_obeys fun (waited : Waited) => ?_
          cases waited with
          | acked => exact ih hrows
          | timeout => exact (neutral_ask rfl).bind_obeys fun _ => ih hrows
          | ctxDone => trivial

theorem flushBuffer_obeys_carry :
    (flushBuffer cfg n).Obeys (carryProtocol cfg) q fun _ _ => True := by
  refine (neutral_ask rfl).bind_obeys fun (locked : Bool) => ?_
  cases locked with
  | false => trivial
  | true =>
    refine Prog.perform_bind_obeys trivial fun (rows : Option (List Buffer.SMSRecord)) => ?_
    cases rows with
    | none => exact (neutral_ask rfl).obeys fun _ => trivial
    | some rows =>
      have hflush : (flushRows cfg n rows).Obeys (carryProtocol cfg)
          ((carryProtocol cfg).next q .pendingRows (some rows)) fun _ _ => True :=
        flushRows_obeys_carry rows (List.Subset.refl _)
      exact hflush.bind fun _ _ _ => (neutral_ask rfl).obeys fun _ => trivial

/-! ### Sessions -/

theorem run_obeys_carry : (run cfg n).Obeys (carryProtocol cfg) q fun _ _ => True := by
  refine (neutral_ask rfl).bind_obeys fun (done : Bool) => ?_
  cases done with
  | true => trivial
  | false =>
    refine (neutral_ask rfl).bind_obeys fun (dialled : Bool) => ?_
    cases dialled with
    | false => exact (neutral_ask rfl).bind_obeys fun _ => trivial
    | true =>
      have hsession : (runSession cfg n).Obeys (carryProtocol cfg) q fun _ _ => True := by
        refine (neutral_ask rfl).bind_obeys fun _ => sendHello_obeys_carry.bind ?_
        rintro ok _ rfl
        cases ok with
        | false => exact (neutral_ask rfl).obeys fun _ => trivial
        | true =>
          refine Neutral.obeys ?_ fun _ => trivial
          refine (neutral_ask rfl).bind fun _ => (neutral_ask rfl).bind fun _ => ?_
          refine (neutral_ask rfl).bind fun _ => (neutral_ask rfl).bind fun _ => ?_
          refine (neutral_ask rfl).bind fun _ => (neutral_ask rfl).bind fun _ => ?_
          exact (neutral_ask rfl).bind fun _ => (neutral_ask rfl).bind fun _ => neutral_ask rfl
      exact hsession.bind fun _ _ _ => (neutral_ask rfl).bind_obeys fun _ => trivial

theorem block_obeys_carry (l : Label) (q : Carried) :
    (block cfg l).Obeys (carryProtocol cfg) q fun _ _ => True := by
  cases l with
  | run n => exact run_obeys_carry
  | start n role => exact (neutral_ask rfl).bind_obeys fun _ => trivial
  | loop n role =>
    cases role with
    | writer => exact writer_obeys_carry
    | reader => exact reader_obeys_carry
    | flushOnConnect => exact flushBuffer_obeys_carry.bind fun _ _ _ => trivial
    | periodicFlush =>
      refine (neutral_ask rfl).bind_obeys fun (tick : Bool) => ?_
      cases tick with
      | false => trivial
      | true => exact flushBuffer_obeys_carry.bind fun _ _ _ => trivial
    | purge =>
      refine (neutral_ask rfl).bind_obeys fun (tick : Bool) => ?_
      cases tick with
      | false => trivial
      | true => exact (neutral_ask rfl).bind_obeys fun _ => trivial

end

/-! ### The buffer -/

/-- The buffer after a call. -/
def Call.tableAfter (ms : ℤ) (table : Buffer.Table) : (c : Call) → c.Ans → Buffer.Table
  | .markDelivered id, (ok : Bool) => if ok then Buffer.markDelivered ms id table else table
  | .purge, _ => (Buffer.purge ms table).2
  | _, _ => table

section

variable {s s' : World} {t : Thread} {ms : ℤ}

theorem table_of_exec {c : Call} {a : c.Ans} (hexec : s.exec t ms c a = some s') :
    s'.table = c.tableAfter ms s.table a := by
  cases c with
  | markDelivered id =>
    cases hexec
    simp only [Call.tableAfter]
    split_ifs <;> rfl
  | purge =>
    cases hexec
    rfl
  | _ => exact view_of_exec (f := World.table) (by simp [Call.Leaves]) hexec

/-- `PendingRows` returns the pending rows. -/
theorem eq_pendingRows_of_exec {rows : List Buffer.SMSRecord}
    (hexec : s.exec t ms .pendingRows (some rows) = some s') :
    rows = Buffer.pendingRows s.table :=
  (Option.ite_none_right_eq_some.mp hexec).1

end

end SmsGate.Tunnel
