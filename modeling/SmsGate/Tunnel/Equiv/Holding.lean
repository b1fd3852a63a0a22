import SmsGate.Tunnel.Equiv.Footprint

/-!
# The task in the hands of the reader

The reader of a session reads a `TASK`, hands it to the router, and pushes a failed `TASK_ACK` if
the router refuses it.  `holdingProtocol` says so, and that the reader does nothing else with tasks;
the other goroutines do nothing with them at all (`block_obeys_holding`).
-/

namespace SmsGate.Tunnel

/-- The task that a message of the cloud has. -/
def Inbound.task? : Inbound → Option Task
  | .task t => some t
  | _ => none

/-- What the reader may push for a task: its refusal. -/
def Refuses (task : Task) (m : Outbound) : Prop :=
  ∃ a : TaskAckEvent, m = .taskAck a ∧ a.envelope.messageID = task.messageID ∧ a.status = .failed

/-- A task that was read is routed once; if it is refused, that is pushed. -/
def holdingProtocol : Protocol Call Call.Ans (Option Task) where
  allows q c :=
    match c with
    | .readMessage _ => q = none
    | .route task => q = some task
    | .push m => ∃ task, q = some task ∧ Refuses task m
    | _ => True
  next q c a :=
    match c, a with
    | .readMessage _, (msg : Option Inbound) => msg.bind Inbound.task?
    | .route _, (err : Option (List UInt8)) => if err = none then none else q
    | .push _, _ => none
    | _, _ => q

section

variable {cfg : ManagerConfig} {n : ℕ} {q : Option Task}

theorem holdingProtocol_stays (c : Call) (hc : c.movesTasks = false) :
    holdingProtocol.allows q c ∧ ∀ a, holdingProtocol.next q c a = q := by
  cases c with
  | readMessage | route | push => cases hc
  | _ => exact ⟨trivial, fun _ => rfl⟩

/-- A program that moves no tasks. -/
abbrev Spares {α : Type} (p : Io α) : Prop := p.Calls fun c => c.movesTasks = false

theorem spares_ask {c : Call} (hc : c.movesTasks = false) : Spares (ask c) := calls_ask hc

theorem Spares.obeys {α : Type} {p : Io α} {Φ : α → Option Task → Prop} (hp : Spares p)
    (hΦ : ∀ a, Φ a q) : p.Obeys holdingProtocol q Φ :=
  Prog.Calls.obeys hp holdingProtocol_stays hΦ

theorem Spares.bind_obeys {α β : Type} {p : Io α} {f : α → Io β} {Φ : β → Option Task → Prop}
    (hp : Spares p) (hf : ∀ a, (f a).Obeys holdingProtocol q Φ) :
    (p >>= f).Obeys holdingProtocol q Φ :=
  Prog.Calls.bind_obeys hp holdingProtocol_stays hf

/-! ### The reader -/

theorem handleInbound_obeys_holding (m : Inbound) :
    (handleInbound m).Obeys holdingProtocol m.task? fun _ q => q = none := by
  cases m with
  | malformed | unknown => exact rfl
  | smsDeliveredAck id =>
    have hquiet : Spares (ackDelivered id) := calls_ackDelivered id rfl (fun _ => rfl) rfl
    exact hquiet.obeys fun _ => rfl
  | task t =>
    refine Prog.perform_bind_obeys rfl fun (err : Option (List UInt8)) => ?_
    cases err with
    | none => exact rfl
    | some err =>
      -- the refusal has the id of the task
      exact ⟨trivial, fun _ => ⟨⟨t, rfl, _, rfl, rfl, rfl⟩, fun _ => rfl⟩⟩

/-- A block starts with empty hands. -/
abbrev HoldingEnds : Label ⊕ Unit → Option Task → Prop := fun _ q => q = none

theorem reader_obeys_holding : (reader n).Obeys holdingProtocol none HoldingEnds := by
  refine (spares_ask rfl).bind_obeys fun (done : Bool) => ?_
  cases done with
  | true => exact (spares_ask rfl).bind_obeys fun _ => rfl
  | false =>
    refine Prog.perform_bind_obeys rfl fun (msg : Option Inbound) => ?_
    cases msg with
    | some m => exact (handleInbound_obeys_holding m).bind fun _ _ hq => hq
    | none =>
      refine (spares_ask rfl).bind_obeys fun (done : Bool) => ?_
      cases done with
      | true => exact (spares_ask rfl).bind_obeys fun _ => rfl
      | false => exact (spares_ask rfl).bind_obeys fun _ => (spares_ask rfl).bind_obeys fun _ => rfl

/-- Every goroutine keeps to `holdingProtocol`. -/
theorem block_obeys_holding (l : Label) : (block cfg l).Obeys holdingProtocol none HoldingEnds := by
  by_cases hreader : ∃ n, l = .loop n .reader
  · obtain ⟨n, rfl⟩ := hreader
    exact reader_obeys_holding
  · have hquiet : Spares (block cfg l) := (calls_block l).mono fun c hc =>
      Bool.eq_false_iff.mpr fun hmoves => hreader (hc.task hmoves)
    exact hquiet.obeys fun _ => rfl

end

end SmsGate.Tunnel
