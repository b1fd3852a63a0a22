import SmsGate.Go.Strings
import SmsGate.Modem.System
import SmsGate.Prog.Ends
import SmsGate.Router.Dispatch
import SmsGate.Tunnel.Inbound

/-!
# Every task from the cloud has one outcome

A task that `handleInbound` gets is handed to a worker, or the cloud is told that it was not, by a
`TASK_ACK` that says `FAILED`.  The ways to fail are many, from the payload's JSON to a full
channel, and each of them leaves the workers alone.

* `routed_once`: for every registry, every message that is a task, and room in the outbox, the task
  is appended to the channel of the worker of its ICCID and nothing is pushed, or one `TASK_ACK` is
  pushed and no channel has changed;
* `outer_send_eq`: the channel of a worker here is that of the worker's own system.
-/

namespace SmsGate

open Tunnel
open Modem (Registry TaskQueue InboundTask)

/-- The task was appended to the channel of the worker that is registered under the ICCID of its
payload; the other channels and the outbox are as before. -/
def Queued (h : Router.Host) (task : Task) (g g' : Gateway) : Prop :=
  ∃ iccid w ackFn, Router.extractICCID h task = .ok iccid ∧
    g.router.registry.workers iccid = some w ∧
    (g'.router.registry.queue w).tasks = (g.router.registry.queue w).tasks ++ [⟨task, ackFn⟩] ∧
    (∀ w', w' ≠ w → g'.router.registry.queue w' = g.router.registry.queue w') ∧
    g'.world.outbox = g.world.outbox

/-- One failed `TASK_ACK` for the task was pushed; the channels are as before. -/
def Refused (task : Task) (g g' : Gateway) : Prop :=
  (∃ ack : TaskAckEvent, g'.world.outbox = g.world.outbox ++ [.taskAck ack] ∧
    ack.envelope.type = .taskAck ∧ ack.envelope.messageID = task.messageID ∧
    ack.status = .failed) ∧
  g'.router.registry.queue = g.router.registry.queue

/-- The outbox tells the two outcomes apart. -/
theorem Queued.not_refused {h : Router.Host} {task : Task} {g g' : Gateway}
    (hqueued : Queued h task g g') : ¬ Refused task g g' := by
  obtain ⟨_, _, _, _, _, _, _, hsame⟩ := hqueued
  rintro ⟨⟨ack, hpushed, _⟩, _⟩
  rw [hsame] at hpushed
  exact List.cons_ne_nil _ _ (List.self_eq_append_right.mp hpushed)

/-! ### `Dispatch` -/

/-- Without an error the task is in the channel of its worker. -/
theorem dispatch_ok {r r' : Registry} {iccid : List UInt8} {it : InboundTask}
    (hok : r.dispatch iccid it = .ok r') :
    r'.workers = r.workers ∧ ∃ w, r.workers iccid = some w ∧
      (r'.queue w).tasks = (r.queue w).tasks ++ [it] ∧
      ∀ w', w' ≠ w → r'.queue w' = r.queue w' := by
  unfold Registry.dispatch at hok
  cases hw : r.workers iccid with
  | none => simp only [hw, reduceCtorEq] at hok
  | some w =>
    cases hsend : (r.queue w).trySend it with
    | none => simp only [hw, hsend, reduceCtorEq] at hok
    | some q =>
      simp only [hw, hsend] at hok
      cases hok
      refine ⟨rfl, w, rfl, ?_, fun w' hne => Function.update_of_ne hne q r.queue⟩
      have hself : Function.update r.queue w q w = q := Function.update_self w q r.queue
      exact (congrArg TaskQueue.tasks hself).trans (TaskQueue.tasks_of_trySend hsend)

section

variable {h : Router.Host} {task : Task} {r : Router}

/-- Either there is no error and the registry has the task, or there is one and the registry is as
before. -/
theorem dispatch_cases (h : Router.Host) (task : Task) (r : Router) :
    ((r.dispatch h task).1 = none ∧ ∃ iccid, Router.extractICCID h task = .ok iccid ∧
        r.registry.dispatch iccid ⟨task, r.made⟩ = .ok (r.dispatch h task).2.registry) ∨
      (∃ text, (r.dispatch h task).1 = some text) ∧
        (r.dispatch h task).2.registry = r.registry := by
  unfold Router.dispatch
  cases hiccid : Router.extractICCID h task with
  | error text => exact .inr ⟨⟨_, rfl⟩, rfl⟩
  | ok iccid =>
    cases hdispatch : r.registry.dispatch iccid ⟨task, r.made⟩ with
    | ok registry =>
      simp only [hdispatch]
      exact .inl ⟨trivial, iccid, rfl, hdispatch⟩
    | error e =>
      simp only [hdispatch]
      cases e with
      | modemNotFound | modemBusy => exact .inr ⟨⟨_, rfl⟩, rfl⟩

end

section

variable {h : Router.Host} {t : Tunnel.Thread} {ms : ℤ} {g : Gateway}

/-! ### `handleInbound` -/

/-- `InboundTaskFn` is `Dispatch`. -/
theorem route_bind_ends {α : Type} {task : Task} {f : Option (List UInt8) → Io α}
    {Φ : α → Gateway → Prop} (hf : (f (g.router.dispatch h task).1).Ends (Gateway.exec h t ms)
      { g with router := (g.router.dispatch h task).2 } Φ) :
    (ask (.route task) >>= f).Ends (Gateway.exec h t ms) g Φ := by
  refine Prog.ends_perform_bind (g.router.dispatch h task).1
    { g with router := (g.router.dispatch h task).2 } (if_pos rfl) (fun err g' hexec => ?_) hf
  obtain ⟨herr, hsame⟩ := Option.ite_none_right_eq_some.mp hexec
  cases hsame
  exact ⟨herr, rfl⟩

/-- `makeErrorAck` changes nothing. -/
theorem makeErrorAck_ends (taskID err : List UInt8) :
    (makeErrorAck taskID err).Ends (Gateway.exec h t ms) g fun ack g' => g' = g ∧
      ack.envelope.type = .taskAck ∧ ack.envelope.messageID = taskID ∧ ack.status = .failed ∧
      ack.error = some ⟨.modemNotFound, err⟩ := by
  have henvelope : (newEnvelopeFrom .taskAck taskID).Ends (Gateway.exec h t ms) g
      fun envelope g' => g' = g ∧ envelope.type = .taskAck ∧ envelope.messageID = taskID := by
    refine Prog.ends_perform_bind g.world.clock g ?_ ?_ ⟨rfl, rfl, rfl⟩
    · exact congrArg (Option.map _) (if_pos rfl)
    · intro ns g' hexec
      obtain ⟨world, hworld, rfl⟩ := Option.map_eq_some_iff.mp hexec
      obtain ⟨hns, hsame⟩ := Option.ite_none_right_eq_some.mp hworld
      cases hsame
      exact ⟨hns, rfl⟩
  refine henvelope.bind ?_
  rintro envelope _ ⟨rfl, htype, hid⟩
  exact ⟨rfl, htype, hid, rfl, rfl⟩

/-- A push into an outbox that has room. -/
theorem push_ends (m : Outbound) (hroom : g.world.outbox.length < outboxCap) :
    (ask (.push m)).Ends (Gateway.exec h t ms) g fun _ g' =>
      g'.world.outbox = g.world.outbox ++ [m] ∧ g'.router = g.router := by
  refine ⟨⟨(), _, rfl⟩, fun _ g' hexec => ?_⟩
  have hmap : (g.world.exec t ms (.push m) ()).map (fun world => { g with world }) = some g' :=
    hexec
  obtain ⟨world, hworld, rfl⟩ := Option.map_eq_some_iff.mp hmap
  simp only [World.exec, if_pos hroom] at hworld
  cases hworld
  exact ⟨rfl, rfl⟩

/-- **Every task has one outcome.**  Let the outbox have room, and let a message unmarshal as a
task of type `TASK`.  Whatever the registry and the channels of its workers, `handleInbound` comes
to its end, and then exactly one of two things has happened: the task was appended to the channel of
the worker that is registered under the ICCID of its payload, or one failed `TASK_ACK` with its
message id was pushed.  The other channels, and in the second case all of them, are as before. -/
theorem routed_once (h : Router.Host) (codec : Codec) (t : Tunnel.Thread) (ms : ℤ) (g : Gateway)
    (raw : List UInt8) (m : TaskMessage) (hraw : codec.unmarshalTask raw = .ok m)
    (htype : m.envelope.type = MsgType.task.text) (hroom : g.world.outbox.length < outboxCap) :
    (handleInbound (codec.inbound raw)).Ends (Gateway.exec h t ms) g fun _ g' =>
      g'.router.registry.workers = g.router.registry.workers ∧
        Xor (Queued h m.task g g') (Refused m.task g g') := by
  rw [Codec.inbound_task hraw htype]
  refine route_bind_ends ?_
  -- `handleInbound` branches on the error of `Dispatch`
  rcases dispatch_cases h m.task g.router with ⟨hnone, iccid, hiccid, hok⟩ | ⟨⟨text, htext⟩, hsame⟩
  · rw [hnone]
    obtain ⟨hworkers, w, hw, htail, hothers⟩ := dispatch_ok hok
    have hqueued : Queued h m.task g { g with router := (g.router.dispatch h m.task).2 } :=
      ⟨iccid, w, g.router.made, hiccid, hw, htail, hothers, rfl⟩
    exact ⟨hworkers, .inl ⟨hqueued, hqueued.not_refused⟩⟩
  · rw [htext]
    -- the failed acknowledgement is made and pushed; the outbox has room for it
    refine (makeErrorAck_ends _ _).bind ?_
    rintro ack _ ⟨rfl, hacktype, hid, hstatus, -⟩
    refine (push_ends (g := { g with router := (g.router.dispatch h m.task).2 }) (.taskAck ack)
      hroom).mono fun _ g' hpush => ?_
    obtain ⟨hpushed, hrouter⟩ := hpush
    have hregistry : g'.router.registry = g.router.registry := by
      rw [hrouter]
      exact hsame
    have hrefused : Refused m.task g g' :=
      ⟨⟨ack, hpushed, hacktype, hid, hstatus⟩, congrArg Registry.queue hregistry⟩
    refine ⟨congrArg Registry.workers hregistry, .inr ⟨hrefused, fun hqueued => ?_⟩⟩
    exact hqueued.not_refused hrefused

end

/-! ### Messages on fixed inputs -/

/-- A host that knows the payloads of the SIM `1`. -/
def oneSIM : Router.Host := .ofSIM (Go.lit "1")

/-- The message of a task. -/
def checkMessage : TaskMessage where
  envelope := { type := MsgType.task.text, messageID := Go.lit "m1", ts := 0 }
  action := Go.lit "CHECK_SIGNAL"
  payload := Router.jsonICCID (Go.lit "1")

/-- The text of `checkMessage`. -/
def taskText : List UInt8 :=
  Go.lit "\x7b\"type\":\"TASK\",\"message_id\":\"m1\",\"action\":\"CHECK_SIGNAL\",\"payload\":" ++
    Router.jsonICCID (Go.lit "1") ++ Go.lit "\x7d"

/-- The acknowledgement of row 7. -/
def ackText : List UInt8 := Go.lit "\x7b\"type\":\"SMS_DELIVERED_ACK\",\"buffer_id\":7\x7d"

/-- What the fields of a message are if its text is one of the two.  JSON allows blanks behind a
text, and a field that is not there is empty or zero. -/
def fields (raw : List UInt8) : Except (List UInt8) (TaskMessage × ℤ) :=
  if Go.Strings.trimRight raw 0x20 = taskText then .ok (checkMessage, 0)
  else if Go.Strings.trimRight raw 0x20 = ackText then
    .ok (⟨{ type := MsgType.smsDeliveredAck.text, messageID := [], ts := 0 }, [], []⟩, 7)
  else .error (Go.lit "invalid character")

/-- The codec that knows the two texts only. -/
def textCodec : Codec where
  unmarshalEnvelope raw := (fields raw).map fun m => m.1.envelope
  unmarshalSMSDeliveredAck raw := (fields raw).map Prod.snd
  unmarshalTask raw := (fields raw).map Prod.fst
  envelope_of_task raw m hraw := by
    cases hfields : fields raw with
    | error err =>
      rw [hfields] at hraw
      cases hraw
    | ok both =>
      rw [hfields] at hraw
      cases hraw
      rfl

/-- A gateway with one worker, for the SIM `1`, and room for `capacity` tasks. -/
def oneWorker (capacity : ℕ) : Gateway where
  world := World.new .empty
  router :=
    { registry :=
        { workers := fun iccid => if iccid = Go.lit "1" then some 0 else none
          queue := fun _ => ⟨capacity, [], Nat.zero_le capacity⟩ }
      made := 0 }

/-- A gateway without workers. -/
def noWorkers (table : Buffer.Table) : Gateway where
  world := World.new table
  router :=
    { registry := { (oneWorker 0).router.registry with workers := fun _ => none }
      made := 0 }

theorem unmarshalTask_taskText : textCodec.unmarshalTask taskText = .ok checkMessage := by
  have hfields : fields taskText = .ok (checkMessage, 0) := if_pos (by decide)
  exact congrArg (Except.map Prod.fst) hfields

/-- The message has one outcome. -/
theorem routed_once_check :
    textCodec.unmarshalTask taskText = .ok checkMessage ∧
      (handleInbound (textCodec.inbound taskText)).Ends (Gateway.exec oneSIM .run 0) (oneWorker 1)
        fun _ g' => g'.router.registry.workers = (oneWorker 1).router.registry.workers ∧
          Xor (Queued oneSIM checkMessage.task (oneWorker 1) g')
            (Refused checkMessage.task (oneWorker 1) g') :=
  ⟨unmarshalTask_taskText, routed_once oneSIM textCodec .run 0 (oneWorker 1) taskText checkMessage
    unmarshalTask_taskText rfl (by decide)⟩

example : ((oneWorker 1).router.dispatch oneSIM checkMessage.task).1 = none := by
  decide

example : ((oneWorker 0).router.dispatch oneSIM checkMessage.task).1 =
    some (Go.lit "MODEM_BUSY: modem busy: task queue full") := by
  decide

/-! ### The channel of a worker -/

/-- The step of a worker's system in which `Dispatch` sends a task does to `inboundCh` what the
registry does to the worker's channel. -/
theorem outer_send_eq {O : Type} (s : Modem.World O) (q : TaskQueue) (task : Task)
    (hq : q.tasks = s.inboundCh) (hlookup : s.lookups ≠ 0) :
    ((Modem.Outer.send task).step q.capacity s).map (·.inboundCh) =
      some (((q.trySend ⟨task, s.dispatched.length⟩).getD q).tasks) := by
  simp only [Modem.Outer.step, if_neg hlookup, ← hq]
  by_cases hroom : q.tasks.length < q.capacity
  · simp only [TaskQueue.trySend, if_pos hroom, dif_pos hroom]
    rfl
  · simp only [TaskQueue.trySend, if_neg hroom, dif_neg hroom]
    rfl

end SmsGate
