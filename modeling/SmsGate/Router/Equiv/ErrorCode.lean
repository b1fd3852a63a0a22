import SmsGate.Router.Equiv.Outcome

/-!
# The error code of a refused task

The cloud decides by the error code of a failed `TASK_ACK` what to do with a task that was refused.
There are four causes, and a code for each of them (`refusalCode`).  `makeErrorAck` gets the text of
an error only, and looks for one text in it; its code is `MODEM_NOT_FOUND` whatever the text.

* `refusalCode_isSome_iff`: `Dispatch` fails just when there is a cause;
* `errorCode_iff`: the code names the cause iff no worker is registered under the ICCID.
-/

namespace SmsGate

open Tunnel
open Modem (Registry TaskQueue InboundTask)

/-! ### The causes -/

/-- The ICCID in the payload of a task, as far as the action has one: the error of the parser, or
the text of the field, which is empty if it is not there. -/
def payloadICCID (h : Router.Host) (task : Task) : Option (Except (List UInt8) (List UInt8)) :=
  match task.action with
  | .sendSMS => some ((h.unmarshalSendSMS task.payload).map (·.iccid))
  | .rebootModem => some ((h.unmarshalRebootModem task.payload).map (·.iccid))
  | .checkSignal => some ((h.unmarshalCheckSignal task.payload).map (·.iccid))
  | .deleteAllSMS => some ((h.unmarshalDeleteAllSMS task.payload).map (·.iccid))
  | .other _ => none

/-- What is in the way of a task at a registry: the code of the cause, if there is one. -/
def refusalCode (h : Router.Host) (task : Task) (r : Registry) : Option ErrCode :=
  match payloadICCID h task with
  | none => some .unsupportedAction
  | some (.error _) => some .invalidPayload
  | some (.ok iccid) =>
    if iccid = [] then some .invalidPayload
    else
      match r.workers iccid with
      | none => some .modemNotFound
      | some w =>
        if (r.queue w).tasks.length < (r.queue w).capacity then none else some .modemBusy

/-- No worker is registered under the ICCID of the payload. -/
def Unregistered (h : Router.Host) (task : Task) (r : Registry) : Prop :=
  ∃ iccid, iccid ≠ [] ∧ payloadICCID h task = some (.ok iccid) ∧ r.workers iccid = none

section

variable {h : Router.Host} {task : Task} {r : Registry}

/-- `extractICCID` wants an ICCID that is not empty. -/
theorem extractICCID_eq_ok_iff {iccid : List UInt8} :
    Router.extractICCID h task = .ok iccid ↔
      iccid ≠ [] ∧ payloadICCID h task = some (.ok iccid) := by
  have hrequire : ∀ action (parsed : Except (List UInt8) (List UInt8)),
      Router.requireICCID action parsed = .ok iccid ↔
        iccid ≠ [] ∧ some parsed = some (.ok iccid) := by
    intro action parsed
    cases parsed with
    | error text => simp [Router.requireICCID]
    | ok found =>
      unfold Router.requireICCID
      dsimp only
      split_ifs with hfound
      · subst hfound
        simp [eq_comm]
      · simp only [Except.ok.injEq, Option.some.injEq]
        constructor
        · rintro rfl
          exact ⟨hfound, rfl⟩
        · exact fun h => h.2
  unfold Router.extractICCID payloadICCID
  cases task.action with
  | other name => simp
  | _ => exact hrequire _ _

/-- A channel takes a task unless it is full. -/
theorem trySend_isSome_iff {q : TaskQueue} (it : InboundTask) :
    (q.trySend it).isSome ↔ q.tasks.length < q.capacity := by
  unfold TaskQueue.trySend
  split_ifs with hroom
  · simp [hroom]
  · simp [hroom]

/-- The registry takes a task iff there is a worker and room in its channel. -/
theorem registry_dispatch_isOk_iff {iccid : List UInt8} (it : InboundTask) :
    (∃ r', r.dispatch iccid it = .ok r') ↔
      ∃ w, r.workers iccid = some w ∧ (r.queue w).tasks.length < (r.queue w).capacity := by
  unfold Registry.dispatch
  cases hw : r.workers iccid with
  | none => simp only [reduceCtorEq, exists_false, false_and]
  | some w =>
    simp only [Option.some.injEq, exists_eq_left', ← trySend_isSome_iff it]
    cases (r.queue w).trySend it with
    | none => simp only [reduceCtorEq, exists_false, Option.isSome_none, Bool.false_eq_true]
    | some q => simp only [Except.ok.injEq, exists_eq', Option.isSome_some]

/-- With an ICCID, the cause is with the registry. -/
theorem refusalCode_of_ok {iccid : List UInt8} (hok : Router.extractICCID h task = .ok iccid) :
    refusalCode h task r =
      match r.workers iccid with
      | none => some .modemNotFound
      | some w =>
        if (r.queue w).tasks.length < (r.queue w).capacity then none else some .modemBusy := by
  obtain ⟨hne, hpayload⟩ := extractICCID_eq_ok_iff.mp hok
  unfold refusalCode
  rw [hpayload]
  exact if_neg hne

/-- Without one, the cause is the task itself. -/
theorem refusalCode_of_error {text : List UInt8}
    (herror : Router.extractICCID h task = .error text) :
    refusalCode h task r = some .unsupportedAction ∨
      refusalCode h task r = some .invalidPayload := by
  have hno : ∀ iccid, iccid ≠ [] → payloadICCID h task ≠ some (.ok iccid) := by
    intro iccid hne hpayload
    have hok := extractICCID_eq_ok_iff.mpr ⟨hne, hpayload⟩
    rw [herror] at hok
    cases hok
  unfold refusalCode
  cases hpayload : payloadICCID h task with
  | none => exact .inl rfl
  | some parsed =>
    cases parsed with
    | error text => exact .inr rfl
    | ok iccid =>
      have hempty : iccid = [] := by
        by_contra hne
        exact hno iccid hne hpayload
      exact .inr (if_pos hempty)

/-- Nothing is in the way of a task that has an ICCID, a worker, and room in the channel. -/
theorem refusalCode_eq_none_iff :
    refusalCode h task r = none ↔ ∃ iccid, Router.extractICCID h task = .ok iccid ∧
      ∃ w, r.workers iccid = some w ∧ (r.queue w).tasks.length < (r.queue w).capacity := by
  cases hiccid : Router.extractICCID h task with
  | error text =>
    have hcode : refusalCode h task r ≠ none := by
      rcases refusalCode_of_error (r := r) hiccid with hcode | hcode <;> rw [hcode] <;> nofun
    refine iff_of_false hcode ?_
    rintro ⟨iccid, hok, _⟩
    cases hok
  | ok iccid =>
    rw [refusalCode_of_ok hiccid]
    cases hw : r.workers iccid with
    | none => simp [hw]
    | some w => simp [hw]

/-- The code of a missing worker. -/
theorem refusalCode_eq_modemNotFound_iff :
    refusalCode h task r = some .modemNotFound ↔ Unregistered h task r := by
  cases hiccid : Router.extractICCID h task with
  | error text =>
    have hcode : refusalCode h task r ≠ some .modemNotFound := by
      rcases refusalCode_of_error (r := r) hiccid with hcode | hcode <;> rw [hcode] <;> nofun
    refine iff_of_false hcode ?_
    rintro ⟨iccid, hne, hpayload, _⟩
    have hok := extractICCID_eq_ok_iff.mpr ⟨hne, hpayload⟩
    rw [hiccid] at hok
    cases hok
  | ok iccid =>
    obtain ⟨hne, hpayload⟩ := extractICCID_eq_ok_iff.mp hiccid
    rw [refusalCode_of_ok hiccid]
    constructor
    · intro hcode
      refine ⟨iccid, hne, hpayload, ?_⟩
      cases hw : r.workers iccid with
      | none => rfl
      | some w =>
        rw [hw] at hcode
        dsimp only at hcode
        split_ifs at hcode
        cases hcode
    · rintro ⟨iccid', _, hpayload', hw⟩
      cases hpayload.symm.trans hpayload'
      rw [hw]

end

/-- **Every failure has a cause**, and where there is a cause `Dispatch` fails. -/
theorem refusalCode_isSome_iff (h : Router.Host) (task : Task) (r : Router) :
    (refusalCode h task r.registry).isSome ↔ (r.dispatch h task).1 ≠ none := by
  rw [Option.isSome_iff_ne_none, Ne, Ne, not_iff_not, refusalCode_eq_none_iff]
  rcases dispatch_cases h task r with ⟨hnone, iccid, hiccid, hdispatch⟩ | ⟨⟨text, htext⟩, -⟩
  · exact iff_of_true ⟨iccid, hiccid, (registry_dispatch_isOk_iff _).mp ⟨_, hdispatch⟩⟩ hnone
  · refine iff_of_false ?_ fun hnone => ?_
    · rintro ⟨iccid, hiccid, hroom⟩
      obtain ⟨registry, hdispatch⟩ := (registry_dispatch_isOk_iff ⟨task, r.made⟩).mpr hroom
      unfold Router.dispatch at htext
      simp only [hiccid, hdispatch, reduceCtorEq] at htext
    · rw [htext] at hnone
      cases hnone

/-! ### The acknowledgement -/

/-- The messages that a call pushes. -/
def Tunnel.Call.pushes : Tunnel.Call → List Outbound
  | .push m => [m]
  | _ => []

/-- A refused task is answered by one failed `TASK_ACK`, and its code is always the same. -/
theorem handleInbound_refused {h : Router.Host} {codec : Codec} {t : Tunnel.Thread} {ms : ℤ}
    {g : Gateway} {raw text : List UInt8} {m : TaskMessage} (hraw : codec.unmarshalTask raw = .ok m)
    (htype : m.envelope.type = MsgType.task.text)
    (htext : (g.router.dispatch h m.task).1 = some text) :
    (handleInbound (codec.inbound raw)).Ends (Prog.logged Call.pushes (Gateway.exec h t ms)) (g, [])
      fun _ log => ∃ ack, log.2 = [.taskAck ack] ∧ ack.status = .failed ∧
        ack.envelope.messageID = m.task.messageID ∧
        ack.error = some ⟨.modemNotFound, text⟩ := by
  rw [Codec.inbound_task hraw htype]
  refine Prog.ends_perform_bind (some text)
    ({ g with router := (g.router.dispatch h m.task).2 }, []) ?_ ?_ ?_
  · exact Prog.logged_eq_some.mpr ⟨if_pos htext.symm, rfl⟩
  · rintro err ⟨g', log⟩ hexec
    obtain ⟨hroute, hlog⟩ := Prog.logged_eq_some.mp hexec
    obtain ⟨herr, hsame⟩ := Option.ite_none_right_eq_some.mp hroute
    cases hsame
    cases hlog
    exact ⟨herr.trans htext, rfl⟩
  -- the acknowledgement is made, which pushes nothing, and is pushed
  refine ((makeErrorAck_ends _ text).logged ?_ []).bind ?_
  · exact ⟨rfl, fun _ => trivial⟩
  rintro ack ⟨g', log⟩ ⟨⟨rfl, _, hid, hstatus, herror⟩, rfl⟩
  refine ⟨⟨(), _, rfl⟩, fun _ q hpush => ?_⟩
  obtain ⟨-, hlog⟩ := Prog.logged_eq_some.mp hpush
  exact ⟨ack, hlog, hstatus, hid, herror⟩

/-- **Which refusals have the right code.**  Whatever the registry, the channels of its workers and
the outbox, for a message that is a task which `Dispatch` refuses `handleInbound` comes to its end
and has pushed one failed `TASK_ACK` for it.  The error code of this one names the cause iff the
cause is that no worker is registered under the ICCID of the payload. -/
theorem errorCode_iff (h : Router.Host) (codec : Codec) (t : Tunnel.Thread) (ms : ℤ) (g : Gateway)
    (raw : List UInt8) (m : TaskMessage) (hraw : codec.unmarshalTask raw = .ok m)
    (htype : m.envelope.type = MsgType.task.text)
    (hfails : (g.router.dispatch h m.task).1 ≠ none) :
    (handleInbound (codec.inbound raw)).Ends (Prog.logged Call.pushes (Gateway.exec h t ms)) (g, [])
      fun _ log => ∃ ack error, log.2 = [.taskAck ack] ∧ ack.status = .failed ∧
        ack.envelope.messageID = m.task.messageID ∧ ack.error = some error ∧
        (refusalCode h m.task g.router.registry = some error.code ↔
          Unregistered h m.task g.router.registry) := by
  obtain ⟨text, htext⟩ := Option.ne_none_iff_exists'.mp hfails
  refine (handleInbound_refused hraw htype htext).mono fun _ log hlog => ?_
  obtain ⟨ack, hpushed, hstatus, hid, herror⟩ := hlog
  exact ⟨ack, _, hpushed, hstatus, hid, herror, refusalCode_eq_modemNotFound_iff⟩

/-- There is no worker: the code is right. -/
theorem errorCode_iff_unregistered :
    Unregistered oneSIM checkMessage.task (noWorkers .empty).router.registry ∧
    (handleInbound (textCodec.inbound taskText)).Ends
      (Prog.logged Call.pushes (Gateway.exec oneSIM .run 0)) (noWorkers .empty, [])
      fun _ log => ∃ ack error, log.2 = [.taskAck ack] ∧ ack.status = .failed ∧
        ack.envelope.messageID = checkMessage.task.messageID ∧ ack.error = some error ∧
        (refusalCode oneSIM checkMessage.task (noWorkers .empty).router.registry = some error.code ↔
          Unregistered oneSIM checkMessage.task (noWorkers .empty).router.registry) :=
  ⟨⟨Go.lit "1", by decide, rfl, rfl⟩,
    errorCode_iff oneSIM textCodec .run 0 (noWorkers .empty) taskText checkMessage
      unmarshalTask_taskText rfl (by decide)⟩

/-- The channel of the worker is full: the code should be `MODEM_BUSY`, and it is
`MODEM_NOT_FOUND`. -/
theorem not_errorCode_busy :
    refusalCode oneSIM checkMessage.task (oneWorker 0).router.registry = some .modemBusy ∧
    (handleInbound (textCodec.inbound taskText)).Ends
      (Prog.logged Call.pushes (Gateway.exec oneSIM .run 0)) (oneWorker 0, [])
      fun _ log => ∃ ack, log.2 = [.taskAck ack] ∧
        ack.error.map TaskError.code = some .modemNotFound := by
  refine ⟨by decide, ?_⟩
  have htext : ((oneWorker 0).router.dispatch oneSIM checkMessage.task).1 =
      some (Go.lit "MODEM_BUSY: modem busy: task queue full") := by
    decide
  refine Prog.Ends.mono (handleInbound_refused unmarshalTask_taskText rfl htext)
    fun _ log hlog => ?_
  obtain ⟨ack, hpushed, _, _, herror⟩ := hlog
  refine ⟨ack, hpushed, ?_⟩
  rw [herror]
  rfl

end SmsGate
