import SmsGate.Modem.Equiv.Runs

/-!
# What a task asks of the modem

`duty` is what a task is for: the commands that the modem is to be given, in order.  While a worker
executes a task it passes these commands only to `Execute` and `ExecuteSend`, each one when the call
for the one before it has returned without an error, and it tells of a success when that for the
last one has.  Beside that, a worker sends no `AT+CMGS` at all.  `Run` keeps to this from its start
to its end (`dutyRun`).
-/

namespace SmsGate.Modem

open Tunnel

/-- The commands that send the parts of a message. -/
def sendCalls (parts : List At.EncodedPDU) : List Call :=
  parts.map fun part => .executeSend part.hexStr part.length

/-- The commands that a task asks for, in order; `none` if it is to be refused. -/
def duty (h : Host) (task : Task) : Option (List Call) :=
  match task.action with
  | .sendSMS =>
    match h.unmarshalSendSMS task.payload with
    | .error _ => none
    | .ok p =>
      match checkSendSMS h p, At.encodePDU p.dest p.body p.encoding with
      | .ok _, .ok parts => some (sendCalls parts)
      | _, _ => none
  | .rebootModem =>
    match h.unmarshalRebootModem task.payload with
    | .error _ => none
    | .ok p =>
      some (if p.hard then [.execute .hardReset] else [.execute .radioOff, .execute .radioOn])
  | .checkSignal => some [.execute .signalQuality, .execute .registrationStatus]
  | .deleteAllSMS => some [.execute .deleteAllSMS]
  | .other _ => none

/-- How far a worker is with a task. -/
structure Progress where
  task : Task
  /-- It was taken to be executed. -/
  executed : Bool
  /-- The commands that were given to the modem since. -/
  given : List Call
  /-- The last one has returned an error. -/
  failed : Bool
  deriving DecidableEq

namespace Progress

/-- A task that has just been taken. -/
def start (task : Task) (executed : Bool) : Progress := ⟨task, executed, [], false⟩

/-- A command is given to the modem, without an error or with one. -/
def give (p : Progress) (e : Call) (ok : Bool) : Progress :=
  { p with given := p.given ++ [e], failed := !ok }

/-- The next command is this one. -/
def Due (h : Host) (p : Progress) (e : Call) : Prop :=
  p.executed = true ∧ p.failed = false ∧
    ∃ cmds, duty h p.task = some cmds ∧ p.given ++ [e] <+: cmds

/-- All commands have been given, without an error. -/
def Done (h : Host) (p : Progress) : Prop :=
  p.executed = true ∧ p.failed = false ∧ duty h p.task = some p.given

/-- What a call of a worker does to it. -/
def after (q : Option Progress) : (e : Call) → e.Ans → Option Progress
  | .select, (.task it : Selected) => some (start it.task true)
  | .tryRecv, (some it : Option InboundTask) => some (start it.task false)
  | .execute c, (res : Except At.Err (List At.Line)) => q.map fun p => p.give (.execute c) res.isOk
  | .executeSend hex n, (res : Except At.Err ℤ) =>
    q.map fun p => p.give (.executeSend hex n) res.isOk
  | .ack _ _, _ => none
  | _, _ => q

end Progress

/-- A worker that has a task does what the task asks for, and nothing else. -/
def dutyProtocol (h : Host) : Protocol Call Call.Ans (Option Progress) where
  allows q e :=
    match e with
    | .executeSend _ _ => ∃ p, q = some p ∧ p.Due h e
    | .execute _ => ∀ p, q = some p → p.Due h e
    | .ack _ a => ∃ p, q = some p ∧ a.envelope.messageID = p.task.messageID ∧
      (a.status = .success → p.Done h)
    | .select | .tryRecv => q = none
    | _ => True
  next := Progress.after

/-! ### Tasks -/

section

variable {h : Host} {id : Identity} {task : Task} {q : Option Progress}

/-- The calls that are no part of a task. -/
def Call.offDuty : Call → Bool
  | .execute _ | .executeSend _ _ | .ack _ _ | .select | .tryRecv => false
  | _ => true

theorem dutyProtocol_offDuty (e : Call) (he : e.offDuty = true) :
    (dutyProtocol h).allows q e ∧ ∀ a, (dutyProtocol h).next q e a = q := by
  cases e with
  | execute | executeSend | ack | select | tryRecv => cases he
  | _ => exact ⟨trivial, fun _ => rfl⟩

theorem offDuty_bind_obeys {α : Type} {e : Call} {f : e.Ans → Work α}
    {Φ : α → Option Progress → Prop} (he : e.offDuty = true)
    (hf : ∀ a, (f a).Obeys (dutyProtocol h) q Φ) : (ask e >>= f).Obeys (dutyProtocol h) q Φ :=
  Prog.Calls.bind_obeys (calls_ask he) dutyProtocol_offDuty hf

/-- What a task has come to when its method returns. -/
def TaskEnds (h : Host) (task : Task) (res : TaskResult) (q : Option Progress) : Prop :=
  ∃ p, q = some p ∧ p.task = task ∧ (∀ result, res = .ok result → p.Done h)

theorem taskEnds_error {e : TaskError} {p : Progress} (hp : p.task = task) :
    TaskEnds h task (.error e) (some p) := ⟨p, rfl, hp, nofun⟩

/-- The next command is given; if it fails, so does the task. -/
theorem give_bind_obeys {α : Type} {c : At.Cmd} {p : Progress}
    {f : Except At.Err (List At.Line) → Work α} {Φ : α → Option Progress → Prop}
    (hdue : p.Due h (.execute c))
    (herror : ∀ e, (f (.error e)).Obeys (dutyProtocol h) (some (p.give (.execute c) false)) Φ)
    (hok : ∀ lines, (f (.ok lines)).Obeys (dutyProtocol h) (some (p.give (.execute c) true)) Φ) :
    (execute c >>= f).Obeys (dutyProtocol h) (some p) Φ := by
  refine Prog.perform_bind_obeys ?_ fun (res : Except At.Err (List At.Line)) => ?_
  · rintro _ ⟨⟩
    exact hdue
  · cases res with
    | error e => exact herror e
    | ok lines => exact hok lines

/-- The parts of a message are sent in order, until one fails. -/
theorem sendParts_obeys_duty {cmds : List Call} (hduty : duty h task = some cmds) (total i : ℕ)
    {parts : List At.EncodedPDU} {given : List Call} (hparts : given ++ sendCalls parts = cmds) :
    (sendParts h total i parts).Obeys (dutyProtocol h) (some ⟨task, true, given, false⟩)
      fun res q => ∃ p, q = some p ∧ p.task = task ∧
        (res = .ok () → p = ⟨task, true, cmds, false⟩) := by
  induction parts generalizing i given with
  | nil =>
    rw [sendCalls, List.map_nil, List.append_nil] at hparts
    subst hparts
    exact ⟨_, rfl, rfl, fun _ => rfl⟩
  | cons part parts ih =>
    have hnext : (given ++ [.executeSend part.hexStr part.length]) ++ sendCalls parts = cmds := by
      rw [List.append_assoc]
      exact hparts
    refine Prog.perform_bind_obeys ?_ fun (sent : Except At.Err ℤ) => ?_
    · exact ⟨_, rfl, rfl, rfl, cmds, hduty, hnext ▸ List.prefix_append _ _⟩
    · cases sent with
      | error e => exact ⟨_, rfl, rfl, nofun⟩
      | ok n => exact ih (i + 1) hnext

theorem doSendSMS_obeys_duty (haction : task.action = .sendSMS) :
    (doSendSMS h id task).Obeys (dutyProtocol h) (some (.start task true)) (TaskEnds h task) := by
  unfold doSendSMS
  cases hp : h.unmarshalSendSMS task.payload with
  | error text => exact taskEnds_error rfl
  | ok p =>
    dsimp only
    cases hcheck : checkSendSMS h p with
    | error e => exact taskEnds_error rfl
    | ok _ =>
      refine offDuty_bind_obeys rfl fun (allowed : Bool) => ?_
      cases allowed with
      | false => exact taskEnds_error rfl
      | true =>
        rw [if_neg (by decide)]
        cases hencode : At.encodePDU p.dest p.body p.encoding with
        | error e =>
          cases e
          exact taskEnds_error rfl
        | ok parts =>
          have hduty : duty h task = some (sendCalls parts) := by
            simp only [duty, haction, hp, hcheck, hencode]
          refine (sendParts_obeys_duty hduty _ _ rfl).bind ?_
          rintro res _ ⟨p', rfl, htask, hdone⟩
          cases res with
          | error e => exact taskEnds_error htask
          | ok _ =>
            obtain rfl := hdone rfl
            refine offDuty_bind_obeys rfl fun rssi => offDuty_bind_obeys rfl fun stat => ?_
            cases h.marshalSendSMSResult _ with
            | error text => exact taskEnds_error rfl
            | ok json => exact ⟨_, rfl, rfl, fun _ _ => ⟨rfl, rfl, hduty⟩⟩

theorem doRebootModem_obeys_duty (haction : task.action = .rebootModem) :
    (doRebootModem h task).Obeys (dutyProtocol h) (some (.start task true)) (TaskEnds h task) := by
  unfold doRebootModem
  cases hp : h.unmarshalRebootModem task.payload with
  | error text => exact taskEnds_error rfl
  | ok p =>
    have hduty : duty h task = some
        (if p.hard then [.execute .hardReset] else [.execute .radioOff, .execute .radioOn]) := by
      simp only [duty, haction, hp]
    dsimp only
    split_ifs with hhard
    · rw [if_pos hhard] at hduty
      refine give_bind_obeys ⟨rfl, rfl, _, hduty, List.prefix_rfl⟩ (fun e => taskEnds_error rfl)
        fun lines => ?_
      exact ⟨_, rfl, rfl, fun _ _ => ⟨rfl, rfl, hduty⟩⟩
    · rw [if_neg hhard] at hduty
      refine give_bind_obeys ⟨rfl, rfl, _, hduty, List.prefix_append _ [_]⟩
        (fun e => taskEnds_error rfl) fun lines => offDuty_bind_obeys rfl fun _ => ?_
      refine give_bind_obeys ⟨rfl, rfl, _, hduty, List.prefix_rfl⟩ (fun e => taskEnds_error rfl)
        fun lines => ?_
      exact ⟨_, rfl, rfl, fun _ _ => ⟨rfl, rfl, hduty⟩⟩

theorem doCheckSignal_obeys_duty (haction : task.action = .checkSignal) :
    (doCheckSignal h).Obeys (dutyProtocol h) (some (.start task true)) (TaskEnds h task) := by
  have hduty : duty h task =
      some [.execute .signalQuality, .execute .registrationStatus] := by
    simp only [duty, haction]
  refine give_bind_obeys ⟨rfl, rfl, _, hduty, List.prefix_append _ [_]⟩
    (fun e => taskEnds_error rfl) fun lines => ?_
  -- the command has returned without an error; what the modem said may still be of no use
  cases (Except.ok lines : Except At.Err _).bind At.signalOf with
  | error e => exact taskEnds_error rfl
  | ok rssi =>
    refine give_bind_obeys ⟨rfl, rfl, _, hduty, List.prefix_rfl⟩ (fun e => taskEnds_error rfl)
      fun lines => ?_
    cases (Except.ok lines : Except At.Err _).bind At.registrationOf with
    | error e => exact taskEnds_error rfl
    | ok stat =>
      refine offDuty_bind_obeys rfl fun _ => offDuty_bind_obeys rfl fun _ => ?_
      cases h.marshalCheckSignalResult _ with
      | error text => exact taskEnds_error rfl
      | ok json => exact ⟨_, rfl, rfl, fun _ _ => ⟨rfl, rfl, hduty⟩⟩

theorem doDeleteAllSMS_obeys_duty (haction : task.action = .deleteAllSMS) :
    (doDeleteAllSMS h).Obeys (dutyProtocol h) (some (.start task true)) (TaskEnds h task) := by
  have hduty : duty h task = some [.execute .deleteAllSMS] := by
    simp only [duty, haction]
  refine give_bind_obeys ⟨rfl, rfl, _, hduty, List.prefix_rfl⟩ (fun e => taskEnds_error rfl)
    fun lines => ?_
  exact ⟨_, rfl, rfl, fun _ _ => ⟨rfl, rfl, hduty⟩⟩

theorem doTask_obeys_duty :
    (doTask h id task).Obeys (dutyProtocol h) (some (.start task true)) (TaskEnds h task) := by
  unfold doTask
  cases haction : task.action with
  | sendSMS => exact doSendSMS_obeys_duty haction
  | rebootModem => exact doRebootModem_obeys_duty haction
  | checkSignal => exact doCheckSignal_obeys_duty haction
  | deleteAllSMS => exact doDeleteAllSMS_obeys_duty haction
  | other name => exact taskEnds_error rfl

theorem executeTask_obeys_duty (it : InboundTask) :
    (executeTask h id it).Obeys (dutyProtocol h) (some (.start it.task true))
      fun _ q => q = none := by
  refine offDuty_bind_obeys rfl fun _ => offDuty_bind_obeys rfl fun _ =>
    doTask_obeys_duty.bind ?_
  rintro res _ ⟨p, rfl, htask, hdone⟩
  refine offDuty_bind_obeys rfl fun (ns : ℤ) => ?_
  refine Prog.perform_bind_obeys ⟨p, rfl, ?_, ?_⟩ fun _ => offDuty_bind_obeys rfl fun _ => rfl
  · rw [htask]
    cases res <;> rfl
  · cases res with
    | error e => exact nofun
    | ok result => exact fun _ => hdone result rfl

end

/-! ### `Run` -/

/-- The calls of a worker that has no task. -/
def Call.idle : Call → Bool
  | .executeSend _ _ | .ack _ _ | .select | .tryRecv => false
  | _ => true

section

variable {h : Host}

theorem dutyProtocol_idle (e : Call) (he : e.idle = true) :
    (dutyProtocol h).allows none e ∧ ∀ a, (dutyProtocol h).next none e a = none := by
  cases e with
  | executeSend | ack | select | tryRecv => cases he
  | execute => exact ⟨nofun, fun _ => rfl⟩
  | _ => exact ⟨trivial, fun _ => rfl⟩

theorem idle_bind_obeys {α : Type} {e : Call} {f : e.Ans → Work α}
    {Φ : α → Option Progress → Prop} (he : e.idle = true)
    (hf : ∀ a, (f a).Obeys (dutyProtocol h) none Φ) :
    (ask e >>= f).Obeys (dutyProtocol h) none Φ :=
  Prog.Calls.bind_obeys (calls_ask he) dutyProtocol_idle hf

/-- Only the handler of a task sends and acknowledges. -/
theorem idle_handle (w : Worker) (id : Identity) {selected : Selected}
    (hne : ∀ it, selected ≠ .task it) :
    (handle h w id selected).Calls fun e => e.idle = true := by
  refine (calls_handle h w id selected).mono fun e he => ?_
  cases e with
  | executeSend | ack =>
    obtain ⟨it, htask⟩ := he.task rfl
    exact absurd htask (hne it)
  | select | tryRecv => cases he.ofRun
  | _ => rfl

theorem handle_obeys_duty (w : Worker) (id : Identity) (selected : Selected) :
    (handle h w id selected).Obeys (dutyProtocol h) (Progress.after none .select selected)
      fun _ q => q = none := by
  cases selected with
  | task it => exact executeTask_obeys_duty it
  | _ =>
    refine Prog.Calls.obeys (idle_handle w id ?_) dutyProtocol_idle fun _ => rfl
    exact fun _ => nofun

/-- The blocks of `Run` start and end without a task. -/
abbrev DutyEnds : Label ⊕ Exit → Option Progress → Prop :=
  RunEnds (fun l q => l ≠ .watchdog ∧ q = none) fun _ q => q = none

theorem drainInboundCh_obeys_duty : drainInboundCh.Obeys (dutyProtocol h) none DutyEnds := by
  refine Prog.perform_bind_obeys rfl fun (received : Option InboundTask) => ?_
  cases received with
  | some it =>
    refine offDuty_bind_obeys rfl fun (ns : ℤ) => ?_
    -- nothing was done, and the `TASK_ACK` says that the task failed
    exact Prog.perform_bind_obeys ⟨_, rfl, rfl, fun hs => by cases hs⟩ fun _ => ⟨by simp, rfl⟩
  | none => exact idle_bind_obeys rfl fun _ => idle_bind_obeys rfl fun _ => rfl

end

/-- `Run` keeps to `dutyProtocol`. -/
def dutyRun (h : Host) (w : Worker) : RunProof h w (dutyProtocol h) where
  head l q := l ≠ .watchdog ∧ q = none
  final _ q := q = none
  not_watchdog _ hq := hq.1 rfl
  init_obeys q hq := by
    refine init_obeys_of_keeps h w (I := (· = none)) (fun q e hq he => ?_) hq.2
      (fun _ _ hq => ⟨nofun, hq⟩) fun _ hq => hq
    subst hq
    refine dutyProtocol_idle e ?_
    cases e with
    | executeSend | ack | select | tryRecv => cases he
    | _ => rfl
  main_obeys id q hq := by
    rw [hq.2]
    refine mainLoop_obeys_of_keeps h w id (I := (· = none)) rfl ⟨trivial, nofun, rfl⟩
      (handle_obeys_duty w id) (fun q e hq he => ?_) (fun _ hq => ⟨nofun, hq⟩) fun _ _ hq => hq
    subst hq
    refine dutyProtocol_idle e ?_
    cases e with
    | executeSend | ack | select | tryRecv => cases he
    | _ => rfl
  drain_obeys q hq := by
    rw [hq.2]
    exact drainInboundCh_obeys_duty

end SmsGate.Modem
