import SmsGate.Gateway.Equiv.Routing
import SmsGate.Modem.Equiv.Duty

/-!
# What a `TASK_ACK` is worth

A `TASK_ACK` with `SUCCESS` means that `Execute` or `ExecuteSend` has returned without an error for
every command that the task asks for, in order, since the worker took the task (`success_done`); the
answer that they went by can still be that of an earlier command.  For `SEND_SMS` the commands are
the parts of the message.  And a modem is asked to send nothing else: what it has been given to send
in a run are, task after task, the first parts of the message of each `SEND_SMS` that its workers
have taken (`submitted_in_order`).
-/

namespace SmsGate.Gateway

open Go Tunnel Modem

variable {ι : Type}

/-- The part of a message that a command sends. -/
def submitted : Modem.Call → Option (List UInt8 × ℕ)
  | .executeSend hex n => some (hex, n)
  | _ => none

/-- What the modem is to send for a task. -/
def submissions (h : Modem.Host) (task : Task) : List (List UInt8 × ℕ) :=
  ((duty h task).getD []).filterMap submitted

/-- The part of a message that a call submits. -/
def Call.submits : Call ι → List (List UInt8 × ℕ)
  | .modem (.work e) => (submitted e).toList
  | _ => []

section History

variable [DecidableEq ι] (i : ι) (past : History ι)

/-- How far the worker of a modem is with its task. -/
def progress : Option Progress := followWorker Progress.after none i past

/-- The tasks that the workers of a modem have taken to execute them, in order. -/
def executedBy : List Task :=
  System.collectedCalls (fun t _ c a => if t = .modem i .supervisor then c.executes a else []) past

/-- What the workers of a modem have submitted, in order. -/
def submittedBy : List (List UInt8 × ℕ) :=
  System.collectedCalls (fun t _ c _ => if t = .modem i .supervisor then c.submits else []) past

end History

/-! ### Task after task -/

/-- For each task, what was submitted of its message. -/
structure Submits [DecidableEq ι] (h : Modem.Host) (i : ι) (past : History ι)
    (log : List (Task × List (List UInt8 × ℕ))) : Prop where
  tasks : log.map Prod.fst = executedBy i past
  parts : ∀ x ∈ log, x.2 <+: submissions h x.1
  all : log.flatMap Prod.snd = submittedBy i past
  /-- The last one is the one in progress. -/
  last : ∀ p, progress i past = some p → p.executed = true →
    ∃ old, log = old ++ [(p.task, p.given.filterMap submitted)]

section Steps

variable [DecidableEq ι] {h : Modem.Host} {i : ι} {past : History ι}
  {log : List (Task × List (List UInt8 × ℕ))} {e : Modem.Call} {a : e.Ans} {s : World ι}

theorem progress_work : progress i (.call (.modem i .supervisor) (.modem (.work e)) a s :: past) =
    Progress.after (progress i past) e a := if_pos rfl

theorem executedBy_call (t : Thread ι) (c : Call ι) (a : c.Ans) :
    executedBy i (.call t c a s :: past) =
      executedBy i past ++ if t = .modem i .supervisor then c.executes a else [] := rfl

theorem submittedBy_call (t : Thread ι) (c : Call ι) (a : c.Ans) :
    submittedBy i (.call t c a s :: past) =
      submittedBy i past ++ if t = .modem i .supervisor then c.submits else [] := rfl

theorem executedBy_work :
    executedBy i (.call (.modem i .supervisor) (.modem (.work e)) a s :: past) =
      executedBy i past ++ (Call.modem (.work e) : Call ι).executes a := by
  rw [executedBy_call, if_pos rfl]

theorem submittedBy_work :
    submittedBy i (.call (.modem i .supervisor) (.modem (.work e)) a s :: past) =
      submittedBy i past ++ (submitted e).toList := by
  rw [submittedBy_call, if_pos rfl]
  rfl

/-- A call that neither takes a task nor submits anything. -/
theorem Submits.same {x : System.Occurrence (Thread ι) (World ι) (Call ι) Call.Ans (Outer ι)}
    (hlog : Submits h i past log) (hexecuted : executedBy i (x :: past) = executedBy i past)
    (hsubmitted : submittedBy i (x :: past) = submittedBy i past)
    (hprogress : ∀ p, progress i (x :: past) = some p → p.executed = true →
      ∃ p₀, progress i past = some p₀ ∧ p₀.executed = true ∧ p.task = p₀.task ∧
        p.given.filterMap submitted = p₀.given.filterMap submitted) :
    Submits h i (x :: past) log where
  tasks := hexecuted ▸ hlog.tasks
  parts := hlog.parts
  all := hsubmitted ▸ hlog.all
  last p hp hexec := by
    obtain ⟨p₀, hp₀, hexec₀, htask, hgiven⟩ := hprogress p hp hexec
    obtain ⟨old, hold⟩ := hlog.last p₀ hp₀ hexec₀
    exact ⟨old, by rw [hold, htask, hgiven]⟩

/-- A worker takes a task. -/
theorem Submits.take (hlog : Submits h i past log) (it : InboundTask) :
    Submits h i (takes i it s :: past) (log ++ [(it.task, [])]) := by
  have hexecuted : executedBy i (takes i it s :: past) = executedBy i past ++ [it.task] :=
    executedBy_work
  have hsubmitted : submittedBy i (takes i it s :: past) = submittedBy i past ++ [] :=
    submittedBy_work
  have hprogress : progress i (takes i it s :: past) = some (.start it.task true) := progress_work
  refine ⟨?_, fun x hx => ?_, ?_, fun p hp _ => ?_⟩
  · rw [hexecuted, List.map_append, hlog.tasks]
    rfl
  · rcases List.mem_append.mp hx with hold | hnew
    · exact hlog.parts x hold
    · rw [List.mem_singleton.mp hnew]
      exact List.nil_prefix
  · rw [hsubmitted, List.flatMap_append, hlog.all]
    rfl
  · rw [hprogress] at hp
    cases hp
    exact ⟨log, rfl⟩

/-- A worker submits the next part. -/
theorem Submits.submit {hex : List UInt8} {n : ℕ} {a : (Modem.Call.executeSend hex n).Ans}
    {p : Progress}
    (hlog : Submits h i past log) (hp : progress i past = some p)
    (hdue : p.Due h (.executeSend hex n)) :
    ∃ log', Submits h i
      (.call (.modem i .supervisor) (.modem (.work (.executeSend hex n))) a s :: past) log' := by
  obtain ⟨hexecuted, -, cmds, hduty, hprefix⟩ := hdue
  obtain ⟨old, rfl⟩ := hlog.last p hp hexecuted
  have hgiven : (p.given ++ [Modem.Call.executeSend hex n]).filterMap submitted =
      p.given.filterMap submitted ++ [(hex, n)] := List.filterMap_append
  refine ⟨old ++ [(p.task, p.given.filterMap submitted ++ [(hex, n)])], ?_, ?_, ?_, ?_⟩
  · rw [executedBy_work, ← hlog.tasks, List.map_append, List.map_append]
    exact (List.append_nil _).symm
  · intro x hx
    rcases List.mem_append.mp hx with hold | hnew
    · exact hlog.parts x (List.mem_append_left _ hold)
    · rw [List.mem_singleton.mp hnew, ← hgiven]
      have hall : submissions h p.task = cmds.filterMap submitted := by
        rw [submissions, hduty, Option.getD_some]
      rw [hall]
      exact hprefix.filterMap submitted
  · rw [submittedBy_work, ← hlog.all, List.flatMap_append, List.flatMap_append, List.append_assoc]
    simp only [List.flatMap_singleton]
    rfl
  · intro p' hp' _
    rw [progress_work, hp] at hp'
    cases hp'
    exact ⟨old, by rw [← hgiven]; rfl⟩

/-- The calls of a worker. -/
theorem Submits.work (hlog : Submits h i past log)
    (hallow : (dutyProtocol h).allows (progress i past) e) :
    ∃ log', Submits h i (.call (.modem i .supervisor) (.modem (.work e)) a s :: past) log' := by
  have hsame : (Call.modem (.work e) : Call ι).executes a = [] → submitted e = none →
      (∀ p, Progress.after (progress i past) e a = some p → p.executed = true →
        ∃ p₀, progress i past = some p₀ ∧ p₀.executed = true ∧ p.task = p₀.task ∧
          p.given.filterMap submitted = p₀.given.filterMap submitted) →
      Submits h i (.call (.modem i .supervisor) (.modem (.work e)) a s :: past) log := by
    intro hexecutes hsubmitted hprogress
    refine hlog.same ?_ ?_ fun p hp => ?_
    · rw [executedBy_work, hexecutes, List.append_nil]
    · rw [submittedBy_work, hsubmitted]
      exact List.append_nil _
    · rw [progress_work] at hp
      exact hprogress p hp
  have hstay : ∀ p, progress i past = some p → p.executed = true →
      ∃ p₀, progress i past = some p₀ ∧ p₀.executed = true ∧ p.task = p₀.task ∧
        p.given.filterMap submitted = p₀.given.filterMap submitted :=
    fun p hp hexec => ⟨p, hp, hexec, rfl, rfl⟩
  cases e with
  | select =>
    cases a with
    | task it => exact ⟨_, hlog.take it⟩
    | _ => exact ⟨log, hsame rfl rfl hstay⟩
  | tryRecv =>
    refine ⟨log, hsame rfl rfl fun p hp hexec => ?_⟩
    cases a with
    | none => exact hstay p hp hexec
    | some it =>
      cases hp
      cases hexec
  | execute c =>
    refine ⟨log, hsame rfl rfl fun p hp hexec => ?_⟩
    obtain ⟨p₀, hp₀, rfl⟩ := Option.map_eq_some_iff.mp hp
    refine ⟨p₀, hp₀, hexec, rfl, ?_⟩
    exact List.filterMap_append.trans (List.append_nil _)
  | executeSend hex n =>
    obtain ⟨p, hp, hdue⟩ := hallow
    exact hlog.submit hp hdue
  | ack ackFn ack => exact ⟨log, hsame rfl rfl (by rintro task ⟨⟩)⟩
  | _ => exact ⟨log, hsame rfl rfl hstay⟩

/-- A history in which the workers have done what their tasks ask for. -/
theorem exists_submits (hallowed : ∀ e a s earlier,
      .call (.modem i .supervisor) (.modem (.work e)) a s :: earlier <:+ past →
        (dutyProtocol h).allows (progress i earlier) e) :
    ∃ log, Submits h i past log := by
  induction past with
  | nil =>
    refine ⟨[], rfl, ?_, rfl, ?_⟩
    · rintro x ⟨⟩
    · rintro p ⟨⟩
  | cons x past ih =>
    obtain ⟨log, hlog⟩ := ih fun e a s earlier hsuffix =>
      hallowed e a s earlier (hsuffix.trans (List.suffix_cons _ _))
    have hsame : executedBy i (x :: past) = executedBy i past →
        submittedBy i (x :: past) = submittedBy i past →
        progress i (x :: past) = progress i past → ∃ log, Submits h i (x :: past) log := by
      intro hexecuted hsubmitted hprogress
      refine ⟨log, hlog.same hexecuted hsubmitted fun p hp hexec => ?_⟩
      exact ⟨p, hprogress ▸ hp, hexec, rfl, rfl⟩
    cases x with
    | env v s => exact hsame (List.append_nil _) (List.append_nil _) rfl
    | crash t s => exact hsame (List.append_nil _) (List.append_nil _) rfl
    | call t c a s =>
      have hquiet : c.executes a = [] → c.submits = [] →
          progress i (.call t c a s :: past) = progress i past →
          ∃ log, Submits h i (.call t c a s :: past) log := by
        intro hexecutes hsubmits
        refine hsame ?_ ?_
        · rw [executedBy_call, hexecutes, ite_self, List.append_nil]
        · rw [submittedBy_call, hsubmits, ite_self, List.append_nil]
      cases c with
      | modem c =>
        cases c with
        | work e =>
          by_cases ht : t = .modem i .supervisor
          · subst ht
            exact hlog.work (hallowed e a s past List.suffix_rfl)
          · refine hsame ?_ ?_ (if_neg ht)
            · rw [executedBy_call, if_neg ht, List.append_nil]
            · rw [submittedBy_call, if_neg ht, List.append_nil]
        | _ => exact hquiet rfl rfl rfl
      | _ => exact hquiet rfl rfl rfl

end Steps

section Runs

variable [DecidableEq ι] {h : Router.Host} {cfg : ManagerConfig} {w : ι → Worker}
  {sims : ι → Sim} {table₀ : Buffer.Table}

/-- Every call of a worker is one that its duty allows. -/
theorem duty_of_reach {c : RecordedConfig ι}
    (hreach : (gatewaySystem h cfg w).recorded.Reach
      ((gatewaySystem h cfg w).recorded.start ⟨.new sims table₀, []⟩ entry) c)
    {i : ι} {e : Modem.Call} {a : e.Ans} {s : World ι} {earlier : History ι}
    (hcall : .call (.modem i .supervisor) (.modem (.work e)) a s :: earlier <:+ c.state.history) :
    (dutyProtocol h.toModem).allows (progress i earlier) e := by
  have hinit : Modem.Label.init ≠ .watchdog := by rintro ⟨⟩
  exact allows_of_reach (fun i => dutyRun h.toModem (wired cfg (w i)))
    (fun _ _ _ hq => ⟨hinit, hq⟩) (fun _ => ⟨hinit, rfl⟩) hreach hcall

/-- **Nothing is sent unbidden, and nothing twice.**  After any run of the gateway, what the workers
of a modem have submitted with `AT+CMGS` is, for one task that they have executed after the other,
a first piece of the parts of its message. -/
theorem submitted_in_order {c : RecordedConfig ι}
    (hreach : (gatewaySystem h cfg w).recorded.Reach
      ((gatewaySystem h cfg w).recorded.start ⟨.new sims table₀, []⟩ entry) c) (i : ι) :
    ∃ log : List (Task × List (List UInt8 × ℕ)),
      log.map Prod.fst = executedBy i c.state.history ∧
      (∀ x ∈ log, x.2 <+: submissions h.toModem x.1) ∧
      log.flatMap Prod.snd = submittedBy i c.state.history := by
  obtain ⟨log, hlog⟩ := exists_submits fun _ _ _ _ hcall => duty_of_reach hreach hcall
  exact ⟨log, hlog.tasks, hlog.parts, hlog.all⟩

end Runs

/-! ### A message on its way out -/

/-- A message for the modem of `plainAnswer` to send. -/
def helloPayload : SendSMSPayload :=
  ⟨lit "89490200000123456789", lit "+14155550123", lit "hi", lit "GSM7"⟩

def helloTask : Task := ⟨lit "t2", .sendSMS, jsonSendSMS helloPayload⟩

/-- A host that knows the message. -/
def helloHost : Router.Host :=
  { Router.Host.ofSIM helloPayload.iccid with toModem := .sending helloPayload }

/-- A gateway with one modem. -/
abbrev helloGateway :=
  (gatewaySystem helloHost Tunnel.sampleConfig fun _ : Unit => Worker.plain).recorded

/-- Its start. -/
abbrev helloStart := helloGateway.start ⟨.new (fun _ _ => none) .empty, []⟩ entry

/-- The one part of the message has been submitted. -/
theorem submitted_in_order_hello :
    ∃ c, helloGateway.Reach helloStart c ∧ executedBy () c.state.history = [helloTask] ∧
      (submittedBy () c.state.history).length = 1 ∧
      ∃ log : List (Task × List (List UInt8 × ℕ)),
        log.map Prod.fst = executedBy () c.state.history ∧
        (∀ x ∈ log, x.2 <+: submissions helloHost.toModem x.1) ∧
        log.flatMap Prod.snd = submittedBy () c.state.history := by
  have hplay : (helloGateway.play helloStart (dispatchMoves helloTask ++
      callsWith (taskAnswer helloTask) 5 (.modem () .supervisor))).map (fun c =>
        (executedBy () c.state.history, (submittedBy () c.state.history).length)) =
      some ([helloTask], 1) := by
    decide +kernel
  obtain ⟨c, hc, hres⟩ := Option.map_eq_some_iff.mp hplay
  obtain ⟨hexecuted, hsubmitted⟩ := Prod.mk.inj hres
  have hreach := System.reach_of_play hc
  exact ⟨c, hreach, hexecuted, hsubmitted, submitted_in_order hreach ()⟩

end SmsGate.Gateway
