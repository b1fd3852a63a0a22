import SmsGate.Modem.Equiv.Watchdog

/-!
# What follows when the registration is denied

Three handlers learn the registration status: that of a `+CREG` URC, the keepalive, and the task
`CHECK_SIGNAL`.  All of them store it, and the first two ban the SIM if it is 3.  A task does not.

`heard` tells from the history of a run what `Run` has heard and how far it has gone with it.  When
3 was stored, the iteration ends in `BANNED`, with an alert and no further `AT+CMGS`, iff the status
was heard by a URC or a keepalive, as 3 itself and not only modulo 2³², and the watchdog has not
fired between the ban and the check (`banned_iff`).
-/

namespace SmsGate.Modem

open Tunnel

variable {O C : Type}

/-! ### What `Run` has heard -/

/-- The call is a `SIM_BANNED` alert. -/
def Call.alertsBanned : Call → Bool
  | .event (.modemAlert e) => e.alertCode = .simBanned
  | _ => false

/-- How far `Run` has gone since the last `select`. -/
inductive BanStep where
  | quiet
  /-- A status was stored that does not ban the SIM. -/
  | passed
  /-- A status was stored that bans it. -/
  | denied
  /-- `BANNED` is stored. -/
  | banned
  /-- The alert is pushed. -/
  | alerted
  deriving DecidableEq

/-- The calls that `Run` makes at a step. -/
def BanStep.allows : BanStep → Call → Bool
  | .quiet, e => ! e.alertsBanned
  | .passed, .storeRegStat _ => false
  | .passed, e => ! e.alertsBanned
  | .denied, .execute .signalQuality | .denied, .storeSignalRSSI _
  | .denied, .storeState .banned => true
  | .denied, _ => false
  | .banned, .newUUID | .banned, .now => true
  | .banned, e => e.alertsBanned
  | .alerted, .now | .alerted, .storeLastLoop _ | .alerted, .loadState | .alerted, .select
  | .alerted, .deregister _ | .alerted, .closeWatchdog => true
  | .alerted, _ => false

/-- The case that was selected last, the registration status that the modem has answered since, and
how far `Run` has gone. -/
structure Heard where
  selected : Option Selected
  status : Option ℤ
  step : BanStep

/-- The handler that is running has heard the status 3 and acts on it. -/
def Heard.denied (q : Heard) : Bool :=
  match q.selected with
  | some (.urc line) => At.parseCREG line = 3
  | some .keepalive => q.status = some 3
  | _ => false

/-- `Run` bans the SIM when it has heard that the registration is denied, and only then. -/
def banProtocol : Protocol Call Call.Ans Heard where
  allows q e := q.step.allows e = true
  next q e a :=
    match e, a with
    | .select, (selected : Selected) => ⟨some selected, none, .quiet⟩
    | .execute .registrationStatus, (res : Except At.Err (List At.Line)) =>
      { q with status := (res.bind At.registrationOf).toOption }
    | .storeRegStat _, _ => { q with step := if q.denied then .denied else .passed }
    | .storeState .banned, _ => { q with step := if q.step = .denied then .banned else q.step }
    | .event (.modemAlert e), _ =>
      if e.alertCode = .simBanned then { q with step := .alerted } else q
    | _, _ => q

/-- The calls that have nothing to do with the registration; `select` starts anew. -/
def Call.deaf : Call → Bool
  | .select | .execute .registrationStatus | .storeRegStat _ => false
  | e => ! e.alertsBanned

theorem banProtocol_deaf {q : Heard} (hq : q.step = .quiet ∨ q.step = .passed) (e : Call)
    (he : e.deaf = true) : banProtocol.allows q e ∧ ∀ a, banProtocol.next q e a = q := by
  have halert : e.alertsBanned = false := by
    cases e with
    | event e =>
      unfold Call.deaf at he
      simpa using he
    | _ => rfl
  constructor
  · unfold banProtocol BanStep.allows
    dsimp only
    rcases hq with hq | hq
    · rw [hq]
      simpa using halert
    · rw [hq]
      cases e with
      | storeRegStat => cases he
      | _ => simpa using halert
  · intro a
    cases e with
    | select | storeRegStat => cases he
    | execute c =>
      cases c with
      | registrationStatus => cases he
      | _ => rfl
    | storeState st =>
      cases st with
      | banned =>
        unfold banProtocol
        dsimp only
        rw [if_neg]
        rcases hq with hq | hq <;> rw [hq] <;> nofun
      | _ => rfl
    | event e =>
      cases e with
      | modemAlert e =>
        unfold banProtocol
        dsimp only
        rw [if_neg (of_decide_eq_false halert)]
      | _ => rfl
    | _ => rfl

/-- A program that has nothing to do with the registration. -/
abbrev Deaf {α : Type} (p : Work α) : Prop := p.Calls fun e => e.deaf = true

theorem deaf_of_minor (e : Call) (he : e.minor = true) : e.deaf = true := by
  cases e with
  | select | storeRegStat => cases he
  | execute c =>
    cases c with
    | registrationStatus => cases he
    | _ => rfl
  | event e =>
    cases e with
    | modemAlert e =>
      unfold Call.deaf Call.alertsBanned
      unfold Call.minor at he
      simpa using he
    | _ => rfl
  | _ => rfl

theorem deaf_of_receives (e : Call) (he : e.receives = true) : e.deaf = true := by
  cases e with
  | insert => rfl
  | event e =>
    cases e with
    | smsReceived => rfl
    | modemAlert => cases he
  | execute c =>
    cases c with
    | readSMS | deleteSMS => rfl
    | _ => cases he
  | _ => cases he

/-- Nothing was heard that bans the SIM. -/
def Heard.Unbanned (q : Heard) : Prop := q.step = .quiet ∨ q.step = .passed

/-- `Run` is not in the middle of a ban. -/
def Heard.Settled (q : Heard) : Prop := q.Unbanned ∨ q.step = .alerted

theorem Deaf.obeys {α : Type} {p : Work α} (hp : Deaf p) {q : Heard} (hq : q.Unbanned) :
    p.Obeys banProtocol q fun _ q' => q'.Unbanned :=
  Prog.Calls.obeys hp (banProtocol_deaf hq) fun _ => hq

theorem Deaf.bind_obeys {α β : Type} {p : Work α} {f : α → Work β} (hp : Deaf p) {q : Heard}
    (hq : q.Unbanned) {Φ : β → Heard → Prop} (hf : ∀ a, (f a).Obeys banProtocol q Φ) :
    (p >>= f).Obeys banProtocol q Φ :=
  Prog.Calls.bind_obeys hp (banProtocol_deaf hq) hf

theorem deaf_ask {e : Call} (he : e.deaf = true) : Deaf (ask e) := calls_ask he

theorem deaf_signalQuality : Deaf (At.signalQuality execute) := by
  have hquery : (Call.execute .signalQuality).deaf = true := rfl
  exact calls_query hquery _

/-! ### The handlers -/

theorem enterBanned_obeys_ban (id : Identity) (detail : List UInt8) {q : Heard}
    (hq : q.step = .denied) :
    (enterBanned id detail).Obeys banProtocol q fun _ q' => q'.Settled := by
  obtain ⟨selected, status, step⟩ := q
  obtain rfl : step = .denied := hq
  refine Prog.perform_bind_obeys rfl fun _ => ?_
  refine Prog.perform_bind_obeys rfl fun _ => Prog.perform_bind_obeys rfl fun _ => ?_
  exact ⟨rfl, fun _ => .inr rfl⟩

theorem step_storeRegStat (q : Heard) (stat : ℤ) (a : Call.Ans (.storeRegStat stat)) :
    (banProtocol.next q (.storeRegStat stat) a).step =
      if q.denied = true then .denied else .passed := rfl

/-- The SIM is banned if the status is 3. -/
theorem ban_obeys (id : Identity) (detail : List UInt8) {stat : ℤ} {q : Heard}
    (hq : q.step = if stat = 3 then .denied else .passed) :
    (if stat = 3 then enterBanned id detail else pure ()).Obeys banProtocol q
      fun _ q' => q'.Settled := by
  split_ifs at hq ⊢
  · exact enterBanned_obeys_ban id detail hq
  · exact .inl (.inr hq)

theorem handleURC_obeys_ban (h : Host) (w : Worker) (id : Identity) (line : At.Line) :
    (handleURC h w id line).Obeys banProtocol ⟨some (.urc line), none, .quiet⟩
      fun _ q => q.Settled := by
  have hquiet : Heard.Unbanned ⟨some (.urc line), none, .quiet⟩ := .inl rfl
  unfold handleURC
  split_ifs
  · cases At.parseCMTI line with
    | error e => exact .inl hquiet
    | ok idx =>
      have hreceive : Deaf (receiveSMS h w id idx) :=
        calls_receiveSMS deaf_of_minor h w id idx fun e he _ => deaf_of_receives e he
      exact (hreceive.obeys hquiet).mono fun _ _ => .inl
  · generalize hstat : At.parseCREG line = stat
    refine Prog.perform_bind_obeys rfl fun _ => ban_obeys id line ?_
    rw [step_storeRegStat, Heard.denied]
    simp only [hstat, decide_eq_true_eq]
  · exact .inl hquiet

/-- A task hears the status and does nothing about it. -/
theorem doCheckSignal_obeys_ban (h : Host) (it : InboundTask) :
    (doCheckSignal h).Obeys banProtocol ⟨some (.task it), none, .quiet⟩
      fun _ q => q.Unbanned := by
  refine deaf_signalQuality.bind_obeys (.inl rfl) fun rssi => ?_
  cases rssi with
  | error e => exact .inl rfl
  | ok rssi =>
    refine Prog.perform_bind_obeys rfl fun (res : Except At.Err (List At.Line)) => ?_
    dsimp only
    cases res.bind At.registrationOf with
    | error e => exact .inl rfl
    | ok stat =>
      refine (deaf_ask rfl).bind_obeys (.inl rfl) fun _ => Prog.perform_bind_obeys rfl fun _ => ?_
      cases h.marshalCheckSignalResult _ with
      | error text => exact .inr rfl
      | ok json => exact .inr rfl

theorem executeTask_obeys_ban (h : Host) (id : Identity) (it : InboundTask) :
    (executeTask h id it).Obeys banProtocol ⟨some (.task it), none, .quiet⟩
      fun _ q => q.Unbanned := by
  have hquiet : Heard.Unbanned ⟨some (.task it), none, .quiet⟩ := .inl rfl
  have hdo : (doTask h id it.task).Obeys banProtocol ⟨some (.task it), none, .quiet⟩
      fun _ q => q.Unbanned := by
    have hdeaf : ∀ {p : Work (Except TaskError (Option (List UInt8)))}, Deaf p →
        p.Obeys banProtocol ⟨some (.task it), none, .quiet⟩ fun _ q => q.Unbanned :=
      fun hp => hp.obeys hquiet
    unfold doTask
    cases it.task.action with
    | sendSMS => exact hdeaf (calls_doSendSMS deaf_of_minor h id _ rfl (fun _ _ => rfl) rfl)
    | rebootModem => exact hdeaf (calls_doRebootModem deaf_of_minor h _ rfl rfl rfl)
    | checkSignal => exact doCheckSignal_obeys_ban h it
    | deleteAllSMS => exact hdeaf (calls_doDeleteAllSMS deaf_of_minor h)
    | other name => exact hquiet
  have henvelope : Deaf (newEnvelopeFrom .taskAck it.task.messageID) :=
    calls_newEnvelopeFrom deaf_of_minor _ _
  refine (deaf_ask rfl).bind_obeys hquiet fun prev => (deaf_ask rfl).bind_obeys hquiet fun _ => ?_
  refine hdo.bind fun res q hq => henvelope.bind_obeys hq fun _ => ?_
  exact (deaf_ask rfl).bind_obeys hq fun _ => (deaf_ask rfl).obeys hq

/-- The signal is read and stored before the ban. -/
theorem banProtocol_signal {q : Heard} (hq : q.step = .denied ∨ q.step = .passed) :
    banProtocol.allows q (.execute .signalQuality) ∧
      ∀ rssi, banProtocol.allows q (.storeSignalRSSI rssi) := by
  unfold banProtocol
  dsimp only
  rcases hq with hq | hq
  · rw [hq]
    exact ⟨rfl, fun _ => rfl⟩
  · rw [hq]
    exact ⟨rfl, fun _ => rfl⟩

theorem runKeepalive_obeys_ban (id : Identity) :
    (runKeepalive id).Obeys banProtocol ⟨some .keepalive, none, .quiet⟩ fun _ q => q.Settled := by
  refine Prog.perform_bind_obeys rfl fun (res : Except At.Err (List At.Line)) => ?_
  obtain ⟨status, hstatus⟩ : ∃ status, res.bind At.registrationOf = status := ⟨_, rfl⟩
  have hnext : banProtocol.next ⟨some .keepalive, none, .quiet⟩ (.execute .registrationStatus) res =
      ⟨some .keepalive, status.toOption, .quiet⟩ := by
    rw [← hstatus]
    rfl
  rw [hnext, hstatus]
  cases status with
  | error e =>
    have hrecovery : Deaf (enterRecovery id) :=
      calls_enterRecovery deaf_of_minor id (fun _ => rfl) rfl rfl rfl rfl
        (calls_enterReset deaf_of_minor id (fun _ => rfl) rfl)
    exact (hrecovery.obeys (.inl rfl)).mono fun _ _ => .inl
  | ok stat =>
    refine Prog.perform_bind_obeys rfl fun stored => ?_
    generalize hq : banProtocol.next _ (.storeRegStat (wrap32 stat)) stored = q
    have hstep : q.step = if stat = 3 then .denied else .passed := by
      rw [← hq, step_storeRegStat, Heard.denied, Except.toOption]
      simp only [Option.some.injEq, decide_eq_true_eq]
    have hsignal := banProtocol_signal (q := q) (by
      rw [hstep]
      split_ifs
      · exact .inl rfl
      · exact .inr rfl)
    refine Prog.perform_bind_obeys hsignal.1 fun (rssi : Except At.Err (List At.Line)) => ?_
    dsimp only
    cases rssi.bind At.signalOf with
    | error e => exact ban_obeys id _ hstep
    | ok rssi => exact Prog.perform_bind_obeys (hsignal.2 _) fun _ => ban_obeys id _ hstep

theorem handle_obeys_ban (h : Host) (w : Worker) (id : Identity) (selected : Selected) :
    (handle h w id selected).Obeys banProtocol ⟨some selected, none, .quiet⟩
      fun _ q => q.Settled := by
  have hdeaf : ∀ {p : Work Unit}, Deaf p →
      p.Obeys banProtocol ⟨some selected, none, .quiet⟩ fun _ q => q.Settled :=
    fun hp => (hp.obeys (.inl rfl)).mono fun _ _ => .inl
  cases selected with
  | ctxDone => exact .inl (.inl rfl)
  | urc line => exact handleURC_obeys_ban h w id line
  | task it => exact (executeTask_obeys_ban h id it).mono fun _ _ => .inl
  | keepalive => exact runKeepalive_obeys_ban id
  | capacity => exact hdeaf (calls_checkCapacity deaf_of_minor w id)
  | signal => exact hdeaf (calls_pollSignalStrength deaf_of_minor fun _ _ _ => rfl)
  | reset => exact hdeaf (calls_enterReset deaf_of_minor id (fun _ => rfl) rfl)

/-! ### `Run` -/

theorem settled_afterHandler {q : Heard} {id : Identity} (hq : q.Settled) (e : Call)
    (he : e.afterHandler id = true) :
    banProtocol.allows q e ∧ ∀ a, (banProtocol.next q e a).Settled := by
  have hstays : banProtocol.allows q e ∧ ∀ a, banProtocol.next q e a = q := by
    rcases hq with hq | hq
    · refine banProtocol_deaf hq e ?_
      cases e with
      | now | storeLastLoop | loadState | deregister | closeWatchdog => rfl
      | _ => cases he
    · unfold banProtocol
      dsimp only
      rw [hq]
      cases e with
      | now | storeLastLoop | loadState | deregister | closeWatchdog => exact ⟨rfl, fun _ => rfl⟩
      | _ => cases he
  exact ⟨hstays.1, fun a => (hstays.2 a).symm ▸ hq⟩

/-- Where the blocks of `Run` start. -/
def banHead : Label → Heard → Prop
  | .init, q | .drain, q => q.Unbanned
  | .main _, q => q.Settled
  | .watchdog, _ => False

/-- `Run` keeps to `banProtocol`. -/
def banProof (h : Host) (w : Worker) : RunProof h w banProtocol where
  head := banHead
  final _ _ := True
  not_watchdog _ hq := hq
  init_obeys q hq := by
    refine init_obeys_of_keeps h w (I := Heard.Unbanned) (fun q e hq he => ?_) hq
      (fun _ _ hq => .inl hq) fun _ _ => trivial
    have hdeaf : e.deaf = true := by
      unfold Call.ofInit at he
      split at he
      all_goals first | rfl | exact deaf_of_minor _ he
    obtain ⟨hallow, hnext⟩ := banProtocol_deaf hq e hdeaf
    exact ⟨hallow, fun a => (hnext a).symm ▸ hq⟩
  main_obeys id q hq := by
    have hselect : banProtocol.allows q .select := by
      unfold banProtocol
      dsimp only
      rcases hq with (hq | hq) | hq <;> rw [hq] <;> rfl
    exact mainLoop_obeys_of_keeps h w id hselect ⟨rfl, .inl rfl⟩ (handle_obeys_ban h w id)
      (fun q e hq he => settled_afterHandler hq e he) (fun _ hq => hq) fun _ _ _ => trivial
  drain_obeys q hq := by
    refine drainInboundCh_obeys_of_keeps (I := Heard.Unbanned) (fun q e hq he => ?_) hq
      (fun _ hq => hq) fun _ _ => trivial
    have hdeaf : e.deaf = true := by
      cases e with
      | tryRecv | now | ack | decConnections | closeWatchdog => rfl
      | _ => cases he
    obtain ⟨hallow, hnext⟩ := banProtocol_deaf hq e hdeaf
    exact ⟨hallow, fun a => (hnext a).symm ▸ hq⟩

/-! ### What the history tells -/

/-- What `Run` has heard. -/
def heard (past : History O) : Heard :=
  System.follow banProtocol .worker ⟨none, none, .quiet⟩ past

/-- The occurrence is a `SIM_BANNED` alert. -/
def alerts : System.Occurrence Thread (World O) Call Call.Ans Outer → Bool
  | .call _ e _ _ => e.alertsBanned
  | _ => false

/-- The occurrence is an `AT+CMGS`. -/
def sends : System.Occurrence Thread (World O) Call Call.Ans Outer → Bool
  | .call _ (.executeSend _ _) _ _ => true
  | _ => false

/-- The watchdog has fired since `Run` stored `BANNED`. -/
def firedSinceBan : History O → Bool
  | [] => false
  | .call .worker (.storeState .banned) _ _ :: _ => false
  | .call .watchdog (.storeState .failed) _ _ :: _ => true
  | _ :: past => firedSinceBan past

section Passed

variable {base during : History O}

theorem passed_next {q : Heard} {e : Call} (hq : q.step = .passed)
    (hallow : banProtocol.allows q e) (hselect : e ≠ .select) (a : e.Ans) :
    (banProtocol.next q e a).step = .passed ∧ e.alertsBanned = false := by
  unfold banProtocol at hallow
  dsimp only at hallow
  rw [hq] at hallow
  by_cases hdeaf : e.deaf = true
  · rw [(banProtocol_deaf (.inr hq) e hdeaf).2 a]
    refine ⟨hq, ?_⟩
    cases e with
    | event e =>
      unfold Call.deaf at hdeaf
      simpa using hdeaf
    | _ => rfl
  · cases e with
    | select => exact absurd rfl hselect
    | storeRegStat stat => cases hallow
    | execute c =>
      cases c with
      | registrationStatus => exact ⟨hq, rfl⟩
      | _ => exact absurd rfl hdeaf
    | event e => exact absurd hallow hdeaf
    | _ => exact absurd rfl hdeaf

/-- A handler that has passed over the status pushes no alert. -/
theorem passed_during (haccepted : System.Accepted banProtocol .worker ⟨none, none, .quiet⟩
      (during ++ base))
    (hwatchdog : ∀ {e a s}, .call .watchdog e a s ∈ during → e.ofWatchdog)
    (hselect : ∀ x ∈ during, selects x = false) (hbase : (heard base).step = .passed) :
    (heard (during ++ base)).step = .passed ∧ ∀ x ∈ during, alerts x = false := by
  induction during with
  | nil => exact ⟨hbase, List.forall_mem_nil _⟩
  | cons x during ih =>
    rw [List.forall_mem_cons] at hselect ⊢
    have hrest := haccepted.tail
    obtain ⟨hstep, halerts⟩ :=
      ih hrest (fun hmem => hwatchdog (List.mem_cons_of_mem _ hmem)) hselect.2
    cases x with
    | call t e a s₀ =>
      cases t with
      | worker =>
        have hne : e ≠ .select := by
          rintro rfl
          cases hselect.1
        obtain ⟨hnext, halert⟩ := passed_next hstep (haccepted.1 rfl) hne a
        exact ⟨hnext, halert, halerts⟩
      | watchdog =>
        have he : e.ofWatchdog = true := hwatchdog List.mem_cons_self
        refine ⟨hstep, ?_, halerts⟩
        cases e with
        | event => cases he
        | _ => rfl
    | env v s₀ => exact ⟨hstep, rfl, halerts⟩
    | crash t s₀ => exact ⟨hstep, rfl, halerts⟩

end Passed

section Denied

variable {h : Host} {w : Worker} {outside : C → O → (e : Call) → e.Ans → Option O} {ch : C}
  {s s' : World O} {base during : History O}

/-- The state once `Run` has stored `BANNED`. -/
def stateAfterBan (during : History O) : State :=
  if firedSinceBan during then .failed else .banned

/-- What holds on the way from the denied registration to the check. -/
def BanInv (s : World O) (during : History O) (stage : LoopStage) : BanStep → Prop
  | .denied => stage = .handling
  | .banned => stage = .handling ∧ s.state = stateAfterBan during
  | .alerted => s.state = stateAfterBan during ∧ ∃ x ∈ during, alerts x = true
  | _ => False

theorem banInv_call {q : Heard} {stage : LoopStage} {e : Call} {a : e.Ans}
    (hinv : BanInv s during stage q.step) (hallow : banProtocol.allows q e) (hselect : e ≠ .select)
    (heffect : Effect e s s') :
    BanInv s' (.call .worker e a s :: during) (loopProtocol.next stage e a)
      (banProtocol.next q e a).step ∧
    sends (.call .worker e a s : System.Occurrence Thread (World O) Call Call.Ans Outer) =
      false := by
  obtain ⟨selected, status, step⟩ := q
  unfold banProtocol at hallow
  dsimp only at hallow hinv
  -- at each step the protocol leaves only a few calls, and none of them is `executeSend`
  have hstate := heffect.state
  cases step with
  | quiet | passed => exact hinv.elim
  | denied =>
    obtain rfl : stage = .handling := hinv
    cases e with
    | execute c =>
      cases c with
      | signalQuality => exact ⟨rfl, rfl⟩
      | _ => cases hallow
    | storeSignalRSSI rssi => exact ⟨rfl, rfl⟩
    | storeState st =>
      cases st with
      | banned => exact ⟨⟨rfl, hstate⟩, rfl⟩
      | _ => cases hallow
    | _ => cases hallow
  | banned =>
    obtain ⟨rfl, hs⟩ := hinv
    cases e with
    | newUUID | now => exact ⟨⟨rfl, hstate.trans hs⟩, rfl⟩
    | event ev =>
      cases ev with
      | modemAlert alert =>
        have hcode : alert.alertCode = .simBanned := of_decide_eq_true hallow
        refine ⟨?_, rfl⟩
        unfold banProtocol
        dsimp only
        rw [if_pos hcode]
        exact ⟨hstate.trans hs, _, List.mem_cons_self, hallow⟩
      | _ => cases hallow
    | _ => cases hallow
  | alerted =>
    obtain ⟨hs, x, hx, halert⟩ := hinv
    cases e with
    | now | storeLastLoop | loadState | deregister | closeWatchdog =>
      exact ⟨⟨hstate.trans hs, x, List.mem_cons_of_mem _ hx, halert⟩, rfl⟩
    | select => exact absurd rfl hselect
    | _ => cases hallow

/-- The stamp comes after the alert. -/
theorem BanInv.stamped {step : BanStep} (hinv : BanInv s during .stamped step) :
    s.state = stateAfterBan during ∧ ∃ x ∈ during, alerts x = true := by
  cases step with
  | quiet | passed => exact hinv.elim
  | denied => cases hinv
  | banned => cases hinv.1
  | alerted => exact hinv

theorem terminal_stateAfterBan (during : History O) : (stateAfterBan during).terminal = true := by
  unfold stateAfterBan
  split_ifs <;> rfl

theorem BanInv.of_state {during' : History O} {stage : LoopStage} {step : BanStep}
    (hinv : BanInv s during stage step)
    (hstate : s.state = stateAfterBan during → s'.state = stateAfterBan during')
    (hsub : during ⊆ during') : BanInv s' during' stage step := by
  cases step with
  | quiet | passed => exact hinv.elim
  | denied => exact hinv
  | banned => exact ⟨hinv.1, hstate hinv.2⟩
  | alerted =>
    obtain ⟨hs, x, hx, halert⟩ := hinv
    exact ⟨hstate hs, x, hsub hx, halert⟩

theorem stateAfterBan_watchdog {e : Call} {a : e.Ans} (he : e.ofWatchdog = true)
    (heffect : Effect e s s') (hs : s.state = stateAfterBan during) :
    s'.state = stateAfterBan (.call .watchdog e a s :: during) := by
  rw [heffect.state]
  cases e with
  | storeState st =>
    cases st with
    | failed => rfl
    | _ => cases he
  | watchdogTick | loadLastLoop | now => exact hs
  | _ => cases he

/-- From the denied registration on, in the same iteration. -/
theorem denied_during (hlinked : System.Linked (workerSystem h w outside) s (during ++ base))
    (hban : System.Accepted banProtocol .worker ⟨none, none, .quiet⟩ (during ++ base))
    (hwatchdog : ∀ {e a s}, .call .watchdog e a s ∈ during → e.ofWatchdog)
    (hselect : ∀ x ∈ during, selects x = false) (hbase : (heard base).step = .denied)
    (hstage : loopStage base = .handling) :
    BanInv s during (loopStage (during ++ base)) (heard (during ++ base)).step ∧
      ∀ x ∈ during, sends x = false := by
  induction during generalizing s with
  | nil =>
    rw [List.nil_append, hbase, hstage]
    exact ⟨rfl, List.forall_mem_nil _⟩
  | cons x during ih =>
    rw [List.forall_mem_cons] at hselect ⊢
    have hrest := hban.tail
    obtain ⟨hinv, hsends⟩ :=
      ih hlinked.2 hrest (fun hmem => hwatchdog (List.mem_cons_of_mem _ hmem)) hselect.2
    cases x with
    | call t e a s₀ =>
      have heffect : Effect e s₀ s := effect_of_leadsTo hlinked.1
      cases t with
      | worker =>
        have hne : e ≠ .select := by
          rintro rfl
          cases hselect.1
        obtain ⟨hnext, hsend⟩ := banInv_call (a := a) hinv (hban.1 rfl) hne heffect
        exact ⟨hnext, hsend, hsends⟩
      | watchdog =>
        have he : e.ofWatchdog = true := hwatchdog List.mem_cons_self
        -- the watchdog may store `FAILED` over `BANNED`, which `stateAfterBan` takes into account
        have hnext : BanInv s (.call .watchdog e a s₀ :: during) _ _ :=
          hinv.of_state (stateAfterBan_watchdog he heffect) (List.subset_cons_self _ _)
        refine ⟨hnext, ?_, hsends⟩
        cases e with
        | executeSend => cases he
        | _ => rfl
    | env v s₀ =>
      have hstep : v.step w.inboundQueueSize s₀ = some s := hlinked.1
      have hnext : BanInv s (.env v s₀ :: during) _ _ :=
        hinv.of_state (fun hs => (effect_of_outer hstep).state.trans hs) (List.subset_cons_self _ _)
      exact ⟨hnext, rfl, hsends⟩
    | crash t s₀ =>
      obtain ⟨l, hcrash⟩ := hlinked.1
      cases hcrash

/-- After a check that found a terminal state, `Run` sends nothing. -/
theorem sends_after_check {st : State} (hst : st.terminal = true) {rest : History O}
    (haccepted : System.Accepted loopProtocol .worker .starting (rest ++ base))
    (hwatchdog : ∀ {e a s}, .call .watchdog e a s ∈ rest → e.ofWatchdog)
    (hbase : loopStage base = .checked st) :
    (loopStage (rest ++ base) = .checked st ∨ loopStage (rest ++ base) = .deregistered st ∨
      loopStage (rest ++ base) = .closed st) ∧ ∀ x ∈ rest, sends x = false := by
  induction rest with
  | nil => exact ⟨.inl hbase, List.forall_mem_nil _⟩
  | cons x rest ih =>
    rw [List.forall_mem_cons]
    have hrest := haccepted.tail
    obtain ⟨hstage, hsends⟩ := ih hrest fun hmem => hwatchdog (List.mem_cons_of_mem _ hmem)
    cases x with
    | call t e a s₀ =>
      cases t with
      | worker =>
        have hallow : loopProtocol.allows (loopStage (rest ++ base)) e := haccepted.1 rfl
        have hnext : loopStage (.call .worker e a s₀ :: rest ++ base) =
            loopProtocol.next (loopStage (rest ++ base)) e a := rfl
        rw [hnext]
        -- only `deregister` and `closeWatchdog` are left for `Run`
        rcases hstage with hstage | hstage | hstage
        · rw [hstage] at hallow ⊢
          unfold loopProtocol at hallow
          dsimp only at hallow
          rw [hst] at hallow
          obtain ⟨iccid, rfl⟩ : ∃ iccid, e = .deregister iccid := hallow
          exact ⟨.inr (.inl rfl), rfl, hsends⟩
        · rw [hstage] at hallow ⊢
          obtain rfl : e = .closeWatchdog := hallow
          exact ⟨.inr (.inr rfl), rfl, hsends⟩
        · rw [hstage] at hallow
          exact hallow.elim
      | watchdog =>
        have he : e.ofWatchdog = true := hwatchdog List.mem_cons_self
        refine ⟨hstage, ?_, hsends⟩
        cases e with
        | executeSend => cases he
        | _ => rfl
    | env v s₀ => exact ⟨hstage, rfl, hsends⟩
    | crash t s₀ => exact ⟨hstage, rfl, hsends⟩

end Denied

/-! ### Whole runs -/

/-- The status is stored by a handler, before anything was heard. -/
theorem stage_of_storeRegStat {stage : LoopStage} {stat : ℤ}
    (hallow : loopProtocol.allows stage (.storeRegStat stat)) : stage = .handling := by
  cases stage with
  | handling => rfl
  | starting =>
    rcases hallow with hinit | hselect
    · cases hinit
    · cases hselect
  | stamped | deregistered => cases hallow
  | closed => exact hallow.elim
  | checked st =>
    unfold loopProtocol at hallow
    dsimp only at hallow
    split_ifs at hallow
    obtain ⟨iccid, hcall⟩ := hallow
    cases hcall
  | cancelled =>
    rcases hallow with hdrain | ⟨iccid, hcall⟩
    · cases hdrain
    · cases hcall

variable (h : Host) (w : Worker) (outside : C → O → (e : Call) → e.Ans → Option O)

/-- **When a denied registration bans the SIM.**  Take any run of a worker in which a handler has
stored the registration status 3, and the check `st` at the end of this iteration.  The state is
`BANNED` there, a `SIM_BANNED` alert was pushed in the iteration, and no `AT+CMGS` was written
since, iff the handler was that of a URC or a keepalive that had heard the status 3 itself, and the
watchdog did not fire between the ban and the check. -/
theorem banned_iff {o : O} {c : RecordedConfig O}
    (hreach : (workerSystem h w outside).recorded.Reach
      ((workerSystem h w outside).recorded.start ⟨World.new o, []⟩ entry) c)
    {rest during earlier : History O} {st : State} {a : Call.Ans (.storeRegStat 3)} {s s₁ : World O}
    (hsplit : c.state.history = rest ++ .call .worker .loadState st s₁ ::
      (during ++ .call .worker (.storeRegStat 3) a s :: earlier))
    (hselect : ∀ x ∈ during, selects x = false)
    (hcheck : loopStage (during ++ .call .worker (.storeRegStat 3) a s :: earlier) = .stamped) :
    (st = .banned ∧ (∃ x ∈ during, alerts x = true) ∧ ∀ x ∈ rest ++ during, sends x = false) ↔
      (heard earlier).denied = true ∧ firedSinceBan during = false := by
  have hloop : (loopProof h w).head .init .starting := rfl
  have hban : (banProof h w).head .init ⟨none, none, .quiet⟩ := .inl rfl
  obtain ⟨htraced, _⟩ := (loopProof h w).reach hloop hreach
  obtain ⟨hheard, _⟩ := (banProof h w).reach hban hreach
  have hlinked := htraced.linked
  have hloop := htraced.accepted
  have hban := hheard.accepted
  rw [hsplit] at hlinked hloop hban
  have hwatchdog : ∀ {e a s}, .call .watchdog e a s ∈ rest ∨ .call .watchdog e a s ∈ during →
      e.ofWatchdog := by
    intro e a s hmem
    have hhistory : .call .watchdog e a s ∈ c.state.history := by
      rw [hsplit]
      rcases hmem with hmem | hmem
      · exact List.mem_append_left _ hmem
      · exact List.mem_append_right _ (List.mem_cons_of_mem _ (List.mem_append_left _ hmem))
    exact htraced.watchdog hhistory
  -- the check loads the state that it finds
  obtain ⟨s₂, ⟨ch, hload⟩, hduring⟩ := hlinked.of_append
  have hst : st = s₁.state := (Option.ite_none_right_eq_some.mp hload).1
  have hbanDuring := hban.of_append.2
  have hstage : loopStage earlier = .handling :=
    stage_of_storeRegStat (hloop.of_append.2.of_append.1 rfl)
  have hstageBase : loopStage (.call .worker (.storeRegStat 3) a s :: earlier) = .handling :=
    congrArg (fun q => loopProtocol.next q (.storeRegStat 3) a) hstage
  have hstep : (heard (.call .worker (.storeRegStat 3) a s :: earlier)).step =
      if (heard earlier).denied = true then .denied else .passed := rfl
  -- what was heard before the store decides whether the handler goes on to ban the SIM
  by_cases hdenied : (heard earlier).denied = true
  · rw [if_pos hdenied] at hstep
    obtain ⟨hinv, hsends⟩ := denied_during hduring hbanDuring (fun hmem => hwatchdog (.inr hmem))
      hselect hstep hstageBase
    rw [hcheck] at hinv
    obtain ⟨hstate, halert⟩ := hinv.stamped
    replace hst : st = stateAfterBan during := hst.trans hstate
    have hterminal : st.terminal = true := hst ▸ terminal_stateAfterBan during
    have hstageCheck : loopStage (.call .worker .loadState st s₁ ::
        (during ++ .call .worker (.storeRegStat 3) a s :: earlier)) = .checked st :=
      congrArg (fun q => loopProtocol.next q .loadState st) hcheck
    obtain ⟨_, hrest⟩ := sends_after_check hterminal hloop (fun hmem => hwatchdog (.inl hmem))
      hstageCheck
    have hnone : ∀ x ∈ rest ++ during, sends x = false := by
      intro x hx
      rcases List.mem_append.mp hx with hx | hx
      · exact hrest x hx
      · exact hsends x hx
    rw [hst, stateAfterBan]
    -- with `FAILED` stored over it, the check does not find `BANNED`
    cases firedSinceBan during with
    | true => exact iff_of_false (fun hall => nomatch hall.1) fun hall => nomatch hall.2
    | false => exact iff_of_true ⟨rfl, halert, hnone⟩ ⟨hdenied, rfl⟩
  · rw [if_neg hdenied] at hstep
    -- a handler that does not ban pushes no alert either
    obtain ⟨_, hnone⟩ := passed_during hbanDuring (fun hmem => hwatchdog (.inr hmem)) hselect hstep
    refine iff_of_false ?_ fun hall => hdenied hall.1
    rintro ⟨_, ⟨x, hx, halert⟩, _⟩
    rw [hnone x hx] at halert
    cases halert

/-! ### A URC and a task that hear of the denial -/

/-- The answers of a modem whose registration is denied. -/
def deniedAnswer (selected : Selected) (st : State) : (e : Call) → e.Ans
  | .execute .signalQuality => .ok [Go.lit "+CSQ: 15,99"]
  | .execute .registrationStatus => .ok [Go.lit "+CREG: 0,3"]
  | e => plainAnswer selected none st e

/-- The worker is started and a task is dispatched; then `n` calls of `Run`. -/
def deniedMoves (n : ℕ) (selected : Selected) (st : State) :
    List (System.Move Thread Call Call.Ans Unit Outer) :=
  plainStart ++ List.replicate n (.call .worker () (deniedAnswer selected st))

/-- The URC `+CREG: 3` bans the SIM. -/
theorem banned_iff_urc :
    ∃ (c : RecordedConfig Unit) (rest during earlier : History Unit) (s s₁ : World Unit),
      plainSystem.recorded.Reach (plainSystem.recorded.start ⟨World.new (), []⟩ entry) c ∧
      c.state.history = rest ++ .call .worker .loadState State.banned s₁ ::
        (during ++ .call .worker (.storeRegStat 3) () s :: earlier) ∧
      (∃ x ∈ during, alerts x = true) ∧ ∀ x ∈ rest ++ during, sends x = false := by
  have hplay : ∃ c, plainSystem.recorded.play
      (plainSystem.recorded.start ⟨World.new (), []⟩ entry)
      (deniedMoves 9 (.urc (Go.lit "+CREG: 3")) .banned) = some c ∧
      ∃ (stat : ℤ) (rest during earlier : History Unit) (s s₁ : World Unit),
        stat = 3 ∧ c.state.history = rest ++ .call .worker .loadState State.banned s₁ ::
          (during ++ .call .worker (.storeRegStat stat) () s :: earlier) ∧
        (during.all fun x => ! selects x) = true ∧
        loopStage (during ++ .call .worker (.storeRegStat stat) () s :: earlier) = .stamped ∧
        (heard earlier).denied = true ∧ firedSinceBan during = false := by
    refine ⟨_, rfl, _, [], [_, _, _, _, _, _], _, _, _, ?_, rfl, rfl, rfl, ?_, rfl⟩
    · decide +kernel
    · decide +kernel
  obtain ⟨c, hplay, _, rest, during, earlier, s, s₁, rfl, hsplit, hall, hcheck, hheard⟩ := hplay
  have hreach := System.reach_of_play hplay
  have hselect : ∀ x ∈ during, selects x = false := by
    intro x hx
    simpa using List.all_eq_true.mp hall x hx
  refine ⟨c, rest, during, earlier, s, s₁, hreach, hsplit, ?_⟩
  exact ((banned_iff .plain .plain _ hreach hsplit hselect hcheck).mpr hheard).2

/-- The task `CHECK_SIGNAL` hears of the denial and succeeds; the worker goes on. -/
theorem not_banned_check_signal :
    ∃ (c : RecordedConfig Unit) (during earlier : History Unit) (s s₁ : World Unit),
      plainSystem.recorded.Reach (plainSystem.recorded.start ⟨World.new (), []⟩ entry) c ∧
      c.state.history = .call .worker .loadState State.active s₁ ::
        (during ++ .call .worker (.storeRegStat 3) () s :: earlier) ∧
      (∀ x ∈ during, selects x = false) ∧
      loopStage (during ++ .call .worker (.storeRegStat 3) () s :: earlier) = .stamped ∧
      (∀ x ∈ during, alerts x = false) ∧ c.state.state.state = .active := by
  have hplay : ∃ c, plainSystem.recorded.play
      (plainSystem.recorded.start ⟨World.new (), []⟩ entry)
      (deniedMoves 13 (.task plainTask) .active) = some c ∧
      ∃ (stat : ℤ) (during earlier : History Unit) (s s₁ : World Unit),
        stat = 3 ∧ c.state.history = .call .worker .loadState State.active s₁ ::
          (during ++ .call .worker (.storeRegStat stat) () s :: earlier) ∧
        (during.all fun x => ! selects x && ! alerts x) = true ∧
        loopStage (during ++ .call .worker (.storeRegStat stat) () s :: earlier) = .stamped ∧
        c.state.state.state = .active := by
    refine ⟨_, rfl, _, [_, _, _, _, _], _, _, _, ?_, rfl, rfl, rfl, rfl⟩
    decide +kernel
  obtain ⟨c, hplay, _, during, earlier, s, s₁, rfl, hsplit, hall, hcheck, hstate⟩ := hplay
  have hquiet : ∀ x ∈ during, selects x = false ∧ alerts x = false := by
    intro x hx
    simpa using List.all_eq_true.mp hall x hx
  refine ⟨c, during, earlier, s, s₁, System.reach_of_play hplay, hsplit, ?_, hcheck, ?_, hstate⟩
  · exact fun x hx => (hquiet x hx).1
  · exact fun x hx => (hquiet x hx).2

end SmsGate.Modem
