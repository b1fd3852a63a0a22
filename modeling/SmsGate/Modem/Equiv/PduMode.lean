import SmsGate.Modem.Equiv.Drain

/-!
# The modem's mode when messages are exchanged

The worker puts the modem into PDU mode by `AT+CMGF=0`.  A hard reset or a radio cycle may put it
back into text mode; they come from the recovery, from its escalation to a reset, from the control
API and from `REBOOT_MODEM` tasks.  Only a recovery that gets through restores the mode.

The commands that the worker has written are followed by `modeProtocol`: `AT+CMGF=0` is written in
the init sequence, before any reset, and right after the other steps of a recovery.  So at every
`AT+CMGS` and `AT+CMGR` the mode was restored after the last reset or radio cycle iff this was the
radio cycle of such a recovery (`pduMode_iff`).
-/

namespace SmsGate.Modem

variable {O C : Type}

/-- A command that was written: an `AT` command with its outcome, or an `AT+CMGS`. -/
inductive Sent where
  | at (c : At.Cmd) (ok : Bool)
  | cmgs
  deriving DecidableEq

/-- The command that a call writes. -/
def Call.sent : (e : Call) → e.Ans → List Sent
  | .execute c, (res : Except At.Err (List At.Line)) => [.at c res.isOk]
  | .executeSend _ _, _ => [.cmgs]
  | _, _ => []

/-- The commands of a run, the newest first. -/
def sentCommands : History O → List Sent
  | [] => []
  | .call _ e a _ :: past => e.sent a ++ sentCommands past
  | _ :: past => sentCommands past

/-- An `AT+CMGS` or `AT+CMGR`. -/
def Call.exchangesSMS : Call → Bool
  | .executeSend _ _ | .execute (.readSMS _) => true
  | _ => false

/-- The commands before each `AT+CMGS` and `AT+CMGR` of a run. -/
def exchanges : History O → List (List Sent)
  | [] => []
  | .call _ e _ _ :: past =>
    if e.exchangesSMS then sentCommands past :: exchanges past else exchanges past
  | _ :: past => exchanges past

/-- What a command does to the mode: `true` if it sets PDU mode, `false` if it may bring back text
mode. -/
def Sent.mode : Sent → Option Bool
  | .at .setPDUMode true => some true
  | .at .hardReset _ | .at .radioOn _ => some false
  | _ => none

/-- The last reset or radio cycle, if any, was followed by a successful `AT+CMGF=0`. -/
def pduMode : List Sent → Bool
  | [] => true
  | x :: past =>
    match x.mode with
    | some mode => mode
    | none => pduMode past

/-- The steps of a recovery up to `AT+CMGF=0` were just taken, and they succeeded. -/
def inRecovery : List Sent → Bool
  | .at .ping true :: .at .radioOn true :: .at .radioOff true :: _ => true
  | _ => false

/-- The last reset or radio cycle, if any, was that of a recovery which got through. -/
def recovered : List Sent → Bool
  | [] => true
  | x :: past =>
    match x.mode with
    | some true => inRecovery past || recovered past
    | some false => false
    | none => recovered past

/-! ### Where `AT+CMGF=0` is written -/

/-- The state are the commands so far.  `AT+CMGF=0` is written while the mode is set, or at the end
of a recovery. -/
def modeProtocol : Protocol Call Call.Ans (List Sent) where
  allows q e := e = .execute .setPDUMode → recovered q ∨ inRecovery q
  next q e a := e.sent a ++ q

/-- The resets and radio cycles. -/
def Call.resets : Call → Bool
  | .execute .hardReset | .execute .radioOn => true
  | _ => false

theorem mode_of_not_resets {e : Call} (he : e.resets = false) {a : e.Ans} {x : Sent}
    (hx : x ∈ e.sent a) : x.mode ≠ some false := by
  cases e with
  | execute c =>
    obtain rfl := List.mem_singleton.mp hx
    cases c with
    | hardReset | radioOn => cases he
    | setPDUMode => cases a <;> nofun
    | _ => nofun
  | executeSend hex n =>
    obtain rfl := List.mem_singleton.mp hx
    nofun
  | _ => cases hx

theorem recovered_append {sent q : List Sent} (hsent : ∀ x ∈ sent, x.mode ≠ some false)
    (hq : recovered q) : recovered (sent ++ q) := by
  induction sent with
  | nil => exact hq
  | cons x sent ih =>
    have hrest := ih fun y hy => hsent y (List.mem_cons_of_mem x hy)
    have hx := hsent x List.mem_cons_self
    rw [List.cons_append]
    unfold recovered
    match hmode : x.mode with
    | some true => exact Bool.or_eq_true_iff.mpr (.inr hrest)
    | some false => exact absurd hmode hx
    | none => exact hrest

/-- Before any reset, every command may be written. -/
theorem modeProtocol_keeps {q : List Sent} (e : Call) (hq : recovered q) (he : e.resets = false) :
    modeProtocol.allows q e ∧ ∀ a, recovered (modeProtocol.next q e a) :=
  ⟨fun _ => .inl hq, fun _ => recovered_append (fun _ hx => mode_of_not_resets he hx) hq⟩

/-- A program that does not write `AT+CMGF=0`. -/
abbrev Modeless {α : Type} (p : Work α) : Prop := p.Calls fun e => e ≠ .execute .setPDUMode

theorem Modeless.obeys {α : Type} {p : Work α} (hp : Modeless p) (q : List Sent) :
    p.Obeys modeProtocol q fun _ _ => True :=
  Prog.Calls.obeys_of_keeps hp (fun _ _ _ he => ⟨fun h => absurd h he, fun _ => trivial⟩) trivial

theorem modeless_of_minor (e : Call) (he : e.minor = true) : e ≠ .execute .setPDUMode := by
  rintro rfl
  cases he

theorem Modeless.bind_obeys {α β : Type} {p : Work α} {f : α → Work β} (hp : Modeless p)
    {q : List Sent} {Φ : β → List Sent → Prop} (hf : ∀ a q, (f a).Obeys modeProtocol q Φ) :
    (p >>= f).Obeys modeProtocol q Φ :=
  (hp.obeys q).bind fun a q _ => hf a q

theorem modeless_enterReset (id : Identity) : Modeless (enterReset id) :=
  calls_enterReset modeless_of_minor id (fun _ => nofun) nofun

/-- `AT+CMGF=0` follows `AT+CFUN=0`, `AT+CFUN=1` and `AT`, all of them successful. -/
theorem enterRecovery_obeys (id : Identity) (q : List Sent) :
    (enterRecovery id).Obeys modeProtocol q fun _ _ => True := by
  have hreset : ∀ q, (enterReset id).Obeys modeProtocol q fun _ _ => True :=
    (modeless_enterReset id).obeys
  refine Prog.perform_bind_obeys nofun fun _ => ?_
  refine Prog.perform_bind_obeys nofun fun (off : Except At.Err (List At.Line)) => ?_
  cases off with
  | error e => exact hreset _
  | ok _ =>
    refine Prog.perform_bind_obeys nofun fun _ => ?_
    refine Prog.perform_bind_obeys nofun fun (on : Except At.Err (List At.Line)) => ?_
    cases on with
    | error e => exact hreset _
    | ok _ =>
      refine Prog.perform_bind_obeys nofun fun _ => ?_
      refine Prog.perform_bind_obeys nofun fun (ping : Except At.Err (List At.Line)) => ?_
      cases ping with
      | error e => exact hreset _
      | ok _ =>
        refine Prog.perform_bind_obeys (fun _ => .inr rfl) fun mode => ?_
        exact Prog.perform_bind_obeys nofun fun _ => trivial

theorem runKeepalive_obeys_mode (id : Identity) (q : List Sent) :
    (runKeepalive id).Obeys modeProtocol q fun _ _ => True := by
  have hstatus : Modeless (At.registrationStatus execute) := calls_query nofun _
  refine hstatus.bind_obeys fun res q => ?_
  cases res with
  | error e => exact enterRecovery_obeys id q
  | ok stat =>
    have hban : Modeless _ :=
      calls_enterBanned_if modeless_of_minor id stat nofun fun _ => nofun
    have hsignal : Modeless (At.signalQuality execute) := calls_query nofun _
    refine Prog.perform_bind_obeys nofun fun _ => hsignal.bind_obeys fun rssi q => ?_
    cases rssi with
    | error e => exact hban.obeys q
    | ok rssi => exact Prog.perform_bind_obeys nofun fun _ => hban.obeys _

theorem handle_obeys_mode (h : Host) (w : Worker) (id : Identity) (selected : Selected)
    (q : List Sent) : (handle h w id selected).Obeys modeProtocol q fun _ _ => True := by
  by_cases hkeepalive : selected = .keepalive
  · rw [hkeepalive]
    exact runKeepalive_obeys_mode id q
  · have hquiet : Modeless (handle h w id selected) :=
      (calls_handle h w id selected).mono fun _ he hmode => hkeepalive (he.pduMode hmode)
    exact hquiet.obeys q

/-- In the init sequence there was no reset. -/
def modeHead : Label → List Sent → Prop
  | .init, q => recovered q
  | .main _, _ | .drain, _ => True
  | .watchdog, _ => False

/-! ### What holds along a run -/

/-- A command that is written where the protocol allows it. -/
theorem pduMode_append {q : List Sent} {e : Call} (a : e.Ans) (hallow : modeProtocol.allows q e)
    (hq : pduMode q = recovered q) : pduMode (e.sent a ++ q) = recovered (e.sent a ++ q) := by
  have hone : ∀ x : Sent, (x.mode = some true → recovered q ∨ inRecovery q) →
      pduMode (x :: q) = recovered (x :: q) := by
    intro x hx
    unfold pduMode recovered
    match hmode : x.mode with
    | some true => exact (Bool.or_eq_true_iff.mpr (hx hmode).symm).symm
    | some false => rfl
    | none => exact hq
  cases e with
  | execute c =>
    refine hone _ fun hmode => hallow ?_
    -- no other command sets the mode
    cases c with
    | setPDUMode => rfl
    | _ => cases hmode
  | executeSend hex n => exact hone _ nofun
  | _ => exact hq

/-- The protocol state is the list of the commands, and the two readings of the list agree: now, and
at every `AT+CMGS` and `AT+CMGR` so far. -/
structure ModeInv (past : History O) (q : List Sent) : Prop where
  sent : sentCommands past = q
  agree : pduMode q = recovered q
  exchanged : ∀ before ∈ exchanges past, pduMode before = recovered before

theorem modeInv_call {t : Thread} {e : Call} {a : e.Ans} {s : World O} {past : History O}
    {q : List Sent} (hinv : ModeInv past q) (hallow : modeProtocol.allows q e) :
    ModeInv (.call t e a s :: past) (modeProtocol.next q e a) where
  sent := congrArg (e.sent a ++ ·) hinv.sent
  agree := pduMode_append a hallow hinv.agree
  exchanged := by
    intro before hbefore
    unfold exchanges at hbefore
    split_ifs at hbefore
    · rcases List.mem_cons.mp hbefore with rfl | hmem
      · rw [hinv.sent]
        exact hinv.agree
      · exact hinv.exchanged before hmem
    · exact hinv.exchanged before hbefore

theorem sent_of_watchdog {e : Call} (he : e.ofWatchdog = true) (a : e.Ans) : e.sent a = [] := by
  cases e with
  | execute | executeSend => cases he
  | _ => rfl

/-! ### Whole runs -/

variable (h : Host) (w : Worker) (outside : C → O → (e : Call) → e.Ans → Option O)

/-- `Run` keeps to `modeProtocol`. -/
def modeProof : WorkerProof h w outside modeProtocol where
  head := modeHead
  final _ _ := True
  inv _ := ModeInv
  not_watchdog _ hq := hq
  init_obeys q hq := by
    refine init_obeys_of_keeps h w (I := fun q => recovered q) (fun q e hq he => ?_) hq
      (fun _ _ _ => trivial) fun _ _ => trivial
    refine modeProtocol_keeps e hq ?_
    cases e with
    | execute c =>
      cases c with
      | hardReset | radioOn => cases he
      | _ => rfl
    | _ => rfl
  main_obeys id q _ := by
    refine mainLoop_obeys_of_keeps h w id (I := fun _ => True) nofun ⟨nofun, trivial⟩
      (fun selected => handle_obeys_mode h w id selected _)
      (fun q e _ he => ⟨?_, fun _ => trivial⟩) (fun _ _ => trivial) fun _ _ _ => trivial
    rintro rfl
    cases he
  drain_obeys q _ := by
    refine drainInboundCh_obeys_of_keeps (I := fun _ => True) (fun q e _ he => ?_) trivial
      (fun _ _ => trivial) fun _ _ => trivial
    refine ⟨?_, fun _ => trivial⟩
    rintro rfl
    cases he
  run_inv hinv hallow _ := modeInv_call hinv hallow
  watchdog_inv {ch s past q e a s'} hinv he _ := by
    have hcall := modeInv_call (t := .watchdog) (a := a) (s := s) hinv fun h => by
      subst h
      cases he
    unfold modeProtocol at hcall
    dsimp only at hcall
    rwa [sent_of_watchdog he] at hcall
  outer_inv hinv _ := ⟨hinv.sent, hinv.agree, hinv.exchanged⟩

/-- **When the modem is in PDU mode.**  Take any run of a worker and any `AT+CMGS` or `AT+CMGR` that
it wrote.  The last reset or radio cycle before it, if any, was followed by a successful
`AT+CMGF=0` iff it was the radio cycle of a recovery that got through: `AT+CFUN=0`, `AT+CFUN=1`,
`AT` and `AT+CMGF=0`, one right after the other and all of them successful. -/
theorem pduMode_iff {o : O} {c : RecordedConfig O}
    (hreach : (workerSystem h w outside).recorded.Reach
      ((workerSystem h w outside).recorded.start ⟨World.new o, []⟩ entry) c) :
    ∀ before ∈ exchanges c.state.history, pduMode before ↔ recovered before := by
  intro before hbefore
  have hnew : ModeInv ([] : History O) [] := ⟨rfl, rfl, nofun⟩
  obtain ⟨q, hinv, _⟩ := (modeProof h w outside).reach hnew rfl hreach
  have hinv : ModeInv c.state.history q := hinv
  rw [hinv.exchanged before hbefore]

/-! ### A message after a recovery and after a reset -/

/-- The answers of a modem that can be reset, and that does not answer `AT+CREG?`. -/
def resetAnswer (selected : Selected) (st : State) : (e : Call) → e.Ans
  | .execute .hardReset => .ok []
  | .execute .registrationStatus => .error (.timeout (At.Cmd.text .registrationStatus))
  | e => plainAnswer selected none st e

/-- A number of calls of `Run`, with these answers. -/
def resetCalls (n : ℕ) (selected : Selected) (st : State) :
    List (System.Move Thread Call Call.Ans Unit Outer) :=
  List.replicate n (.call .worker () (resetAnswer selected st))

/-- The commands before each exchange of a run. -/
def resetRun (moves : List (System.Move Thread Call Call.Ans Unit Outer)) :
    Option (List (List Sent)) :=
  (plainSystem.recorded.play (plainSystem.recorded.start ⟨World.new (), []⟩ entry)
    (resetCalls 16 .reset .active ++ .jump .worker :: moves)).map fun c => exchanges c.state.history

/-- A keepalive fails, the recovery gets through, and a message arrives. -/
def recoveryMoves : List (System.Move Thread Call Call.Ans Unit Outer) :=
  resetCalls 13 .keepalive .active ++ .jump .worker ::
    resetCalls 2 (.urc (Go.lit "+CMTI: \"SM\",3")) .active

/-- The modem is reset by the control API, and a message arrives. -/
def resetMoves : List (System.Move Thread Call Call.Ans Unit Outer) :=
  .env .requestReset :: resetCalls 8 .reset .initializing ++ .jump .worker ::
    resetCalls 2 (.urc (Go.lit "+CMTI: \"SM\",3")) .initializing

/-- After the recovery the message is read in PDU mode. -/
theorem pduMode_iff_recovery :
    ∃ c, plainSystem.recorded.Reach (plainSystem.recorded.start ⟨World.new (), []⟩ entry) c ∧
      exchanges c.state.history ≠ [] ∧ ∀ before ∈ exchanges c.state.history, pduMode before := by
  have hrun : (resetRun recoveryMoves).map (fun l => (l.length, l.all recovered)) =
      some (1, true) := by
    decide +kernel
  obtain ⟨l, hl, hres⟩ := Option.map_eq_some_iff.mp hrun
  obtain ⟨c, hplay, rfl⟩ := Option.map_eq_some_iff.mp hl
  obtain ⟨hlength, hall⟩ := Prod.mk.inj hres
  have hreach := System.reach_of_play hplay
  have hne : exchanges c.state.history ≠ [] := by
    intro hnil
    rw [hnil] at hlength
    cases hlength
  refine ⟨c, hreach, hne, fun before hbefore => ?_⟩
  exact (pduMode_iff .plain .plain _ hreach before hbefore).mpr (List.all_eq_true.mp hall _ hbefore)

/-- After the reset the worker goes on without `AT+CMGF=0`. -/
theorem not_pduMode_reset :
    ∃ c, plainSystem.recorded.Reach (plainSystem.recorded.start ⟨World.new (), []⟩ entry) c ∧
      ∃ before ∈ exchanges c.state.history, ¬ pduMode before := by
  have hrun : (resetRun resetMoves).map (fun l => l.any fun before => ! pduMode before) =
      some true := by
    decide +kernel
  obtain ⟨l, hl, hany⟩ := Option.map_eq_some_iff.mp hrun
  obtain ⟨c, hplay, rfl⟩ := Option.map_eq_some_iff.mp hl
  obtain ⟨before, hbefore, hmode⟩ := List.any_eq_true.mp hany
  refine ⟨c, System.reach_of_play hplay, before, hbefore, ?_⟩
  simpa using hmode

end SmsGate.Modem
