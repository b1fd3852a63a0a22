import SmsGate.Modem.Equiv.Drain

/-!
# The signal strength that a worker reports

The result of a `SEND_SMS` task has a field `signal_csq`.  It is filled from `signalRSSI`, which the
keepalive, the signal poll and `CHECK_SIGNAL` tasks write: there `ParseCSQ` has turned the value of
`+CSQ` into dBm.

* `isDBm_of_signalOf`: what the three handlers store lies between -113 and -51;
* `signalProtocol`: what is acknowledged has the value that was loaded last;
* `signalCSQ_iff`: the field of a result is a value of `+CSQ` if and only if no signal strength had
  been stored.
-/

namespace SmsGate.Modem

open Go Go.Strings Tunnel

variable {O C : Type}

/-! ### Two units -/

/-- A value of `+CSQ`. -/
def IsCSQ (csq : ℤ) : Prop := (0 ≤ csq ∧ csq ≤ 31) ∨ csq = 99

/-- A strength in dBm, as `ParseCSQ` gives it. -/
def IsDBm (rssi : ℤ) : Prop := -113 ≤ rssi ∧ rssi ≤ -51

theorem IsDBm.not_isCSQ {rssi : ℤ} (h : IsDBm rssi) : ¬ IsCSQ rssi := by
  unfold IsDBm at h
  unfold IsCSQ
  omega

theorem IsDBm.wrap32_eq {rssi : ℤ} (h : IsDBm rssi) : wrap32 rssi = rssi := by
  unfold IsDBm at h
  unfold wrap32
  omega

theorem isDBm_of_parseCSQ {line : At.Line} {rssi : ℤ} (h : At.parseCSQ line = .ok rssi) :
    IsDBm rssi := by
  unfold At.parseCSQ at h
  dsimp only at h
  split_ifs at h
  split at h
  · cases h
  · split_ifs at h with hrange hunknown
    · cases h
      unfold IsDBm
      omega
    · cases h
      unfold IsDBm
      omega

theorem isDBm_of_signalOf {lines : List At.Line} {rssi : ℤ} (h : At.signalOf lines = .ok rssi) :
    IsDBm rssi := by
  unfold At.signalOf at h
  split at h
  · exact isDBm_of_parseCSQ h
  · cases h

/-! ### What is reported -/

/-- The signal strength that was stored last. -/
def lastSignal : History O → Option ℤ
  | [] => none
  | .call _ (.storeSignalRSSI rssi) _ _ :: _ => some rssi
  | _ :: past => lastSignal past

/-- A `TASK_ACK` of a `SEND_SMS` task with a result. -/
structure Reports (h : Host) (past : History O) (a : TaskAckEvent) (r : SendSMSResult) : Prop where
  sends : ∃ it, lastSelected past = some (.task it) ∧ it.task.action = .sendSMS
  result : ∃ json, a.result = some json ∧ h.marshalSendSMSResult r = .ok json

/-- The JSON of a result has its `signal_csq`. -/
def Host.TellsSignal (h : Host) : Prop :=
  ∀ r r' json, h.marshalSendSMSResult r = .ok json → h.marshalSendSMSResult r' = .ok json →
    r.signalCSQ = r'.signalCSQ

/-! ### Where the reported value comes from -/

/-- The case that was selected last, and the signal strength that was loaded since. -/
structure Loaded where
  selected : Option Selected
  rssi : Option ℤ

/-- The JSON is that of a result with the value that was loaded. -/
def Loaded.Tells (h : Host) (q : Loaded) (json : List UInt8) : Prop :=
  ∃ r, q.rssi = some r.signalCSQ ∧ h.marshalSendSMSResult r = .ok json

/-- What is stored is in dBm, and the result of a `SEND_SMS` task tells what was loaded. -/
def signalProtocol (h : Host) : Protocol Call Call.Ans Loaded where
  allows q e :=
    match e with
    | .storeSignalRSSI rssi => IsDBm rssi
    | .ack _ a => ∀ it json, q.selected = some (.task it) → it.task.action = .sendSMS →
        a.result = some json → q.Tells h json
    | _ => True
  next q e a :=
    match e, a with
    | .select, (selected : Selected) => ⟨some selected, none⟩
    | .loadSignalRSSI, (rssi : ℤ) => { q with rssi := some rssi }
    | .storeSignalRSSI _, _ => { q with rssi := none }
    | _, _ => q

/-- The calls that can stand anywhere in a handler. -/
def Call.reportless : Call → Prop
  | .select | .ack _ _ => False
  | .storeSignalRSSI rssi => IsDBm rssi
  | _ => True

theorem reportless_of_minor (e : Call) (he : e.minor = true) : e.reportless := by
  cases e with
  | select | ack | storeSignalRSSI => cases he
  | _ => trivial

theorem reportless_signal (lines : List At.Line) (rssi : ℤ) (h : At.signalOf lines = .ok rssi) :
    Call.reportless (.storeSignalRSSI (wrap32 rssi)) := by
  have hdBm := isDBm_of_signalOf h
  change IsDBm (wrap32 rssi)
  rwa [hdBm.wrap32_eq]

theorem signalProtocol_reportless (h : Host) {q : Loaded} {e : Call} (he : e.reportless) :
    (signalProtocol h).allows q e ∧
      ∀ a, ((signalProtocol h).next q e a).selected = q.selected := by
  cases e with
  | select | ack => exact absurd he id
  | storeSignalRSSI rssi => exact ⟨he, fun _ => rfl⟩
  | _ => exact ⟨trivial, fun _ => rfl⟩

/-- A program that does not acknowledge. -/
abbrev Reportless {α : Type} (p : Work α) : Prop := p.Calls Call.reportless

theorem Reportless.obeys {α : Type} {p : Work α} (hp : Reportless p) (h : Host) (q : Loaded) :
    p.Obeys (signalProtocol h) q fun _ q' => q'.selected = q.selected := by
  refine Prog.Calls.obeys_of_keeps hp (I := fun q' : Loaded => q'.selected = q.selected)
    (fun q' e hq' he => ?_) rfl
  obtain ⟨hallow, hnext⟩ := signalProtocol_reportless h he
  exact ⟨hallow, fun a => (hnext a).trans hq'⟩

/-- `doSendSMS` loads the value that it reports. -/
def signalSend (h : Host) (id : Identity) (task : Task) (q : Loaded) :
    SendProof h id task (signalProtocol h) q fun res q' =>
      q'.selected = q.selected ∧ ∀ json, res = .ok (some json) → q'.Tells h json where
  admitted q' := q'.selected = q.selected
  refused _ _ := ⟨rfl, nofun⟩
  asks _ := trivial
  limited _ _ := ⟨rfl, nofun⟩
  agreed _ := rfl
  sends _ _ _ hq' := ⟨trivial, fun _ => hq'⟩
  failed _ _ hq' := ⟨hq', nofun⟩
  loads _ _ := ⟨trivial, fun _ => trivial⟩
  sent _ _ _ hq' := by
    refine ⟨fun _ => ⟨hq', nofun⟩, fun parts json hjson => ⟨hq', fun json' heq => ?_⟩⟩
    cases heq
    exact ⟨_, rfl, hjson⟩

theorem doTask_obeys_signal (h : Host) (id : Identity) (task : Task) (q : Loaded) :
    (doTask h id task).Obeys (signalProtocol h) q fun res q' => q'.selected = q.selected ∧
      (task.action = .sendSMS → ∀ json, res = .ok (some json) → q'.Tells h json) := by
  by_cases haction : task.action = .sendSMS
  · rw [doTask, haction]
    refine (signalSend h id task q).obeys.mono fun res q' hq' => ?_
    exact ⟨hq'.1, fun _ => hq'.2⟩
  · have hquiet : Reportless (doTask h id task) :=
      calls_doTask reportless_of_minor h id task trivial (fun _ _ => trivial) trivial trivial
        trivial trivial (fun _ => trivial) trivial reportless_signal
    refine (hquiet.obeys h q).mono fun res q' hq' => ?_
    exact ⟨hq', fun hsend => absurd hsend haction⟩

theorem executeTask_obeys_signal (h : Host) (id : Identity) (it : InboundTask) {q : Loaded}
    (hq : q.selected = some (.task it)) :
    (executeTask h id it).Obeys (signalProtocol h) q fun _ _ => True := by
  refine Prog.perform_bind_obeys trivial fun prev => Prog.perform_bind_obeys trivial fun _ => ?_
  refine (doTask_obeys_signal h id it.task q).bind fun res q₁ hq₁ => ?_
  obtain ⟨hselected, htells⟩ := hq₁
  refine Prog.perform_bind_obeys trivial fun ns => ?_
  refine Prog.perform_bind_obeys ?_ fun _ => Prog.perform_bind_obeys trivial fun _ => trivial
  intro it' json hit haction hresult
  have hit : q₁.selected = some (.task it') := hit
  cases (hselected.trans hq).symm.trans hit
  refine htells haction json ?_
  cases res with
  | error e => cases hresult
  | ok result => exact congrArg Except.ok hresult

theorem handle_obeys_signal (h : Host) (w : Worker) (id : Identity) (selected : Selected)
    {q : Loaded} (hq : q.selected = some selected) :
    (handle h w id selected).Obeys (signalProtocol h) q fun _ _ => True := by
  by_cases htask : ∃ it, selected = .task it
  · obtain ⟨it, rfl⟩ := htask
    exact executeTask_obeys_signal h id it hq
  · have hquiet : Reportless (handle h w id selected) := by
      refine (calls_handle h w id selected).mono fun e he => ?_
      cases e with
      | ack => exact absurd (he.task rfl) htask
      | select => cases he.ofRun
      | storeSignalRSSI rssi =>
        obtain ⟨lines, rssi', hrssi, rfl⟩ := he.signal rssi rfl
        exact reportless_signal lines rssi' hrssi
      | _ => trivial
    exact (hquiet.obeys h q).mono fun _ _ _ => trivial

/-- Once the context is cancelled no case is selected any more. -/
def signalHead : Label → Loaded → Prop
  | .init, _ | .main _, _ => True
  | .drain, q => q.selected = some .ctxDone
  | .watchdog, _ => False

theorem drainInboundCh_obeys_signal (h : Host) {q : Loaded} (hq : q.selected = some .ctxDone) :
    drainInboundCh.Obeys (signalProtocol h) q (RunEnds signalHead fun _ _ => True) := by
  refine drainInboundCh_obeys_of_keeps (I := fun q : Loaded => q.selected = some .ctxDone)
    (fun q e hq he => ?_) hq (fun _ hq => hq) fun _ _ => trivial
  cases e with
  | ack n a =>
    refine ⟨fun it json hit _ _ => ?_, fun _ => hq⟩
    cases hq.symm.trans hit
  | tryRecv | now | decConnections | closeWatchdog => exact ⟨trivial, fun _ => hq⟩
  | _ => cases he

/-! ### What holds along a run -/

/-- `signalRSSI` has what was stored last, and a worker that has loaded it knows it. -/
structure SignalInv (s : World O) (past : History O) (q : Loaded) : Prop where
  selected : lastSelected past = q.selected
  signal : s.signalRSSI = (lastSignal past).getD 0
  dBm : ∀ rssi, lastSignal past = some rssi → IsDBm rssi
  loaded : ∀ rssi, q.rssi = some rssi → s.signalRSSI = rssi

theorem SignalInv.of_same {s s' : World O} {past past' : History O} {q : Loaded}
    (hinv : SignalInv s past q) (hsignal : s'.signalRSSI = s.signalRSSI)
    (hselected : lastSelected past' = lastSelected past)
    (hlast : lastSignal past' = lastSignal past) : SignalInv s' past' q where
  selected := hselected.trans hinv.selected
  signal := by rw [hsignal, hlast, hinv.signal]
  dBm rssi hrssi := hinv.dBm rssi (hlast.symm.trans hrssi)
  loaded rssi hrssi := hsignal.trans (hinv.loaded rssi hrssi)

theorem signalInv_call (h : Host) {outside : C → O → (e : Call) → e.Ans → Option O} {ch : C}
    {s s' : World O} {past : History O} {q : Loaded} {e : Call} {a : e.Ans}
    (hinv : SignalInv s past q) (hallow : (signalProtocol h).allows q e)
    (hexec : s.exec outside ch e a = some s') :
    SignalInv s' (.call .worker e a s :: past) ((signalProtocol h).next q e a) := by
  have hsignal := (effect_of_exec hexec).signalRSSI
  cases e with
  | select => exact ⟨rfl, hsignal.trans hinv.signal, hinv.dBm, nofun⟩
  | loadSignalRSSI =>
    obtain ⟨hload, -⟩ := Option.ite_none_right_eq_some.mp hexec
    refine ⟨hinv.selected, hsignal.trans hinv.signal, hinv.dBm, fun rssi hrssi => ?_⟩
    obtain rfl : a = rssi := Option.some.inj hrssi
    exact hsignal.trans hload.symm
  | storeSignalRSSI rssi =>
    refine ⟨hinv.selected, hsignal, fun rssi' hrssi' => ?_, nofun⟩
    obtain rfl : rssi = rssi' := Option.some.inj hrssi'
    exact hallow
  | _ => exact hinv.of_same hsignal rfl rfl

theorem signalInv_watchdog {outside : C → O → (e : Call) → e.Ans → Option O} {ch : C}
    {s s' : World O} {past : History O} {q : Loaded} {e : Call} {a : e.Ans}
    (hinv : SignalInv s past q) (he : e.ofWatchdog = true)
    (hexec : s.exec outside ch e a = some s') : SignalInv s' (.call .watchdog e a s :: past) q := by
  have hsignal := (effect_of_exec hexec).signalRSSI
  cases e with
  | watchdogTick | loadLastLoop | now | storeState => exact hinv.of_same hsignal rfl rfl
  | _ => cases he

/-! ### Whole runs -/

variable (h : Host) (w : Worker) (outside : C → O → (e : Call) → e.Ans → Option O)

/-- `Run` keeps to `signalProtocol`. -/
def signalProof : WorkerProof h w outside (signalProtocol h) where
  head := signalHead
  final _ _ := True
  inv := SignalInv
  not_watchdog _ hq := hq
  init_obeys q _ := by
    refine init_obeys_of_keeps h w (I := fun _ => True) (fun q e _ he => ⟨?_, fun _ => trivial⟩)
      trivial (fun _ _ _ => trivial) fun _ _ => trivial
    cases e with
    | ack | storeSignalRSSI => cases he
    | _ => trivial
  main_obeys id q _ := by
    refine mainLoop_obeys_of_keeps h w id (I := fun _ => True) trivial ⟨trivial, rfl⟩
      (fun selected => handle_obeys_signal h w id selected rfl)
      (fun q e _ he => ⟨?_, fun _ => trivial⟩) (fun _ _ => trivial) fun _ _ _ => trivial
    cases e with
    | ack | storeSignalRSSI => cases he
    | _ => trivial
  drain_obeys q hq := drainInboundCh_obeys_signal h hq
  run_inv hinv hallow hexec := signalInv_call h hinv hallow hexec
  watchdog_inv hinv he hexec := signalInv_watchdog hinv he hexec
  outer_inv hinv hstep := hinv.of_same (effect_of_outer hstep).signalRSSI rfl rfl

/-- The field of a result is what was stored last. -/
theorem signalCSQ_eq (hjson : h.TellsSignal) {o : O} {c : RecordedConfig O}
    (hreach : (workerSystem h w outside).recorded.Reach
      ((workerSystem h w outside).recorded.start ⟨World.new o, []⟩ entry) c)
    {later past : History O} {n : ℕ} {a : TaskAckEvent} {u : Unit} {s : World O}
    (hhistory : c.state.history = later ++ .call .worker (.ack n a) u s :: past)
    {r : SendSMSResult} (hreports : Reports h past a r) :
    r.signalCSQ = (lastSignal past).getD 0 ∧
      ∀ rssi, lastSignal past = some rssi → IsDBm rssi := by
  obtain ⟨c', hreach', hstate, k, ch, s', hrun, -⟩ :=
    System.exists_reach_of_history hreach rfl hhistory
  have hnew : SignalInv (World.new o) [] ⟨none, none⟩ := ⟨rfl, rfl, nofun, nofun⟩
  obtain ⟨q, hinv, hat⟩ := (signalProof h w outside).reach hnew trivial hreach'
  have hinv : SignalInv c'.state.state c'.state.history q := hinv
  rw [hstate] at hinv
  rw [hrun] at hat
  obtain ⟨it, hit, haction⟩ := hreports.sends
  obtain ⟨json, hresult, hr⟩ := hreports.result
  -- the acknowledgement was allowed, so its JSON tells what was loaded
  obtain ⟨r', hrssi, hr'⟩ := hat.1 it json (hinv.selected.symm.trans hit) haction hresult
  refine ⟨?_, hinv.dBm⟩
  rw [hjson r r' json hr hr', ← hinv.loaded _ hrssi]
  exact hinv.signal

/-- **What `signal_csq` is.**  Take any run of a worker and any `TASK_ACK` in it that reports the
result of a `SEND_SMS` task.  The field `signal_csq` of the result is a value of `+CSQ` if and only
if no signal strength had been stored before: from then on it is a strength in dBm. -/
theorem signalCSQ_iff (hjson : h.TellsSignal) {o : O} {c : RecordedConfig O}
    (hreach : (workerSystem h w outside).recorded.Reach
      ((workerSystem h w outside).recorded.start ⟨World.new o, []⟩ entry) c)
    {later past : History O} {n : ℕ} {a : TaskAckEvent} {u : Unit} {s : World O}
    (hhistory : c.state.history = later ++ .call .worker (.ack n a) u s :: past)
    {r : SendSMSResult} (hreports : Reports h past a r) :
    IsCSQ r.signalCSQ ↔ lastSignal past = none := by
  obtain ⟨heq, hdBm⟩ := signalCSQ_eq h w outside hjson hreach hhistory hreports
  rw [heq]
  cases hlast : lastSignal past with
  | none => exact iff_of_true (.inl ⟨le_rfl, by decide⟩) rfl
  | some rssi => exact iff_of_false (hdBm rssi hlast).not_isCSQ nofun

/-! ### A message before and after the first poll -/

/-- A message to send. -/
def signalPayload : SendSMSPayload := ⟨lit "8949", lit "+14155550123", lit "hi", lit "GSM7"⟩

/-- A host that knows it. -/
def signalHost : Host := .sending signalPayload

theorem signalHost_tells : signalHost.TellsSignal := by
  intro r r' json hr hr'
  have hsame : jsonSendSMSResult r = jsonSendSMSResult r' := Except.ok.inj (hr.trans hr'.symm)
  simp only [jsonSendSMSResult, List.append_assoc] at hsame
  -- the two numbers of a result end at a comma
  obtain ⟨-, hrest⟩ := Strconv.decimal_comma_inj (List.append_cancel_left hsame)
  exact (Strconv.decimal_comma_inj (List.append_cancel_left hrest)).1

/-- The worker of that host. -/
def signalSystem : System Thread (World Unit) Call Call.Ans Label Exit Unit Outer :=
  workerSystem signalHost .plain fun _ _ _ _ => some ()

/-- The answers in a run: the modem tells its signal, and `signalRSSI` has the value `rssi`. -/
def signalAnswer (selected : Selected) (rssi : ℤ) : (e : Call) → e.Ans
  | .execute .signalQuality => .ok [lit "+CSQ: 18,0"]
  | .loadSignalRSSI => rssi
  | e => plainAnswer selected none .active e

/-- A number of calls of `Run`, with these answers. -/
def signalCalls (n : ℕ) (selected : Selected) (rssi : ℤ) :
    List (System.Move Thread Call Call.Ans Unit Outer) :=
  List.replicate n (.call .worker () (signalAnswer selected rssi))

/-- The task that is dispatched. -/
def signalTask : InboundTask := ⟨⟨[], .sendSMS, jsonSendSMS signalPayload⟩, 0⟩

/-- The init sequence succeeds; after some moves a message is sent and acknowledged. -/
def signalMoves (polls : List (System.Move Thread Call Call.Ans Unit Outer)) (rssi : ℤ) :
    List (System.Move Thread Call Call.Ans Unit Outer) :=
  signalCalls 16 .reset 0 ++ .jump .worker :: polls ++
    [.env .lookup, .env (.send signalTask.task)] ++ signalCalls 9 (.task signalTask) rssi

/-- The result of the message, with a value of `signal_csq`. -/
def signalResult (csq : ℤ) : SendSMSResult := ⟨1, csq, lit "NOT_REGISTERED"⟩

/-- The first message, before any poll: the field is 0. -/
theorem signalCSQ_iff_first : ∃ c past n a s r, signalSystem.recorded.Reach
      (signalSystem.recorded.start ⟨World.new (), []⟩ entry) c ∧
    c.state.history = [] ++ .call .worker (.ack n a) () s :: past ∧ Reports signalHost past a r ∧
    IsCSQ r.signalCSQ := by
  have hplay : ∃ c past n a s, signalSystem.recorded.play
        (signalSystem.recorded.start ⟨World.new (), []⟩ entry) (signalMoves [] 0) = some c ∧
      c.state.history = [] ++ .call .worker (.ack n a) () s :: past ∧
      a.result = some (jsonSendSMSResult (signalResult 0)) ∧
      lastSelected past = some (.task signalTask) ∧ lastSignal past = none :=
    ⟨_, _, _, _, _, rfl, rfl, rfl, rfl, rfl⟩
  obtain ⟨c, past, n, a, s, hplay, hhistory, hresult, hselected, hnone⟩ := hplay
  have hreach := System.reach_of_play hplay
  have hreports : Reports signalHost past a (signalResult 0) :=
    ⟨⟨signalTask, hselected, rfl⟩, _, hresult, rfl⟩
  exact ⟨c, past, n, a, s, _, hreach, hhistory, hreports,
    (signalCSQ_iff signalHost .plain _ signalHost_tells hreach hhistory hreports).mpr hnone⟩

/-- The modem has told `+CSQ: 18,0` in a poll: the next message reports -77. -/
theorem not_signalCSQ_polled : ∃ c past n a s r, signalSystem.recorded.Reach
      (signalSystem.recorded.start ⟨World.new (), []⟩ entry) c ∧
    c.state.history = .call .worker (.ack n a) () s :: past ∧ Reports signalHost past a r ∧
    ¬ IsCSQ r.signalCSQ := by
  have hplay : ∃ c past n a s, signalSystem.recorded.play
        (signalSystem.recorded.start ⟨World.new (), []⟩ entry)
        (signalMoves (signalCalls 6 .signal 0 ++ [.jump .worker]) (-77)) = some c ∧
      c.state.history = .call .worker (.ack n a) () s :: past ∧
      a.result = some (jsonSendSMSResult (signalResult (-77))) ∧
      lastSelected past = some (.task signalTask) := ⟨_, _, _, _, _, rfl, rfl, rfl, rfl⟩
  obtain ⟨c, past, n, a, s, hplay, hhistory, hresult, hselected⟩ := hplay
  have hreports : Reports signalHost past a (signalResult (-77)) :=
    ⟨⟨signalTask, hselected, rfl⟩, _, hresult, rfl⟩
  refine ⟨c, past, n, a, s, _, System.reach_of_play hplay, hhistory, hreports, ?_⟩
  exact IsDBm.not_isCSQ ⟨by decide, by decide⟩

end SmsGate.Modem
