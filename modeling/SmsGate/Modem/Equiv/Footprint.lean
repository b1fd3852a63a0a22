import SmsGate.Modem.Worker

/-!
# What the methods of a worker can call

Most calls of a method matter to nobody but the method: it reads the clock, sleeps, asks the modem
for its operator.  These are the minor calls.  A method's footprint is given here by the calls that
it makes beside them: a predicate `ok` that holds of the minor calls and of these others holds of
all its calls.  What is known of any call of a handler is `Call.MadeBy`.
-/

namespace SmsGate.Modem

open Tunnel

/-- The commands that neither disturb the modem, nor concern messages or the registration. -/
def minorCmd : At.Cmd → Bool
  | .ping | .setPDUMode | .registrationStatus | .readSMS _ | .deleteSMS _ | .radioOff | .radioOn
  | .hardReset => false
  | _ => true

/-- The calls that matter to the method only that makes them. -/
def Call.minor : Call → Bool
  | .newUUID | .now | .sleep _ | .panic => true
  | .loadRegStat => true
  | .event (.modemAlert e) => e.alertCode ≠ .simBanned
  | .execute c => minorCmd c
  | _ => false

/-- The calls by which single messages are read, inserted, deleted or passed on. -/
def Call.receives : Call → Bool
  | .insert _ | .event (.smsReceived _) => true
  | .execute (.readSMS _) | .execute (.deleteSMS _) => true
  | _ => false

section

variable {ok : Call → Prop} (hok : ∀ e : Call, e.minor = true → ok e)

theorem calls_ask {e : Call} (he : ok e) : (ask e).Calls ok := Prog.calls_perform.mpr he

theorem calls_outcome {c : At.Cmd} (hc : ok (.execute c)) : (At.outcome execute c).Calls ok :=
  (calls_ask hc).bind fun _ => Prog.calls_pure _

theorem calls_query {α : Type} {c : At.Cmd} (hc : ok (.execute c))
    (parse : List At.Line → Except At.Err α) : (At.query execute c parse).Calls ok :=
  (calls_ask hc).bind fun _ => Prog.calls_pure _

/-- A query for the signal, and what is done with the strength that it gives. -/
theorem calls_signalQuality_bind {α : Type} {f : Except At.Err ℤ → Work α}
    (hc : ok (.execute .signalQuality)) (herror : ∀ e, (f (.error e)).Calls ok)
    (hrssi : ∀ lines rssi, At.signalOf lines = .ok rssi → (f (.ok rssi)).Calls ok) :
    (At.signalQuality execute >>= f).Calls ok := by
  refine ⟨hc, fun (res : Except At.Err (List At.Line)) => ?_⟩
  change (f (res.bind At.signalOf)).Calls ok
  cases res with
  | error e => exact herror e
  | ok lines =>
    cases hsignal : At.signalOf lines with
    | error e =>
      rw [show (Except.ok lines).bind At.signalOf = .error e from hsignal]
      exact herror e
    | ok rssi =>
      rw [show (Except.ok lines).bind At.signalOf = .ok rssi from hsignal]
      exact hrssi lines rssi hsignal

include hok

/-! ### Messages -/

theorem calls_newEnvelope (type : MsgType) : (newEnvelope type).Calls ok :=
  (calls_ask (hok _ rfl)).bind fun _ => (calls_ask (hok _ rfl)).bind fun _ => Prog.calls_pure _

theorem calls_newEnvelopeFrom (type : MsgType) (messageID : List UInt8) :
    (newEnvelopeFrom type messageID).Calls ok :=
  (calls_ask (hok _ rfl)).bind fun _ => Prog.calls_pure _

theorem calls_pushAlert (iccid : List UInt8) {alertCode : AlertCode} (detail : List UInt8)
    (halert : alertCode ≠ .simBanned) : (pushAlert iccid alertCode detail).Calls ok :=
  (calls_newEnvelope hok _).bind fun _ => calls_ask (hok _ (decide_eq_true halert))

/-! ### State transitions -/

theorem calls_enterBanned (id : Identity) (detail : List UInt8) (hstore : ok (.storeState .banned))
    (hevent : ∀ e, ok (.event (.modemAlert e))) : (enterBanned id detail).Calls ok :=
  (calls_ask hstore).bind fun _ => (calls_newEnvelope hok _).bind fun _ => calls_ask (hevent _)

theorem calls_enterReset (id : Identity) (hstore : ∀ st, ok (.storeState st))
    (hreset : ok (.execute .hardReset)) : (enterReset id).Calls ok := by
  refine (calls_ask (hstore _)).bind fun _ => (calls_outcome hreset).bind fun res => ?_
  cases res with
  | error e => exact (calls_ask (hstore _)).bind fun _ => calls_pushAlert hok _ _ nofun
  | ok _ => exact (calls_ask (hok _ rfl)).bind fun _ => calls_ask (hstore _)

theorem calls_enterRecovery (id : Identity) (hstore : ∀ st, ok (.storeState st))
    (hoff : ok (.execute .radioOff)) (hon : ok (.execute .radioOn)) (hping : ok (.execute .ping))
    (hmode : ok (.execute .setPDUMode)) (hreset : (enterReset id).Calls ok) :
    (enterRecovery id).Calls ok := by
  refine (calls_ask (hstore _)).bind fun _ => (calls_outcome hoff).bind fun off => ?_
  cases off with
  | error e => exact hreset
  | ok _ =>
    refine (calls_ask (hok _ rfl)).bind fun _ => (calls_outcome hon).bind fun on => ?_
    cases on with
    | error e => exact hreset
    | ok _ =>
      refine (calls_ask (hok _ rfl)).bind fun _ => (calls_outcome hping).bind fun ping => ?_
      cases ping with
      | error e => exact hreset
      | ok _ => exact (calls_outcome hmode).bind fun _ => calls_ask (hstore _)

/-! ### Receiving -/

theorem calls_receiveSMS (h : Host) (w : Worker) (id : Identity) (index : ℤ)
    (hreceive : ∀ e : Call, e.receives = true → (∀ m, e = .insert m → m.iccid = id.iccid) → ok e) :
    (receiveSMS h w id index).Calls ok := by
  refine (calls_query (hreceive _ rfl nofun) _).bind fun res => ?_
  cases res with
  | error e => exact Prog.calls_pure _
  | ok pduHex =>
    dsimp only
    cases At.decodePDU h.toHost pduHex with
    | panic => exact calls_ask (hok _ rfl)
    | err e => exact (calls_outcome (hreceive _ rfl nofun)).bind fun _ => Prog.calls_pure _
    | ok decoded =>
      refine (calls_ask (hreceive _ rfl ?_)).bind fun inserted => ?_
      · rintro m ⟨⟩
        rfl
      cases inserted with
      | error e => exact Prog.calls_pure _
      | ok p =>
        refine (calls_outcome (hreceive _ rfl nofun)).bind fun _ => ?_
        exact Prog.Calls.ite (Prog.calls_pure _)
          ((calls_newEnvelope hok _).bind fun _ => calls_ask (hreceive _ rfl nofun))

theorem calls_handleURC (h : Host) (w : Worker) (id : Identity) (urc : At.Line)
    (hreceive : ∀ e : Call, e.receives = true → (∀ m, e = .insert m → m.iccid = id.iccid) → ok e)
    (hreg : ∀ stat, ok (.storeRegStat stat)) (hstore : ok (.storeState .banned))
    (hevent : ∀ e, ok (.event (.modemAlert e))) : (handleURC h w id urc).Calls ok := by
  unfold handleURC
  apply Prog.Calls.ite
  · cases At.parseCMTI urc with
    | error e => exact Prog.calls_pure _
    | ok idx => exact calls_receiveSMS hok h w id idx hreceive
  · apply Prog.Calls.ite
    · generalize At.parseCREG urc = stat
      refine (calls_ask (hreg _)).bind fun _ => ?_
      exact Prog.Calls.ite (calls_enterBanned hok id urc hstore hevent) (Prog.calls_pure _)
    · exact Prog.calls_pure _

/-! ### Tasks -/

omit hok in
theorem calls_sendParts (h : Host) (total i : ℕ) (parts : List At.EncodedPDU)
    (hsend : ∀ hex n, ok (.executeSend hex n)) : (sendParts h total i parts).Calls ok := by
  induction parts generalizing i with
  | nil => exact Prog.calls_pure _
  | cons part parts ih =>
    refine (calls_ask (hsend _ _)).bind fun sent => ?_
    cases sent with
    | error e => exact Prog.calls_pure _
    | ok _ => exact ih (i + 1)

theorem calls_doSendSMS (h : Host) (id : Identity) (task : Task)
    (hallow : ok (.allow id.iccid)) (hsend : ∀ hex n, ok (.executeSend hex n))
    (hload : ok .loadSignalRSSI) : (doSendSMS h id task).Calls ok := by
  unfold doSendSMS
  cases h.unmarshalSendSMS task.payload with
  | error text => exact Prog.calls_pure _
  | ok p =>
    dsimp only
    cases checkSendSMS h p with
    | error e => exact Prog.calls_pure _
    | ok _ =>
      refine (calls_ask hallow).bind fun allowed => Prog.Calls.ite (Prog.calls_pure _) ?_
      cases At.encodePDU p.dest p.body p.encoding with
      | error e => exact Prog.calls_pure _
      | ok parts =>
        refine (calls_sendParts h _ _ _ hsend).bind fun sent => ?_
        cases sent with
        | error e => exact Prog.calls_pure _
        | ok _ =>
          refine (calls_ask hload).bind fun rssi => ?_
          refine (calls_ask (hok _ rfl)).bind fun stat => ?_
          cases h.marshalSendSMSResult _ with
          | error text => exact Prog.calls_pure _
          | ok json => exact Prog.calls_pure _

theorem calls_doRebootModem (h : Host) (task : Task) (hreset : ok (.execute .hardReset))
    (hoff : ok (.execute .radioOff)) (hon : ok (.execute .radioOn)) :
    (doRebootModem h task).Calls ok := by
  unfold doRebootModem
  cases h.unmarshalRebootModem task.payload with
  | error text => exact Prog.calls_pure _
  | ok p =>
    refine Prog.Calls.ite ((calls_outcome hreset).bind fun res => ?_)
      ((calls_outcome hoff).bind fun off => ?_)
    · cases res with
      | error e => exact Prog.calls_pure _
      | ok _ => exact Prog.calls_pure _
    · cases off with
      | error e => exact Prog.calls_pure _
      | ok _ =>
        refine (calls_ask (hok _ rfl)).bind fun _ => (calls_outcome hon).bind fun on => ?_
        cases on with
        | error e => exact Prog.calls_pure _
        | ok _ => exact Prog.calls_pure _

theorem calls_doCheckSignal (h : Host) (hstatus : ok (.execute .registrationStatus))
    (hreg : ∀ stat, ok (.storeRegStat stat))
    (hsignal : ∀ lines rssi, At.signalOf lines = .ok rssi → ok (.storeSignalRSSI (wrap32 rssi))) :
    (doCheckSignal h).Calls ok := by
  refine calls_signalQuality_bind (hok _ rfl) (fun _ => Prog.calls_pure _) ?_
  intro lines rssi hrssi
  refine (calls_query hstatus _).bind fun stat => ?_
  cases stat with
  | error e => exact Prog.calls_pure _
  | ok stat =>
    refine (calls_ask (hsignal lines rssi hrssi)).bind fun _ => ?_
    refine (calls_ask (hreg _)).bind fun _ => ?_
    cases h.marshalCheckSignalResult _ with
    | error text => exact Prog.calls_pure _
    | ok json => exact Prog.calls_pure _

theorem calls_doDeleteAllSMS (h : Host) : (doDeleteAllSMS h).Calls ok := by
  refine (calls_outcome (hok _ rfl)).bind fun res => ?_
  cases res with
  | error e => exact Prog.calls_pure _
  | ok _ => exact Prog.calls_pure _

theorem calls_doTask (h : Host) (id : Identity) (task : Task) (hallow : ok (.allow id.iccid))
    (hsend : ∀ hex n, ok (.executeSend hex n)) (hreset : ok (.execute .hardReset))
    (hoff : ok (.execute .radioOff)) (hon : ok (.execute .radioOn))
    (hstatus : ok (.execute .registrationStatus)) (hreg : ∀ stat, ok (.storeRegStat stat))
    (hload : ok .loadSignalRSSI)
    (hsignal : ∀ lines rssi, At.signalOf lines = .ok rssi → ok (.storeSignalRSSI (wrap32 rssi))) :
    (doTask h id task).Calls ok := by
  unfold doTask
  cases task.action with
  | sendSMS => exact calls_doSendSMS hok h id task hallow hsend hload
  | rebootModem => exact calls_doRebootModem hok h task hreset hoff hon
  | checkSignal => exact calls_doCheckSignal hok h hstatus hreg hsignal
  | deleteAllSMS => exact calls_doDeleteAllSMS hok h
  | other name => exact Prog.calls_pure _

theorem calls_executeTask (h : Host) (id : Identity) (it : InboundTask) (hload : ok .loadState)
    (hstore : ∀ st, ok (.storeState st)) (hdo : (doTask h id it.task).Calls ok)
    (hack : ∀ a, ok (.ack it.ackFn a)) : (executeTask h id it).Calls ok := by
  refine (calls_ask hload).bind fun _ => (calls_ask (hstore _)).bind fun _ => hdo.bind fun _ => ?_
  exact (calls_newEnvelopeFrom hok _ _).bind fun _ => (calls_ask (hack _)).bind fun _ =>
    calls_ask (hstore _)

/-! ### Tickers -/

theorem calls_pollSignalStrength
    (hsignal : ∀ lines rssi, At.signalOf lines = .ok rssi → ok (.storeSignalRSSI (wrap32 rssi))) :
    pollSignalStrength.Calls ok :=
  calls_signalQuality_bind (hok _ rfl) (fun _ => Prog.calls_pure _) fun lines rssi hrssi =>
    calls_ask (hsignal lines rssi hrssi)

theorem calls_checkCapacity (w : Worker) (id : Identity) : (checkCapacity w id).Calls ok := by
  refine (calls_query (hok _ rfl) _).bind fun res => ?_
  cases res with
  | error e => exact Prog.calls_pure _
  | ok p =>
    have hfull : AlertCode.simFull ≠ .simBanned := nofun
    refine Prog.Calls.ite (Prog.calls_pure _) (Prog.Calls.ite ?_
      (Prog.Calls.ite (calls_pushAlert hok _ _ hfull) (Prog.calls_pure _)))
    refine (calls_pushAlert hok _ _ hfull).bind fun _ => ?_
    exact (calls_outcome (hok _ rfl)).bind fun _ => Prog.calls_pure _

/-- What `runKeepalive` does with the status. -/
theorem calls_enterBanned_if (id : Identity) (stat : ℤ) (hstore : ok (.storeState .banned))
    (hevent : ∀ e, ok (.event (.modemAlert e))) :
    Prog.Calls ok (if stat = 3 then enterBanned id (Go.lit "+CREG: " ++
      Go.Strconv.decimal stat ++ Go.lit " (Registration denied)") else pure ()) :=
  Prog.Calls.ite (calls_enterBanned hok id _ hstore hevent) (Prog.calls_pure _)

theorem calls_runKeepalive (id : Identity) (hstore : ∀ st, ok (.storeState st))
    (hcmd : ∀ c, (Call.execute c).receives = false → ok (.execute c))
    (hreg : ∀ stat, ok (.storeRegStat stat)) (hevent : ∀ e, ok (.event (.modemAlert e)))
    (hsignal : ∀ lines rssi, At.signalOf lines = .ok rssi → ok (.storeSignalRSSI (wrap32 rssi))) :
    (runKeepalive id).Calls ok := by
  refine (calls_query (hcmd _ rfl) _).bind fun res => ?_
  cases res with
  | error e =>
    exact calls_enterRecovery hok id hstore (hcmd _ rfl) (hcmd _ rfl) (hcmd _ rfl) (hcmd _ rfl)
      (calls_enterReset hok id hstore (hcmd _ rfl))
  | ok stat =>
    have hban := calls_enterBanned_if hok id stat (hstore _) hevent
    refine (calls_ask (hreg _)).bind fun _ => ?_
    refine calls_signalQuality_bind (hok _ rfl) (fun _ => hban) fun lines rssi hrssi => ?_
    exact (calls_ask (hsignal lines rssi hrssi)).bind fun _ => hban

/-! ### The main loop -/

omit hok

/-- The calls that belong to `Run` itself, and not to a handler of its main loop. -/
def Call.ofRun : Call → Bool
  | .openPort | .select | .tryRecv | .register _ | .registerLimiter _ | .deregister _
  | .incConnections | .decConnections | .loadLastLoop | .storeLastLoop _ | .startWatchdog
  | .closeWatchdog | .watchdogTick => true
  | _ => false

/-- The calls that only a task makes. -/
def Call.ofTask : Call → Bool
  | .ack _ _ | .allow _ | .executeSend _ _ => true
  | _ => false

/-- What is known of a call that the handler of a case makes. -/
structure Call.MadeBy (id : Identity) (selected : Selected) (e : Call) : Prop where
  ofRun : e.ofRun = false
  task : e.ofTask = true → ∃ it, selected = .task it
  urc : e.receives = true → ∃ line, selected = .urc line
  inserts : ∀ m, e = .insert m → m.iccid = id.iccid
  /-- A signal strength that is stored was reported by the modem. -/
  signal : ∀ rssi, e = .storeSignalRSSI rssi →
    ∃ lines rssi', At.signalOf lines = .ok rssi' ∧ rssi = wrap32 rssi'
  pduMode : e = .execute .setPDUMode → selected = .keepalive

/-- The calls that every handler can make. -/
def Call.common : Call → Bool
  | .storeSignalRSSI _ | .execute .setPDUMode => false
  | e => ¬ e.ofRun ∧ ¬ e.ofTask ∧ ¬ e.receives

theorem Call.MadeBy.of_common {id : Identity} {selected : Selected} {e : Call}
    (he : e.common = true) : e.MadeBy id selected := by
  unfold Call.common at he
  split at he
  · cases he
  · cases he
  · next _ hsignal hmode =>
    obtain ⟨hrun, htask, hreceives⟩ := of_decide_eq_true he
    refine ⟨Bool.eq_false_iff.mpr hrun, fun h => absurd h htask, fun h => absurd h hreceives, ?_,
      fun rssi h => (hsignal rssi h).elim, fun h => (hmode h).elim⟩
    rintro m rfl
    exact absurd rfl hreceives

theorem common_of_minor (e : Call) (he : e.minor = true) : e.common = true := by
  cases e with
  | newUUID | now | sleep | panic | loadRegStat => rfl
  | event e =>
    cases e with
    | modemAlert => rfl
    | smsReceived => cases he
  | execute c =>
    cases c with
    | setPDUMode | readSMS | deleteSMS => cases he
    | _ => rfl
  | _ => cases he

theorem calls_handle (h : Host) (w : Worker) (id : Identity) (selected : Selected) :
    (handle h w id selected).Calls (Call.MadeBy id selected) := by
  have hcommon : ∀ {e : Call}, e.common = true → e.MadeBy id selected := Call.MadeBy.of_common
  have hok : ∀ e : Call, e.minor = true → e.MadeBy id selected :=
    fun e he => hcommon (common_of_minor e he)
  have hsignal : ∀ lines rssi, At.signalOf lines = .ok rssi →
      Call.MadeBy id selected (.storeSignalRSSI (wrap32 rssi)) := by
    refine fun lines rssi hrssi => ⟨rfl, nofun, nofun, nofun, ?_, nofun⟩
    rintro _ ⟨⟩
    exact ⟨lines, rssi, hrssi, rfl⟩
  cases selected with
  | ctxDone => exact Prog.calls_pure _
  | urc line =>
    refine calls_handleURC hok h w id line (fun e he hinsert => ?_) (fun _ => hcommon rfl)
      (hcommon rfl) fun _ => hcommon rfl
    cases e with
    | insert | event => exact ⟨rfl, nofun, fun _ => ⟨line, rfl⟩, hinsert, nofun, nofun⟩
    | execute c =>
      refine ⟨rfl, nofun, fun _ => ⟨line, rfl⟩, nofun, nofun, ?_⟩
      rintro ⟨⟩
      cases he
    | _ => cases he
  | task it =>
    have htask : ∀ {e : Call}, e.ofTask = true → e.MadeBy id (.task it) := by
      intro e he
      cases e with
      | ack | allow | executeSend =>
        exact ⟨rfl, fun _ => ⟨it, rfl⟩, nofun, nofun, nofun, nofun⟩
      | _ => cases he
    have hdo : (doTask h id it.task).Calls (Call.MadeBy id (.task it)) :=
      calls_doTask hok h id it.task (htask rfl) (fun _ _ => htask rfl) (hcommon rfl)
        (hcommon rfl) (hcommon rfl) (hcommon rfl) (fun _ => hcommon rfl) (hcommon rfl) hsignal
    exact calls_executeTask hok h id it (hcommon rfl) (fun _ => hcommon rfl) hdo
      fun _ => htask rfl
  | keepalive =>
    refine calls_runKeepalive hok id (fun _ => hcommon rfl) (fun c hc => ?_) (fun _ => hcommon rfl)
      (fun _ => hcommon rfl) hsignal
    exact ⟨rfl, nofun, fun h => Bool.noConfusion (hc.symm.trans h), nofun, nofun, fun _ => rfl⟩
  | capacity => exact calls_checkCapacity hok w id
  | signal => exact calls_pollSignalStrength hok hsignal
  | reset => exact calls_enterReset hok id (fun _ => hcommon rfl) (hcommon rfl)

include hok

/-! ### The init sequence -/

omit hok in
theorem calls_readICCIDFrom (t : Go.CaseTable) (cs : List At.Cmd)
    (hcs : ∀ c ∈ cs, ok (.execute c)) : (At.readICCIDFrom execute t cs).Calls ok := by
  induction cs with
  | nil => exact Prog.calls_pure _
  | cons c cs ih =>
    have hrest := ih fun c hc => hcs c (List.mem_cons_of_mem _ hc)
    refine (calls_ask (hcs c List.mem_cons_self)).bind fun res => ?_
    cases res with
    | error e => exact hrest
    | ok lines =>
      dsimp only
      cases lines.findSome? (At.iccidOf t) with
      | some x => exact Prog.calls_pure _
      | none => exact hrest

theorem calls_retryN {α : Type} {fn : Work (Except At.Err α)} (hfn : fn.Calls ok) (n : ℕ)
    (err : At.Err) : (retryN (fun ms => ask (.sleep ms)) fn n err).Calls ok := by
  induction n generalizing err with
  | zero => exact Prog.calls_pure _
  | succ n ih =>
    refine hfn.bind fun res => ?_
    cases res with
    | ok a => exact Prog.calls_pure _
    | error e => exact (calls_ask (hok _ rfl)).bind fun _ => ih e

theorem calls_runInitSequence (t : Go.CaseTable) (expectedICCID : List UInt8)
    (hping : ok (.execute .ping)) (hmode : ok (.execute .setPDUMode)) :
    (runInitSequence execute (fun ms => ask (.sleep ms)) t expectedICCID).Calls ok := by
  have hbind : ∀ {α β : Type} {p : Work (Except At.Err α)} {f : Except At.Err α → Work β},
      p.Calls ok → (∀ e, (f (.error e)).Calls ok) → (∀ a, (f (.ok a)).Calls ok) →
        (p >>= f).Calls ok := by
    intro α β p f hp herr hok
    refine hp.bind fun res => ?_
    cases res with
    | error e => exact herr e
    | ok a => exact hok a
  have hccid : ∀ c ∈ [At.Cmd.ccid, .iccid, .qccid], ok (.execute c) := by
    intro c hc
    refine hok _ ?_
    revert c
    decide
  unfold runInitSequence
  refine hbind (calls_retryN hok (calls_outcome hping) _ _) (fun _ => Prog.calls_pure _) fun _ => ?_
  refine hbind (calls_outcome (hok _ rfl)) (fun _ => Prog.calls_pure _) fun _ => ?_
  refine hbind (calls_outcome hmode) (fun _ => Prog.calls_pure _) fun _ => ?_
  refine hbind (calls_outcome (hok _ rfl)) (fun _ => Prog.calls_pure _) fun _ => ?_
  refine (calls_query (hok _ rfl) _).bind fun _ => ?_
  refine hbind (calls_retryN hok (calls_readICCIDFrom t _ hccid) _ _) (fun _ => Prog.calls_pure _)
    fun iccid => Prog.Calls.ite (Prog.calls_pure _) ?_
  refine (calls_query (hok _ rfl) _).bind fun _ => (calls_query (hok _ rfl) _).bind fun _ => ?_
  exact Prog.calls_pure _

end

/-! ### `doSendSMS`, stage by stage -/

/-- The result of a task. -/
abbrev TaskResult := Except TaskError (Option (List UInt8))

/-- The payload passes the checks of `doSendSMS`. -/
def Accepted (h : Host) (task : Task) : Prop :=
  ∃ p, h.unmarshalSendSMS task.payload = .ok p ∧ checkSendSMS h p = .ok ()

/-- What is to be shown of `doSendSMS` for a protocol, from a state on. -/
structure SendProof {Q : Type} (h : Host) (id : Identity) (task : Task)
    (P : Protocol Call Call.Ans Q) (q : Q) (Φ : TaskResult → Q → Prop) where
  /-- What holds once the limiter has agreed. -/
  admitted : Q → Prop
  refused : ¬ Accepted h task → ∀ e, Φ (.error e) q
  asks : Accepted h task → P.allows q (.allow id.iccid)
  limited : Accepted h task → ∀ e, Φ (.error e) (P.next q (.allow id.iccid) false)
  agreed : Accepted h task → admitted (P.next q (.allow id.iccid) true)
  sends : ∀ q hex n, admitted q →
    P.allows q (.executeSend hex n) ∧ ∀ a, admitted (P.next q (.executeSend hex n) a)
  failed : ∀ q e, admitted q → Φ (.error e) q
  loads : ∀ q, admitted q → P.allows q .loadSignalRSSI ∧
    ∀ rssi, P.allows (P.next q .loadSignalRSSI rssi) .loadRegStat
  sent : ∀ q rssi stat, admitted q →
    (∀ e, Φ (.error e) (P.next (P.next q .loadSignalRSSI rssi) .loadRegStat stat)) ∧
    ∀ parts json, h.marshalSendSMSResult ⟨parts, rssi, regStatusString stat⟩ = .ok json →
      Φ (.ok (some json)) (P.next (P.next q .loadSignalRSSI rssi) .loadRegStat stat)

/-- `doSendSMS` keeps to the protocol if its stages do. -/
theorem SendProof.obeys {Q : Type} {h : Host} {id : Identity} {task : Task}
    {P : Protocol Call Call.Ans Q} {q : Q} {Φ : TaskResult → Q → Prop}
    (X : SendProof h id task P q Φ) : (doSendSMS h id task).Obeys P q Φ := by
  unfold doSendSMS
  cases hp : h.unmarshalSendSMS task.payload with
  | error text =>
    refine X.refused ?_ _
    rintro ⟨p, hp', -⟩
    cases hp.symm.trans hp'
  | ok p =>
    dsimp only
    cases hcheck : checkSendSMS h p with
    | error e =>
      refine X.refused ?_ e
      rintro ⟨p', hp', hok⟩
      cases hp.symm.trans hp'
      cases hcheck.symm.trans hok
    | ok u =>
      have haccepted : Accepted h task := ⟨p, hp, hcheck⟩
      refine Prog.perform_bind_obeys (X.asks haccepted) fun (allowed : Bool) => ?_
      cases allowed with
      | false => exact X.limited haccepted _
      | true =>
        rw [if_neg (by decide)]
        cases At.encodePDU p.dest p.body p.encoding with
        | error e =>
          cases e
          exact X.failed _ _ (X.agreed haccepted)
        | ok parts =>
          have hparts : (sendParts h parts.length 0 parts).Calls fun e =>
              ∃ hex n, e = .executeSend hex n := calls_sendParts h _ _ _ fun hex n => ⟨hex, n, rfl⟩
          have hkeeps : ∀ q e, X.admitted q → (∃ hex n, e = .executeSend hex n) →
              P.allows q e ∧ ∀ a, X.admitted (P.next q e a) := by
            rintro q e hq ⟨hex, n, rfl⟩
            exact X.sends q hex n hq
          refine (hparts.obeys_of_keeps hkeeps (X.agreed haccepted)).bind fun res q hq => ?_
          cases res with
          | error e => exact X.failed q e hq
          | ok _ =>
            obtain ⟨hsignal, hstat⟩ := X.loads q hq
            refine Prog.perform_bind_obeys hsignal fun rssi =>
              Prog.perform_bind_obeys (hstat rssi) fun stat => ?_
            obtain ⟨herror, hok⟩ := X.sent q rssi stat hq
            cases hjson : h.marshalSendSMSResult _ with
            | error text => exact herror _
            | ok json => exact hok _ json hjson

end SmsGate.Modem
