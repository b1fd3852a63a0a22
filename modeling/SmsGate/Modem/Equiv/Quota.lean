import SmsGate.Modem.Equiv.Port
import SmsGate.Modem.Equiv.RateLimit

/-!
# What a message that is not sent costs

`doSendSMS` asks the limiter before it encodes the message and before it writes to the port.  What
can fail behind that point has been counted already: an encoding that there is not, and a port that
does not take `AT+CMGS`.

* `sending`: a call of `doSendSMS` with the limiters and the serializer;
* `registry_of_reach`: what it has done to the limiters when it returns, whatever the modem did;
* `liveEvents_allow_iff`: when `Allow` changes what is live;
* `costsNothing_iff`: a call that fails before `AT+CMGS` is written costs nothing if and only if the
  limiter was not asked, did not agree, or is not there.
-/

namespace SmsGate.Modem

open Go Go.Strings Tunnel SlidingWindow
open At.Serializer (CallConfig Moves Sound)

/-! ### A call of `doSendSMS` -/

/-- The limiters and the serializer. -/
structure Sending where
  registry : RateLimiterRegistry
  port : CallConfig Unit

/-- What a call does to them; `now` is the time at which the limiter is asked. -/
def Sending.exec (mayEmit : At.Serializer.World → List UInt8 → Bool) (now : ℤ) (ms : Moves Unit)
    (s : Sending) : (e : Call) → e.Ans → Option Sending
  | .allow iccid, (ok : Bool) =>
    if ok = (s.registry.allow iccid now).1 then
      some { s with registry := (s.registry.allow iccid now).2 }
    else none
  | e, a => (onPort mayEmit ms s.port e a).map fun port => { s with port }

/-- `doSendSMS` with the limiters and the serializer. -/
def sending (mayEmit : At.Serializer.World → List UInt8 → Bool) (now : ℤ) (h : Host) (id : Identity)
    (task : Task) : System Unit Sending Call Call.Ans Unit TaskResult (Moves Unit) Empty where
  block _ _ := do
    let res ← doSendSMS h id task
    return .inr res
  exec _ := Sending.exec mayEmit now
  env v _ := v.elim
  crash _ _ := none

/-- The writes of `AT+CMGS` that the port has taken. -/
def cmgsWrites (o : CallConfig Unit) : List (List UInt8) :=
  o.state.state.written.filter fun data => hasPrefix data (lit "AT+CMGS=")

/-- The events that count at a time, in each window of each limiter. -/
def liveEvents (r : RateLimiterRegistry) (now : ℤ) (iccid : List UInt8) (span : Span) : List ℤ :=
  match r iccid with
  | none => []
  | some lim => live (lim.window span).duration now (lim.window span).events

/-- A call that returns an error without having written `AT+CMGS` leaves the live events as they
were, whatever the serializer and the modem do. -/
def CostsNothing (mayEmit : At.Serializer.World → List UInt8 → Bool) (now : ℤ) (h : Host)
    (id : Identity) (task : Task) (r : RateLimiterRegistry) : Prop :=
  ∀ o c e, Sound o →
    (sending mayEmit now h id task).Reach
      ((sending mayEmit now h id task).start ⟨r, o⟩ fun _ => ()) c →
    c.threads () = .stopped (.error e) → cmgsWrites c.state.port = cmgsWrites o →
    liveEvents c.state.registry now = liveEvents r now

/-- The limiter of the ICCID is there and has room. -/
def Admits (r : RateLimiterRegistry) (iccid : List UInt8) (now : ℤ) : Prop :=
  ∃ lim, r iccid = some lim ∧ ∀ span, (lim.window span).HasRoom now

/-! ### What `doSendSMS` asks of the limiter -/

/-- The limiter of the worker's ICCID is asked once; the state tells whether it was. -/
def askProtocol (id : Identity) : Protocol Call Call.Ans Bool where
  allows asked e :=
    match e with
    | .allow iccid => asked = false ∧ iccid = id.iccid
    | _ => True
  next asked e _ :=
    match e with
    | .allow _ => true
    | _ => asked

/-- It is asked if and only if the payload passes the checks. -/
def askSend (h : Host) (id : Identity) (task : Task) :
    SendProof h id task (askProtocol id) false fun _ asked => asked = true ↔ Accepted h task where
  admitted asked := asked = true ∧ Accepted h task
  refused hrefused _ := iff_of_false nofun hrefused
  asks _ := ⟨rfl, rfl⟩
  limited haccepted _ := iff_of_true rfl haccepted
  agreed haccepted := ⟨rfl, haccepted⟩
  sends _ _ _ hasked := ⟨trivial, fun _ => hasked⟩
  failed _ _ hasked := iff_of_true hasked.1 hasked.2
  loads _ _ := ⟨trivial, fun _ => trivial⟩
  sent _ _ _ hasked :=
    ⟨fun _ => iff_of_true hasked.1 hasked.2, fun _ _ _ => iff_of_true hasked.1 hasked.2⟩

/-! ### What a run has done to the limiters -/

section

variable {mayEmit : At.Serializer.World → List UInt8 → Bool} {now : ℤ} {h : Host} {id : Identity}
  {task : Task} {r : RateLimiterRegistry}

/-- The limiters before and after the worker has asked. -/
def askedRegistry (r : RateLimiterRegistry) (iccid : List UInt8) (now : ℤ) (asked : Bool) :
    RateLimiterRegistry :=
  if asked then (r.allow iccid now).2 else r

theorem Sending.exec_of_ne {ms : Moves Unit} {s : Sending} {e : Call} {a : e.Ans}
    (he : ∀ iccid, e ≠ .allow iccid) : s.exec mayEmit now ms e a =
      (onPort mayEmit ms s.port e a).map fun port => { s with port } := by
  cases e with
  | allow iccid => exact absurd rfl (he iccid)
  | _ => rfl

theorem Sending.registry_of_exec {ms : Moves Unit} {s s' : Sending} {e : Call} {a : e.Ans}
    {asked : Bool} (hallow : (askProtocol id).allows asked e)
    (hs : s.registry = askedRegistry r id.iccid now asked)
    (hexec : s.exec mayEmit now ms e a = some s') :
    s'.registry = askedRegistry r id.iccid now ((askProtocol id).next asked e a) := by
  cases e with
  | allow iccid =>
    obtain ⟨rfl, rfl⟩ := hallow
    obtain ⟨-, hsome⟩ := Option.ite_none_right_eq_some.mp hexec
    cases hsome
    rw [show s.registry = r from hs]
    rfl
  | _ =>
    rw [Sending.exec_of_ne fun _ heq => by cases heq] at hexec
    obtain ⟨port, -, rfl⟩ := Option.map_eq_some_iff.mp hexec
    exact hs

variable (mayEmit now h id task r) in
/-- The proof outline. -/
def sendingOutline : System.Outline (sending mayEmit now h id task) fun _ => askProtocol id where
  head _ _ asked := asked = false
  final _ _ asked := asked = true ↔ Accepted h task
  inv s q := s.registry = askedRegistry r id.iccid now (q ())
  block_obeys _ _ asked hasked := by
    obtain rfl : asked = false := hasked
    exact (askSend h id task).obeys.bind fun _ _ hfinal => hfinal
  call_inv _ _ s q e a s' hinv hallow hexec := by
    rw [Function.update_self]
    exact Sending.registry_of_exec hallow hinv hexec
  env_inv v _ _ _ _ _ := v.elim
  crash_inv _ _ _ _ _ _ hcrash := by cases hcrash

open Classical in
/-- What a call has done to the limiters when it returns. -/
theorem registry_of_reach {o : CallConfig Unit}
    {c : System.Config Unit Sending Call Call.Ans Unit TaskResult}
    (hreach : (sending mayEmit now h id task).Reach
      ((sending mayEmit now h id task).start ⟨r, o⟩ fun _ => ()) c) {res : TaskResult}
    (hstop : c.threads () = .stopped res) :
    c.state.registry = if Accepted h task then (r.allow id.iccid now).2 else r := by
  have hstart : (sendingOutline mayEmit now h id task r).Holds
      ((sending mayEmit now h id task).start ⟨r, o⟩ fun _ => ()) :=
    System.Outline.holds_start _ (q := fun _ => false) rfl fun _ => rfl
  obtain ⟨q, hinv, hfollows⟩ := (sendingOutline mayEmit now h id task r).reach hstart hreach
  have hfinal := hfollows ()
  rw [hstop] at hfinal
  have hiff : q () = true ↔ Accepted h task := hfinal
  rw [show c.state.registry = askedRegistry r id.iccid now (q ()) from hinv, askedRegistry]
  simp only [hiff]

end

/-! ### What `Allow` does to the live events -/

/-- An event that is admitted is live. -/
theorem length_live_record {w : Window} (hw : 0 < w.duration) (now : ℤ) :
    (live w.duration now (w.record now).events).length =
      (live w.duration now w.events).length + 1 := by
  have hself : live w.duration now [now] = [now] := by
    rw [live, List.filter_cons_of_pos (by simpa using hw), List.filter_nil]
  rw [Window.record, live_append, live_live le_rfl, hself, List.length_append,
    List.length_singleton]

theorem liveEvents_allow_iff {r : RateLimiterRegistry} {iccid : List UInt8} {now : ℤ}
    (hr : ∀ lim, r iccid = some lim → ∀ span, 0 < (lim.window span).duration) :
    liveEvents (r.allow iccid now).2 now = liveEvents r now ↔ ¬ Admits r iccid now := by
  unfold RateLimiterRegistry.allow
  cases hlim : r iccid with
  | none =>
    refine iff_of_true rfl ?_
    rintro ⟨lim, hlim', -⟩
    cases hlim.symm.trans hlim'
  | some lim =>
    by_cases hroom : ∀ span, (lim.window span).HasRoom now
    · refine iff_of_false (fun hsame => ?_) (not_not.mpr ⟨lim, hlim, hroom⟩)
      -- the event is one more in the window of a minute
      have hminute := congrArg List.length (congrFun (congrFun hsame iccid) .minute)
      simp only [liveEvents, SIMRateLimiter.tryAll_of_hasRoom hroom, Function.update_self, hlim,
        SIMRateLimiter.window_record] at hminute
      have hrecord := length_live_record (hr lim hlim .minute) now
      have hduration : ((lim.window .minute).record now).duration = (lim.window .minute).duration :=
        rfl
      rw [hduration, hrecord] at hminute
      omega
    · refine iff_of_true ?_ ?_
      · simp only [SIMRateLimiter.tryAll_of_not_hasRoom hroom]
        rw [← hlim, Function.update_eq_self]
      · rintro ⟨lim', hlim', hroom'⟩
        cases hlim.symm.trans hlim'
        exact hroom hroom'

/-! ### Calls that cost -/

/-- The parts of a message are never none. -/
theorem splitParts_ne_nil {α : Type} {single concat : ℕ} (hconcat : 0 < concat)
    (build : List α → UInt8 → UInt8 → UInt8 → At.EncodedPDU) (chars : List α) :
    At.splitParts single concat build chars ≠ [] := by
  unfold At.splitParts
  dsimp only
  split_ifs with hsingle
  · exact List.cons_ne_nil _ _
  · have hpos : 0 < (chars.length + concat - 1) / concat := Nat.div_pos (by omega) hconcat
    rw [Ne, List.map_eq_nil_iff, List.range_eq_nil]
    omega

theorem encodePDU_ne_nil {dest body encoding : List UInt8} {parts : List At.EncodedPDU}
    (henc : At.encodePDU dest body encoding = .ok parts) : parts ≠ [] := by
  unfold At.encodePDU at henc
  dsimp only at henc
  split_ifs at henc
  all_goals
    obtain rfl := Except.ok.inj henc
    exact splitParts_ne_nil (by decide) _ _

section

variable {now : ℤ} {h : Host} {id : Identity} {task : Task} {r : RateLimiterRegistry}

/-- `doSendSMS` from the limiter on: an encoding that there is not, and the first part. -/
theorem doSendSMS_split (id : Identity) {p : SendSMSPayload}
    (hp : h.unmarshalSendSMS task.payload = .ok p) (hcheck : checkSendSMS h p = .ok ()) :
    ∃ k : Bool → Work TaskResult, doSendSMS h id task = (ask (.allow id.iccid) >>= k) ∧
      (∀ enc, At.encodePDU p.dest p.body p.encoding = .error (.unsupported enc) →
        ∃ e, k true = .ret (.error e)) ∧
      ∀ part parts, At.encodePDU p.dest p.body p.encoding = .ok (part :: parts) →
        ∃ k' : Except At.Err ℤ → Work TaskResult,
          k true = .call (.executeSend part.hexStr part.length) k' ∧
          ∀ err, ∃ e, k' (.error err) = .ret (.error e) := by
  unfold doSendSMS
  rw [hp]
  dsimp only
  rw [hcheck]
  refine ⟨_, rfl, fun enc henc => ?_, fun part parts henc => ?_⟩
  · rw [if_neg (by decide), henc]
    exact ⟨_, rfl⟩
  · rw [if_neg (by decide), henc]
    exact ⟨_, rfl, fun err => ⟨_, rfl⟩⟩

/-- A port that does not take `AT+CMGS`. -/
theorem onPort_refused (mayEmit : At.Serializer.World → List UInt8 → Bool) (hex : List UInt8)
    (n : ℕ) : ∃ o, onPort mayEmit (refuseMoves 0) openedPort (.executeSend hex n)
        (.error .writeCMGS : Except At.Err ℤ) = some o ∧ cmgsWrites o = cmgsWrites openedPort :=
  ⟨_, rfl, rfl⟩

/-- A message that is admitted, and then cannot be encoded or is not taken by the port. -/
theorem exists_reach_of_admits (mayEmit : At.Serializer.World → List UInt8 → Bool)
    (haccepted : Accepted h task) (hadmits : Admits r id.iccid now) :
    ∃ c e, (sending mayEmit now h id task).Reach
        ((sending mayEmit now h id task).start ⟨r, openedPort⟩ fun _ => ()) c ∧
      c.threads () = .stopped (.error e) ∧ cmgsWrites c.state.port = cmgsWrites openedPort := by
  obtain ⟨p, hp, hcheck⟩ := haccepted
  obtain ⟨lim, hlim, hroom⟩ := hadmits
  obtain ⟨k, hprog, hencoding, hpart⟩ := doSendSMS_split id hp hcheck
  have hallow : true = (r.allow id.iccid now).1 := by
    unfold RateLimiterRegistry.allow
    simp only [hlim, SIMRateLimiter.tryAll_of_hasRoom hroom]
  have hasked : Sending.exec mayEmit now [] ⟨r, openedPort⟩ (.allow id.iccid) true =
      some ⟨(r.allow id.iccid now).2, openedPort⟩ := if_pos hallow
  have hstart : ((sending mayEmit now h id task).start ⟨r, openedPort⟩ fun _ => ()).threads () =
      .running (.call (.allow id.iccid) fun ok : Bool => k ok >>= fun res => .ret (.inr res)) := by
    change System.Local.running (doSendSMS h id task >>= fun res => .ret (.inr res)) = _
    rw [hprog]
    rfl
  obtain ⟨c₁, hstep₁, hstate₁, hrun₁⟩ :=
    System.exists_step_call (S := sending mayEmit now h id task) [] hstart hasked
  cases henc : At.encodePDU p.dest p.body p.encoding with
  | error err =>
    obtain ⟨enc⟩ := err
    obtain ⟨e, hk⟩ := hencoding enc henc
    rw [hk] at hrun₁
    obtain ⟨c₂, hstep₂, hstate₂, hstop₂⟩ := System.exists_step_stop hrun₁
    exact ⟨c₂, e, .tail (.single hstep₁) hstep₂, hstop₂, by rw [hstate₂, hstate₁]⟩
  | ok parts =>
    obtain ⟨part, parts, rfl⟩ := List.exists_cons_of_ne_nil (encodePDU_ne_nil henc)
    obtain ⟨k', hk, herror⟩ := hpart part parts henc
    obtain ⟨o, ho, hwrites⟩ := onPort_refused mayEmit part.hexStr part.length
    have hrefused : Sending.exec mayEmit now (refuseMoves 0) c₁.state
        (.executeSend part.hexStr part.length) (.error .writeCMGS : Except At.Err ℤ) =
        some ⟨(r.allow id.iccid now).2, o⟩ := by
      rw [hstate₁]
      exact congrArg (Option.map fun port => Sending.mk (r.allow id.iccid now).2 port) ho
    rw [hk] at hrun₁
    obtain ⟨c₂, hstep₂, hstate₂, hrun₂⟩ :=
      System.exists_step_call (S := sending mayEmit now h id task) (refuseMoves 0) hrun₁ hrefused
    obtain ⟨e, he⟩ := herror .writeCMGS
    have hend : c₂.threads () = .running (k' (.error .writeCMGS) >>= fun res => .ret (.inr res)) :=
      hrun₂
    rw [he] at hend
    obtain ⟨c₃, hstep₃, hstate₃, hstop₃⟩ := System.exists_step_stop hend
    refine ⟨c₃, e, .tail (.tail (.single hstep₁) hstep₂) hstep₃, hstop₃, ?_⟩
    rw [hstate₃, hstate₂]
    exact hwrites

/-- A message that is admitted has been counted when it fails. -/
theorem not_costsNothing_of_admits (mayEmit : At.Serializer.World → List UInt8 → Bool)
    (hr : ∀ lim, r id.iccid = some lim → ∀ span, 0 < (lim.window span).duration)
    (haccepted : Accepted h task) (hadmits : Admits r id.iccid now) :
    ¬ CostsNothing mayEmit now h id task r := by
  intro hcosts
  obtain ⟨c, e, hreach, hstop, hwrites⟩ := exists_reach_of_admits mayEmit haccepted hadmits
  have hsame := hcosts openedPort c e sound_openedPort hreach hstop hwrites
  rw [registry_of_reach hreach hstop, if_pos haccepted] at hsame
  exact (liveEvents_allow_iff hr).mp hsame hadmits

/-- The windows of a limiter that was registered have a length. -/
theorem duration_pos_of_register (r : RateLimiterRegistry) (iccid : List UInt8)
    (cfg : RateLimitConfig) :
    ∀ lim, r.register iccid cfg iccid = some lim → ∀ span, 0 < (lim.window span).duration := by
  intro lim hlim span
  rw [RateLimiterRegistry.register, Function.update_self] at hlim
  cases hlim
  rw [(tracks_new cfg 0).duration span]
  exact span.nanos_pos

end

/-- **What a message that is not sent costs.**  Take any task, any state of the limiters, whose
windows have a length, and any time.  A call of `doSendSMS` that returns an error without having
written `AT+CMGS` leaves the live events of every limiter as they were, whatever the modem and the
port do, if and only if its payload is refused, or the worker's limiter is not there or has no room:
an error that comes later has been counted. -/
theorem costsNothing_iff (mayEmit : At.Serializer.World → List UInt8 → Bool) (now : ℤ) (h : Host)
    (id : Identity) (task : Task) (r : RateLimiterRegistry)
    (hr : ∀ lim, r id.iccid = some lim → ∀ span, 0 < (lim.window span).duration) :
    CostsNothing mayEmit now h id task r ↔ ¬ (Accepted h task ∧ Admits r id.iccid now) := by
  constructor
  · rintro hcosts ⟨haccepted, hadmits⟩
    exact not_costsNothing_of_admits mayEmit hr haccepted hadmits hcosts
  · intro hfree o c e _ hreach hstop _
    rw [registry_of_reach hreach hstop]
    split_ifs with haccepted
    · exact (liveEvents_allow_iff hr).mpr fun hadmits => hfree ⟨haccepted, hadmits⟩
    · rfl

/-- A message in an encoding that there is not. -/
def utf8Payload : SendSMSPayload := ⟨lit "8949", lit "+14155550123", lit "hi", lit "utf8"⟩

/-- The worker of one SIM, and the limiters once it has registered. -/
def limitedID : Identity := ⟨lit "8949", [], []⟩

def limitedRegistry (perMin : ℤ) : RateLimiterRegistry :=
  RateLimiterRegistry.new.register limitedID.iccid ⟨perMin, 100, 1000⟩

def utf8Task : Task := ⟨lit "m1", .sendSMS, jsonSendSMS utf8Payload⟩

/-- A message that is rate limited costs nothing. -/
theorem costsNothing_iff_limited :
    CostsNothing (fun _ _ => true) 0 (.sending utf8Payload) limitedID utf8Task
      (limitedRegistry 0) := by
  refine (costsNothing_iff _ _ _ _ _ _ (duration_pos_of_register _ _ _)).mpr ?_
  rintro ⟨-, lim, hlim, hroom⟩
  obtain rfl := Option.some.inj hlim
  exact absurd (hroom .minute) (by decide)

/-- One whose encoding there is not costs one of the ten messages of its minute. -/
theorem not_costsNothing :
    ¬ CostsNothing (fun _ _ => true) 0 (.sending utf8Payload) limitedID utf8Task
      (limitedRegistry 10) := by
  refine not_costsNothing_of_admits _ (duration_pos_of_register _ _ _) ⟨_, rfl, by decide⟩
    ⟨_, rfl, fun span => ?_⟩
  cases span <;> decide

end SmsGate.Modem
