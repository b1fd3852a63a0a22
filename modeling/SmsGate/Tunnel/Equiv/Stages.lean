import SmsGate.Tunnel.Equiv.Outbox

/-!
# The stages of a session

`Run` writes the `HELLO` of a connection, starts the goroutines of the session, and waits for the
writer and the reader before it dials again.  Both end only when their session is done.  The flushes
and the purge are not waited for: those of an old session can still be running in the next one.

* `sessionProtocol`: the stages that a goroutine goes through, and what it may write at each;
* `block_obeys_session`: the code keeps to it.
-/

namespace SmsGate.Tunnel

open Go

/-- How far a goroutine is: `Run` with its connections, or a goroutine of a session. -/
inductive Stage where
  /-- `Run` has written nothing to connection `n` or a later one. -/
  | dialing (n : ℕ)
  /-- `Run` has written the `HELLO` of connection `n`. -/
  | greeted (n : ℕ)
  /-- `Run` has waited for the writer and the reader. -/
  | waited (n : ℕ)
  /-- `Run` has drained `pending`. -/
  | drained (n : ℕ)
  | before
  | running
  /-- The goroutine has seen that its session is done, or has cancelled it. -/
  | seen
  /-- The goroutine has called `wg.Done`. -/
  | ended
  deriving DecidableEq

/-- The goroutines that `Run` waits for. -/
def Role.awaited : Role → Bool
  | writer | reader => true
  | _ => false

namespace Stage

/-- A goroutine of a session is between its start and `wg.Done`. -/
def live : Stage → Bool
  | running | seen => true
  | _ => false

/-- The goroutine has started and not called `wg.Done`. -/
def active : Stage → Bool
  | before | ended => false
  | _ => true

theorem active_of_live {q : Stage} (h : q.live) : q.active := by
  cases q with
  | running | seen => rfl
  | _ => cases h

/-- The `HELLO` is written. -/
def greet : Stage → Stage
  | dialing n => greeted n
  | q => q

/-- The session turns out to be done. -/
def notice : Stage → Stage
  | running => seen
  | q => q

/-- The goroutine after a call. -/
def next (q : Stage) : (c : Call) → c.Ans → Stage
  | .writeMessage _ _, (ok : Bool) => if ok then q.greet else q
  | .wgWait n, _ => waited n
  | .drainAcks, _ =>
    match q with
    | waited n => drained n
    | q => q
  | .closeConn n, _ => dialing (n + 1)
  | .started _ _, _ => running
  | .select _, (.ctxDone : Selected) => q.notice
  | .pollSession _, (done : Bool) => if done then q.notice else q
  | .cancel _, _ => q.notice
  | .wgDone _, _ => ended
  | _, _ => q

end Stage

/-- The frames that the writer writes on its own account. -/
def Frame.routine : Frame → Bool
  | .ping | .text (.heartbeat _) => true
  | _ => false

/-- The frame is the `HELLO` of this gateway. -/
def ManagerConfig.IsHello (cfg : ManagerConfig) : Frame → Prop
  | .text (.hello e) => e.gatewayID = cfg.gatewayID ∧ e.protocolVersion = protocolVersion ∧
      e.agentVersion = cfg.agentVersion
  | _ => False

/-- The frame is an `SMS_RECEIVED`. -/
def Frame.smsReceived : Frame → Bool
  | .text (.event (.smsReceived _)) => true
  | _ => false

/-- The stage of a goroutine, and the event that it has taken out of the outbox, with its
connection. -/
abbrev Station := Stage × Option (ℕ × Outbound)

/-- What a goroutine may write to a connection. -/
def MayFrame (cfg : ManagerConfig) (t : Thread) (q : Station) (n : ℕ) (f : Frame) : Prop :=
  match t with
  | .run => q.1 = .dialing n ∧ cfg.IsHello f
  | .session k .writer => k = n ∧ q.1.live ∧ (q.2 = none → f.routine)
  | .session k .flushOnConnect | .session k .periodicFlush => k = n ∧ q.1.live ∧ f.smsReceived
  | .session _ .reader | .session _ .purge => False

/-- What a goroutine may do at a station. -/
def Stage.Allows (cfg : ManagerConfig) (t : Thread) (q : Station) : Call → Prop
  | .writeMessage n f => MayFrame cfg t q n f
  | .go n _ | .wgWait n => t = .run ∧ q.1 = .greeted n
  | .drainAcks => t = .run ∧ ∃ n, q.1 = .waited n
  | .closeConn n => t = .run ∧ (q.1 = .dialing n ∨ q.1 = .drained n)
  | .started n role => t = .session n role ∧ q.1 = .before
  | .wgDone n => ∃ role, t = .session n role ∧ role.awaited ∧ q.1 = .seen
  | .select n => t = .session n .writer ∧ q.1 = .running
  | .pollSession n => ∃ role, t = .session n role ∧ q.1.live
  | .cancel n => (∃ role, t = .session n role ∧ q.1.live) ∨ t = .run ∧ q.1 = .drained n
  | _ => q.1.active

/-- The stages of the goroutines, and what they write. -/
def sessionProtocol (cfg : ManagerConfig) (t : Thread) : Protocol Call Call.Ans Station where
  allows q c := outboxProtocol.allows q.2 c ∧ Stage.Allows cfg t q c
  next q c a := (q.1.next c a, outboxProtocol.next q.2 c a)

/-! ### The code -/

/-- The calls that have to do with the stages. -/
def Call.staged : Call → Bool
  | writeMessage _ _ | go _ _ | wgWait _ | drainAcks | closeConn _ | started _ _ | wgDone _ => true
  | select _ | pollSession _ | cancel _ => true
  | _ => false

section Obeys

variable {cfg : ManagerConfig} {t : Thread} {n : ℕ} {q : Stage}

theorem sessionProtocol_unstaged (hq : q.active) (c : Call) (hc : c.staged = false) :
    (sessionProtocol cfg t).allows (q, none) c ∧
      ∀ a, (sessionProtocol cfg t).next (q, none) c a = (q, none) := by
  have hidle := outboxProtocol_idle c (by rintro n rfl; cases hc)
  refine ⟨⟨hidle.1, ?_⟩, fun a => Prod.ext ?_ (hidle.2 a)⟩
  · cases c with
    | writeMessage | go | wgWait | drainAcks | closeConn | started | wgDone => cases hc
    | select | pollSession | cancel => cases hc
    | _ => exact hq
  · cases c with
    | writeMessage | go | wgWait | drainAcks | closeConn | started | wgDone => cases hc
    | select | pollSession | cancel => cases hc
    | _ => rfl

theorem unstaged_bind {α β : Type} {p : Io α} {f : α → Io β} {Φ : β → Station → Prop}
    (hq : q.active) (hp : p.Calls fun c => c.staged = false)
    (hf : ∀ a, (f a).Obeys (sessionProtocol cfg t) (q, none) Φ) :
    (p >>= f).Obeys (sessionProtocol cfg t) (q, none) Φ :=
  Prog.Calls.bind_obeys hp (sessionProtocol_unstaged hq) hf

theorem ask_bind {α : Type} {c : Call} {f : c.Ans → Io α} {Φ : α → Station → Prop}
    (hq : q.active) (hc : c.staged = false)
    (hf : ∀ a, (f a).Obeys (sessionProtocol cfg t) (q, none) Φ) :
    (ask c >>= f).Obeys (sessionProtocol cfg t) (q, none) Φ :=
  unstaged_bind hq (calls_ask hc) hf

theorem unstaged_newEnvelope (type : MsgType) :
    (newEnvelope type).Calls fun c => c.staged = false := calls_newEnvelope type rfl rfl

/-- A frame is written without an event in hand. -/
theorem writeJSON_obeys_session {m : Outbound} (hq : q.active)
    (hmay : MayFrame cfg t (q, none) n (.text m)) :
    (writeJSON cfg n m).Obeys (sessionProtocol cfg t) (q, none)
      fun ok q' => q' = (if ok then q.greet else q, none) := by
  refine ask_bind hq rfl fun (ok : Bool) => ?_
  cases ok with
  | false => exact rfl
  | true =>
    refine ask_bind hq rfl fun _ => ask_bind hq rfl fun (ok : Bool) => ?_
    cases ok with
    | false => exact rfl
    | true => exact ⟨⟨trivial, hmay⟩, fun _ => rfl⟩

/-- The writer writes the event that it has in hand. -/
theorem writeJSON_obeys_hand {m : Outbound} (hlive : q.live) :
    (writeJSON cfg n m).Obeys (sessionProtocol cfg (.session n .writer)) (q, some (n, m))
      fun _ q' => q' = (q, none) := by
  have hgreet : q.greet = q := by
    cases q with
    | dialing => cases hlive
    | _ => rfl
  have hactive := Stage.active_of_live hlive
  refine Prog.perform_bind_obeys ⟨⟨rfl, rfl⟩, hactive⟩ fun (marshalled : Bool) => ?_
  cases marshalled with
  | false => exact rfl
  | true =>
    refine Prog.perform_bind_obeys ⟨rfl, hactive⟩ fun _ => ?_
    refine Prog.perform_bind_obeys ⟨rfl, hactive⟩ fun (set : Bool) => ?_
    cases set with
    | false => exact rfl
    | true =>
      refine ⟨⟨⟨rfl, rfl⟩, rfl, hlive, nofun⟩, fun (written : Bool) => Prod.ext ?_ ?_⟩
      · cases written with
        | false => rfl
        | true => exact hgreet
      · cases written with
        | false => rfl
        | true =>
          have hsettled : Call.settles m (.writeMessage n (.text m)) true = some .written :=
            if_pos ⟨rfl, rfl⟩
          exact if_pos (by rw [hsettled]; rfl)

/-- What holds where a block starts. -/
def StageHead (t : Thread) (l : Label) (q : Station) : Prop :=
  match t, l with
  | .run, .run n => q = (.dialing n, none)
  | .session n role, .start m r => m = n ∧ r = role ∧ q = (.before, none)
  | .session n role, .loop m r =>
    m = n ∧ r = role ∧ q.2 = none ∧ if role.awaited then q.1 = .running else q.1.live
  | _, _ => False

/-- What holds where a block ends. -/
def StageEnd (t : Thread) (res : Label ⊕ Unit) (q : Station) : Prop :=
  res.elim (fun l => StageHead t l q) fun _ => q.2 = none

/-- A goroutine that has seen that its session is done calls `wg.Done` and ends. -/
theorem wgDone_obeys {role : Role} (hrole : role.awaited) :
    Prog.Obeys (sessionProtocol cfg (.session n role)) (do ask (.wgDone n); return .inr ())
      (.seen, none) (StageEnd (.session n role)) :=
  Prog.perform_bind_obeys ⟨trivial, role, rfl, hrole, rfl⟩ fun _ => rfl

/-- It may cancel the session first. -/
theorem cancel_obeys {role : Role} (hrole : role.awaited) :
    Prog.Obeys (sessionProtocol cfg (.session n role))
      (do ask (.cancel n); ask (.wgDone n); return .inr ()) (.running, none)
      (StageEnd (.session n role)) :=
  Prog.perform_bind_obeys ⟨trivial, .inl ⟨role, rfl, rfl⟩⟩ fun _ => wgDone_obeys hrole

theorem sendPing_obeys_session : (sendPing cfg n).Obeys (sessionProtocol cfg (.session n .writer))
    (.running, none) fun _ q' => q' = (.running, none) := by
  refine ask_bind rfl rfl fun _ => ask_bind rfl rfl fun (ok : Bool) => ?_
  cases ok with
  | false => exact rfl
  | true =>
    refine ⟨⟨trivial, rfl, rfl, fun _ => rfl⟩, fun (written : Bool) => ?_⟩
    cases written <;> rfl

theorem sendHeartbeat_obeys_session :
    (sendHeartbeat cfg n).Obeys (sessionProtocol cfg (.session n .writer)) (.running, none)
      fun _ q' => q' = (.running, none) := by
  refine ask_bind rfl rfl fun (pending : Option ℕ) => ?_
  cases pending with
  | none => exact rfl
  | some count =>
    refine unstaged_bind rfl (unstaged_newEnvelope _) fun _ => ask_bind rfl rfl fun _ =>
      ask_bind rfl rfl fun _ => ?_
    have hmay : ∀ payload, MayFrame cfg (.session n .writer) (.running, none) n
        (.text (.heartbeat payload)) := fun _ => ⟨rfl, rfl, fun _ => rfl⟩
    refine (writeJSON_obeys_session rfl (hmay _)).mono fun ok q' hq' => ?_
    cases ok <;> exact hq'

theorem writer_obeys_session : (writer cfg n).Obeys (sessionProtocol cfg (.session n .writer))
    (.running, none) (StageEnd (.session n .writer)) := by
  refine Prog.perform_bind_obeys ⟨trivial, rfl, rfl⟩ fun (selected : Selected) => ?_
  -- once nothing is in hand, the writer goes on or ends its session
  have hrest : ∀ ok : Bool, (if ok then (pure (.inl (.loop n .writer)) : Io (Label ⊕ Unit)) else do
      ask (.cancel n); ask (.wgDone n); return .inr ()).Obeys
        (sessionProtocol cfg (.session n .writer)) (.running, none)
          (StageEnd (.session n .writer)) := by
    intro ok
    cases ok with
    | true => exact ⟨rfl, rfl, rfl, rfl⟩
    | false => exact cancel_obeys rfl
  cases selected with
  | ctxDone => exact wgDone_obeys rfl
  | event e =>
    cases e with
    | outbox m =>
      refine (writeJSON_obeys_hand rfl).bind ?_
      rintro ok _ rfl
      exact hrest ok
    | ping =>
      refine sendPing_obeys_session.bind ?_
      rintro ok _ rfl
      exact hrest ok
    | heartbeat =>
      refine sendHeartbeat_obeys_session.bind ?_
      rintro ok _ rfl
      exact hrest ok

theorem reader_obeys_session : (reader n).Obeys (sessionProtocol cfg (.session n .reader))
    (.running, none) (StageEnd (.session n .reader)) := by
  refine Prog.perform_bind_obeys ⟨trivial, .reader, rfl, rfl⟩ fun (done : Bool) => ?_
  cases done with
  | true => exact wgDone_obeys rfl
  | false =>
    refine ask_bind rfl rfl fun (msg : Option Inbound) => ?_
    cases msg with
    | some m =>
      have hinbound : (handleInbound m).Calls fun c => c.staged = false :=
        calls_handleInbound m (fun _ => rfl) rfl (fun _ => rfl) (fun _ => rfl) (fun _ => rfl)
          fun _ => rfl
      exact unstaged_bind rfl hinbound fun _ => ⟨rfl, rfl, rfl, rfl⟩
    | none =>
      refine Prog.perform_bind_obeys ⟨trivial, .reader, rfl, rfl⟩ fun (done : Bool) => ?_
      cases done with
      | true => exact wgDone_obeys rfl
      | false => exact cancel_obeys rfl

theorem flushRows_obeys_session {role : Role} (hrole : role.flushes) (hlive : q.live)
    (rows : List Buffer.SMSRecord) :
    (flushRows cfg n rows).Obeys (sessionProtocol cfg (.session n role)) (q, none)
      fun _ q' => q'.2 = none ∧ q'.1.live := by
  induction rows generalizing q with
  | nil => exact ⟨rfl, hlive⟩
  | cons row rows ih =>
    have hactive := Stage.active_of_live hlive
    refine Prog.perform_bind_obeys ⟨trivial, role, rfl, hlive⟩ fun (done : Bool) => ?_
    cases done with
    | true =>
      cases q with
      | running | seen => exact ⟨rfl, rfl⟩
      | _ => cases hlive
    | false =>
      have hmay : ∀ m, (Frame.text m).smsReceived →
          MayFrame cfg (.session n role) (q, none) n (.text m) := by
        intro m hm
        cases role with
        | flushOnConnect | periodicFlush => exact ⟨rfl, hlive, hm⟩
        | _ => exact hrole.elim
      refine unstaged_bind hactive (unstaged_newEnvelope _) fun _ => ?_
      refine (writeJSON_obeys_session hactive (hmay _ rfl)).bind ?_
      have hgreet : q.greet = q := by
        cases q with
        | dialing => cases hlive
        | _ => rfl
      rintro ok _ rfl
      cases ok with
      | false => exact ⟨rfl, hlive⟩
      | true =>
        rw [if_pos rfl, hgreet]
        refine ask_bind hactive rfl fun (registered : Option ℕ) => ?_
        cases registered with
        | none => exact ih hlive
        | some ch =>
          refine ask_bind hactive rfl fun _ => ?_
          refine ask_bind hactive rfl fun (waited : Waited) => ?_
          cases waited with
          | acked => exact ih hlive
          | timeout => exact ask_bind hactive rfl fun _ => ih hlive
          | ctxDone => exact ⟨rfl, hlive⟩

theorem flushBuffer_obeys_session {role : Role} (hrole : role.flushes) (hlive : q.live) :
    (flushBuffer cfg n).Obeys (sessionProtocol cfg (.session n role)) (q, none)
      fun _ q' => q'.2 = none ∧ q'.1.live := by
  have hactive := Stage.active_of_live hlive
  refine ask_bind hactive rfl fun (ok : Bool) => ?_
  cases ok with
  | false => exact ⟨rfl, hlive⟩
  | true =>
    refine ask_bind hactive rfl fun (rows : Option (List Buffer.SMSRecord)) => ?_
    cases rows with
    | none => exact ⟨⟨trivial, hactive⟩, fun _ => ⟨rfl, hlive⟩⟩
    | some rows =>
      refine (flushRows_obeys_session hrole hlive rows).bind ?_
      rintro _ ⟨q', hand⟩ ⟨rfl, hlive'⟩
      exact ⟨⟨trivial, Stage.active_of_live hlive'⟩, fun _ => ⟨rfl, hlive'⟩⟩

theorem runSession_obeys_session : (runSession cfg n).Obeys (sessionProtocol cfg .run)
    (.dialing n, none) fun _ q' => q' = (.dialing (n + 1), none) := by
  refine ask_bind rfl rfl fun _ => ?_
  have hhello : (sendHello cfg n).Obeys (sessionProtocol cfg .run) (.dialing n, none)
      fun ok q' => q' = (if ok then .greeted n else .dialing n, none) :=
    unstaged_bind rfl (unstaged_newEnvelope _) fun _ => ask_bind rfl rfl fun _ =>
      writeJSON_obeys_session rfl ⟨rfl, rfl, rfl, rfl⟩
  refine hhello.bind ?_
  rintro ok _ rfl
  cases ok with
  | false => exact ⟨⟨trivial, rfl, .inl rfl⟩, fun _ => rfl⟩
  | true =>
    refine Prog.perform_bind_obeys ⟨trivial, rfl, rfl⟩ fun _ => ?_
    refine Prog.perform_bind_obeys ⟨trivial, rfl, rfl⟩ fun _ => ?_
    refine Prog.perform_bind_obeys ⟨trivial, rfl, rfl⟩ fun _ => ?_
    refine Prog.perform_bind_obeys ⟨trivial, rfl, rfl⟩ fun _ => ?_
    refine Prog.perform_bind_obeys ⟨trivial, rfl, rfl⟩ fun _ => ?_
    refine Prog.perform_bind_obeys ⟨trivial, rfl, rfl⟩ fun _ => ?_
    refine Prog.perform_bind_obeys ⟨trivial, rfl, n, rfl⟩ fun _ => ?_
    refine Prog.perform_bind_obeys ⟨trivial, .inr ⟨rfl, rfl⟩⟩ fun _ => ?_
    exact ⟨⟨trivial, rfl, .inr rfl⟩, fun _ => rfl⟩

theorem run_obeys_session : (run cfg n).Obeys (sessionProtocol cfg .run) (.dialing n, none)
    (StageEnd .run) := by
  refine ask_bind rfl rfl fun (done : Bool) => ?_
  cases done with
  | true => exact rfl
  | false =>
    refine ask_bind rfl rfl fun (dialled : Bool) => ?_
    cases dialled with
    | false => exact ask_bind rfl rfl fun _ => rfl
    | true =>
      refine runSession_obeys_session.bind ?_
      rintro _ _ rfl
      exact ask_bind rfl rfl fun _ => rfl

theorem block_obeys_session {l : Label} {q : Station} (hhead : StageHead t l q) :
    (block cfg l).Obeys (sessionProtocol cfg t) q (StageEnd t) := by
  cases t with
  | run =>
    cases l with
    | run n =>
      obtain rfl : q = (.dialing n, none) := hhead
      exact run_obeys_session
    | _ => exact hhead.elim
  | session n role =>
    cases l with
    | run m => exact hhead.elim
    | start m r =>
      obtain ⟨rfl, rfl, rfl⟩ := hhead
      refine Prog.perform_bind_obeys ⟨trivial, rfl, rfl⟩ fun _ => ⟨rfl, rfl, rfl, ?_⟩
      cases r <;> rfl
    | loop m r =>
      obtain ⟨rfl, rfl, hhand, hstage⟩ := hhead
      obtain ⟨q, hand⟩ := q
      obtain rfl : hand = none := hhand
      cases r with
      | writer =>
        obtain rfl : q = .running := hstage
        exact writer_obeys_session
      | reader =>
        obtain rfl : q = .running := hstage
        exact reader_obeys_session
      | flushOnConnect =>
        have hrole : Role.flushes .flushOnConnect := trivial
        exact (flushBuffer_obeys_session hrole hstage).bind fun _ _ hq => hq.1
      | periodicFlush =>
        have hrole : Role.flushes .periodicFlush := trivial
        have hactive := Stage.active_of_live hstage
        refine ask_bind hactive rfl fun (tick : Bool) => ?_
        cases tick with
        | true =>
          exact (flushBuffer_obeys_session hrole hstage).bind fun _ _ hq =>
            ⟨rfl, rfl, hq.1, hq.2⟩
        | false => exact rfl
      | purge =>
        have hactive := Stage.active_of_live hstage
        refine ask_bind hactive rfl fun (tick : Bool) => ?_
        cases tick with
        | true => exact ask_bind hactive rfl fun _ => ⟨rfl, rfl, rfl, hstage⟩
        | false => exact rfl

end Obeys

end SmsGate.Tunnel
