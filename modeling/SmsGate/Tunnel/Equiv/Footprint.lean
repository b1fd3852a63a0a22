import SmsGate.Tunnel.Manager

/-!
# Which calls the goroutines of the tunnel make

The calls that take events out of the outbox, those on tasks, on `flushMu`, on the ACK channels and
on the write deadline are each made in one place.  The rest of what a goroutine does is made of the
calls in `Call.common`: a property that programs have one after the other holds of a goroutine if it
holds of them and of the few others that the goroutine makes (`closed_run` and its like).  `MadeBy`
says so of the calls themselves (`calls_block`).

A call changes few fields of the world.  `Call.Leaves` says which, by the views of the world that do
not depend on them; such a view is the same after the call (`view_of_exec`).
-/

namespace SmsGate.Tunnel

/-- The calls that read a task, route it, or push an event. -/
def Call.movesTasks : Call → Bool
  | readMessage _ | route _ | push _ => true
  | _ => false

/-- The calls that have nothing to do with tasks, with the outbox, with `flushMu`, with the ACK
channel of a row, or with the write deadline. -/
def Call.common : Call → Bool
  | readMessage _ | route _ | push _ | select _ | setWriteDeadline _ _ => false
  | tryLock | unlock | registerAck _ | dropAck _ | takeAck _ | closeAck _ => false
  | _ => true

section

variable {ok : Call → Prop}

theorem calls_ask {c : Call} (hc : ok c) : (ask c).Calls ok := Prog.calls_perform.mpr hc

theorem calls_newEnvelope (type : MsgType) (huuid : ok .newUUID) (hnow : ok .now) :
    (newEnvelope type).Calls ok :=
  (calls_ask huuid).bind fun _ => (calls_ask hnow).bind fun _ => trivial

theorem calls_ackDelivered (bufferID : ℤ) (htake : ok (.takeAck bufferID))
    (hclose : ∀ ch, ok (.closeAck ch)) (hmark : ok (.markDelivered bufferID)) :
    (ackDelivered bufferID).Calls ok := by
  refine (calls_ask htake).bind fun (found : Option ℕ) => ?_
  cases found with
  | none => exact (calls_ask hmark).bind fun _ => trivial
  | some ch => exact (calls_ask (hclose ch)).bind fun _ => (calls_ask hmark).bind fun _ => trivial

theorem calls_routeTask (t : Task) (hroute : ok (.route t)) (hnow : ok .now)
    (hpush : ∀ m, ok (.push m)) : (handleInbound (.task t)).Calls ok := by
  refine (calls_ask hroute).bind fun (err : Option (List UInt8)) => ?_
  cases err with
  | none => trivial
  | some err =>
    have hack : (makeErrorAck t.messageID err).Calls ok :=
      Prog.Calls.bind ((calls_ask hnow).bind fun _ => trivial) fun _ => trivial
    exact hack.bind fun _ => calls_ask (hpush _)

theorem calls_handleInbound (m : Inbound) (hroute : ∀ t, ok (.route t)) (hnow : ok .now)
    (hpush : ∀ m, ok (.push m)) (htake : ∀ id, ok (.takeAck id)) (hclose : ∀ ch, ok (.closeAck ch))
    (hmark : ∀ id, ok (.markDelivered id)) : (handleInbound m).Calls ok := by
  cases m with
  | malformed | unknown => trivial
  | task t => exact calls_routeTask t (hroute t) hnow hpush
  | smsDeliveredAck bufferID => exact calls_ackDelivered bufferID (htake _) hclose (hmark _)

end

section Closed

variable {S : {α : Type} → Io α → Prop} (hS : Prog.Closed S) {cfg : ManagerConfig} {n : ℕ}
  (hok : ∀ c, c.common → S (ask c))
include hS hok

theorem closed_newEnvelope (type : MsgType) : S (newEnvelope type) :=
  hS.bind (hok _ rfl) fun _ => hS.bind (hok _ rfl) fun _ => hS.pure _

theorem closed_writeJSON (hset : ∀ deadline, S (ask (.setWriteDeadline n deadline)))
    (m : Outbound) : S (writeJSON cfg n m) := by
  refine hS.bind (hok _ rfl) fun (marshalled : Bool) => hS.ite (hS.pure _) ?_
  refine hS.bind (hok _ rfl) fun _ => hS.bind (hset _) fun (set : Bool) => ?_
  exact hS.ite (hS.pure _) (hok _ rfl)

theorem closed_sendPing : S (sendPing cfg n) := by
  refine hS.bind (hok _ rfl) fun _ => hS.bind (hok _ rfl) fun (set : Bool) => ?_
  exact hS.ite (hS.pure _) (hok _ rfl)

theorem closed_reader (hread : S (ask (.readMessage n))) (hinbound : ∀ m, S (handleInbound m)) :
    S (reader n) := by
  refine hS.bind (hok _ rfl) fun (done : Bool) => hS.ite ?_ ?_
  · exact hS.bind (hok _ rfl) fun _ => hS.pure _
  · refine hS.bind hread fun (msg : Option Inbound) => ?_
    cases msg with
    | some m => exact hS.bind (hinbound m) fun _ => hS.pure _
    | none =>
      refine hS.bind (hok _ rfl) fun (done : Bool) => ?_
      cases done with
      | true => exact hS.bind (hok _ rfl) fun _ => hS.pure _
      | false => exact hS.bind (hok _ rfl) fun _ => hS.bind (hok _ rfl) fun _ => hS.pure _

theorem closed_purge : S (purge n) := by
  refine hS.bind (hok _ rfl) fun (tick : Bool) => hS.ite ?_ (hS.pure _)
  exact hS.bind (hok _ rfl) fun _ => hS.pure _

theorem closed_periodicFlush (hflush : S (flushBuffer cfg n)) : S (periodicFlush cfg n) :=
  hS.bind (hok _ rfl) fun (_ : Bool) => hS.ite (hS.bind hflush fun _ => hS.pure _) (hS.pure _)

variable (hwrite : ∀ m, S (writeJSON cfg n m))
include hwrite

theorem closed_sendHello : S (sendHello cfg n) :=
  hS.bind (closed_newEnvelope hS hok _) fun _ => hS.bind (hok _ rfl) fun _ => hwrite _

theorem closed_sendHeartbeat : S (sendHeartbeat cfg n) := by
  refine hS.bind (hok _ rfl) fun (pending : Option ℕ) => ?_
  cases pending with
  | none => exact hS.pure _
  | some count =>
    refine hS.bind (closed_newEnvelope hS hok _) fun _ => ?_
    exact hS.bind (hok _ rfl) fun _ => hS.bind (hok _ rfl) fun _ => hwrite _

theorem closed_writeEvent (e : WriterEvent) : S (writeEvent cfg n e) := by
  cases e with
  | outbox m => exact hwrite m
  | ping => exact closed_sendPing hS hok
  | heartbeat => exact closed_sendHeartbeat hS hok hwrite

theorem closed_writer (hselect : S (ask (.select n))) : S (writer cfg n) := by
  refine hS.bind hselect fun (selected : Selected) => ?_
  cases selected with
  | ctxDone => exact hS.bind (hok _ rfl) fun _ => hS.pure _
  | event e =>
    refine hS.bind (closed_writeEvent hS hok hwrite e) fun ok => hS.ite (hS.pure _) ?_
    exact hS.bind (hok _ rfl) fun _ => hS.bind (hok _ rfl) fun _ => hS.pure _

theorem closed_flushRows (hregister : ∀ id, S (ask (.registerAck id)))
    (hdrop : ∀ id, S (ask (.dropAck id))) (rows : List Buffer.SMSRecord) :
    S (flushRows cfg n rows) := by
  induction rows with
  | nil => exact hS.pure _
  | cons row rows ih =>
    refine hS.bind (hok _ rfl) fun (done : Bool) => hS.ite (hS.pure _) ?_
    refine hS.bind (closed_newEnvelope hS hok _) fun _ => ?_
    refine hS.bind (hwrite _) fun (sent : Bool) => hS.ite (hS.pure _) ?_
    refine hS.bind (hregister _) fun (registered : Option ℕ) => ?_
    cases registered with
    | none => exact ih
    | some ch =>
      refine hS.bind (hok _ rfl) fun _ => hS.bind (hok _ rfl) fun (waited : Waited) => ?_
      cases waited with
      | acked => exact ih
      | timeout => exact hS.bind (hdrop _) fun _ => ih
      | ctxDone => exact hS.pure _

theorem closed_flushBuffer (hregister : ∀ id, S (ask (.registerAck id)))
    (hdrop : ∀ id, S (ask (.dropAck id))) (hlock : S (ask .tryLock))
    (hunlock : S (ask .unlock)) : S (flushBuffer cfg n) := by
  refine hS.bind hlock fun (locked : Bool) => hS.ite (hS.pure _) ?_
  refine hS.bind (hok _ rfl) fun (rows : Option (List Buffer.SMSRecord)) => ?_
  cases rows with
  | none => exact hunlock
  | some rows =>
    exact hS.bind (closed_flushRows hS hok hwrite hregister hdrop rows) fun _ => hunlock

theorem closed_runSession : S (runSession cfg n) := by
  refine hS.bind (hok _ rfl) fun _ => ?_
  refine hS.bind (closed_sendHello hS hok hwrite) fun (sent : Bool) => ?_
  cases sent with
  | false => exact hok _ rfl
  | true =>
    refine hS.bind (hok _ rfl) fun _ => hS.bind (hok _ rfl) fun _ => ?_
    refine hS.bind (hok _ rfl) fun _ => hS.bind (hok _ rfl) fun _ => ?_
    refine hS.bind (hok _ rfl) fun _ => hS.bind (hok _ rfl) fun _ => ?_
    refine hS.bind (hok _ rfl) fun _ => hS.bind (hok _ rfl) fun _ => ?_
    exact hok _ rfl

theorem closed_run : S (run cfg n) := by
  refine hS.bind (hok _ rfl) fun (done : Bool) => hS.ite (hS.pure _) ?_
  refine hS.bind (hok _ rfl) fun (dialled : Bool) => hS.ite ?_ ?_
  · refine hS.bind (closed_runSession hS hok hwrite) fun _ => ?_
    exact hS.bind (hok _ rfl) fun _ => hS.pure _
  · exact hS.bind (hok _ rfl) fun _ => hS.pure _

end Closed

/-- Only a reader moves tasks, and only a writer takes events out of the outbox. -/
structure Call.MadeBy (l : Label) (c : Call) : Prop where
  task : c.movesTasks = true → ∃ n, l = .loop n .reader
  select : ∀ n, c = .select n → ∃ n, l = .loop n .writer

theorem Call.MadeBy.of_common {l : Label} {c : Call} (hc : c.common) : c.MadeBy l := by
  cases c with
  | readMessage | route | push | select => cases hc
  | _ => exact ⟨nofun, nofun⟩

theorem calls_block {cfg : ManagerConfig} (l : Label) : (block cfg l).Calls (Call.MadeBy l) := by
  have hS : Prog.Closed fun {_} (p : Io _) => p.Calls (Call.MadeBy l) := Prog.closed_calls _
  have hok : ∀ c, c.common → (ask c).Calls (Call.MadeBy l) := fun c hc => calls_ask (.of_common hc)
  have hwrite : ∀ n m, (writeJSON cfg n m).Calls (Call.MadeBy l) :=
    fun n => closed_writeJSON hS hok fun _ => calls_ask ⟨nofun, nofun⟩
  have hflush : ∀ n, (flushBuffer cfg n).Calls (Call.MadeBy l) := fun n =>
    closed_flushBuffer hS hok (hwrite n) (fun _ => calls_ask ⟨nofun, nofun⟩)
      (fun _ => calls_ask ⟨nofun, nofun⟩) (calls_ask ⟨nofun, nofun⟩) (calls_ask ⟨nofun, nofun⟩)
  cases l with
  | run n => exact closed_run hS hok (hwrite n)
  | start n role => exact hS.bind (hok _ rfl) fun _ => hS.pure _
  | loop n role =>
    cases role with
    | writer => exact closed_writer hS hok (hwrite n) (calls_ask ⟨nofun, fun _ _ => ⟨n, rfl⟩⟩)
    | reader =>
      have hreads : ∀ c : Call, (∀ n, c ≠ .select n) → c.MadeBy (.loop n .reader) :=
        fun c hc => ⟨fun _ => ⟨n, rfl⟩, fun m hm => absurd hm (hc m)⟩
      exact closed_reader hS hok (calls_ask (hreads _ nofun)) fun m =>
        calls_handleInbound m (fun _ => hreads _ nofun) (hreads _ nofun) (fun _ => hreads _ nofun)
          (fun _ => hreads _ nofun) (fun _ => hreads _ nofun) fun _ => hreads _ nofun
    | flushOnConnect => exact hS.bind (hflush n) fun _ => hS.pure _
    | periodicFlush => exact closed_periodicFlush hS hok (hflush n)
    | purge => exact closed_purge hS hok

/-! ### What a call leaves alone -/

theorem exists_settle (t : Thread) (s : World) : ∃ busy, s.settle t = { s with busy := busy } := by
  unfold World.settle
  split
  · exact ⟨_, rfl⟩
  · exact ⟨s.busy, rfl⟩

theorem exists_take (t : Thread) (s : World) : ∃ busy, s.take t = { s with busy := busy } := by
  unfold World.take
  split
  · exact ⟨_, rfl⟩
  · exact ⟨s.busy, rfl⟩

theorem exists_hold (t : Thread) (held : Bool) (s : World) :
    ∃ rowsHeld, s.hold t held = { s with rowsHeld := rowsHeld } := by
  unfold World.hold
  split
  · exact ⟨_, rfl⟩
  · exact ⟨s.rowsHeld, rfl⟩

/-- A view of the world does not depend on the fields that a call may change. -/
def Call.Leaves {β : Type} (f : World → β) : Call → Prop
  | cancel _ => ∀ s x y, f { s with cancelled := x, busy := y } = f s
  | go _ _ => ∀ s x, f { s with spawned := x } = f s
  | wgDone _ => ∀ s x, f { s with wgDone := x } = f s
  | setWriteDeadline _ _ => ∀ s x, f { s with writeDeadline := x } = f s
  | writeMessage _ _ => ∀ s x y, f { s with written := x, busy := y } = f s
  | closeConn _ => ∀ s x, f { s with closedConns := x } = f s
  | select _ => ∀ s x y, f { s with outbox := x, busy := y } = f s
  | tryLock => ∀ s x, f { s with flushMu := x } = f s
  | unlock => ∀ s x y, f { s with flushMu := x, rowsHeld := y } = f s
  | registerAck _ => ∀ s x y, f { s with pending := x, made := y } = f s
  | dropAck _ | takeAck _ => ∀ s x, f { s with pending := x } = f s
  | closeAck _ => ∀ s x, f { s with closedAcks := x } = f s
  | drainAcks => ∀ s x y, f { s with closedAcks := x, pending := y } = f s
  | pendingRows => ∀ s x, f { s with rowsHeld := x } = f s
  | markDelivered _ | purge => ∀ s x, f { s with table := x } = f s
  | push _ => ∀ s x, f { s with outbox := x } = f s
  | _ => True

section

variable {β : Type} {f : World → β} {s s' w : World} {t : Thread} {ms : ℤ} {c : Call} {a : c.Ans}

theorem view_of_ite {p : Prop} {_ : Decidable p} (h : (if p then some w else none) = some s')
    (hw : f w = f s) : f s' = f s := by
  obtain ⟨-, hs⟩ := Option.ite_none_right_eq_some.mp h
  cases hs
  exact hw

theorem view_of_select {n : ℕ} {a : Selected} (hc : (Call.select n).Leaves f)
    (hexec : s.exec t ms (.select n) a = some s') : f s' = f s := by
  have htake : ∀ rest, f (World.take t { s with outbox := rest }) = f s := by
    intro rest
    obtain ⟨busy, hbusy⟩ := exists_take t { s with outbox := rest }
    rw [hbusy]
    exact hc s rest busy
  cases a with
  | ctxDone => exact view_of_ite hexec rfl
  | event e =>
    cases e with
    | outbox m =>
      simp only [World.exec] at hexec
      split at hexec
      · exact view_of_ite hexec (htake _)
      · cases hexec
    | ping | heartbeat =>
      cases hexec
      exact htake s.outbox

/-- A call changes nothing in a view that leaves out its fields. -/
theorem view_of_exec (hc : c.Leaves f) (hexec : s.exec t ms c a = some s') :
    f s' = f s := by
  cases c with
  | pollCtx | pollSession | started | wgWait | writeTime | now | timeAfter | awaitAck | tick =>
    exact view_of_ite hexec rfl
  | tryLock | takeAck => exact view_of_ite hexec (hc s _)
  | select n => exact view_of_select hc hexec
  | cancel n =>
    cases hexec
    obtain ⟨busy, hbusy⟩ := exists_settle t
      { s with cancelled := Function.update s.cancelled n true }
    rw [hbusy]
    exact hc s _ busy
  | writeMessage n frame =>
    cases hexec
    cases a with
    | false =>
      obtain ⟨busy, hbusy⟩ := exists_settle t s
      exact (congrArg f hbusy).trans (hc s s.written busy)
    | true =>
      obtain ⟨busy, hbusy⟩ := exists_settle t { s with written := s.written ++ [(n, frame)] }
      exact (congrArg f hbusy).trans (hc s _ busy)
  | unlock =>
    cases hexec
    obtain ⟨held, hheld⟩ := exists_hold t false { s with flushMu := false }
    rw [hheld]
    exact hc s false held
  | registerAck id =>
    simp only [World.exec] at hexec
    split at hexec
    · exact view_of_ite hexec rfl
    · exact view_of_ite hexec (hc s _ _)
  | pendingRows =>
    cases a with
    | none =>
      cases hexec
      rfl
    | some rows =>
      refine view_of_ite hexec ?_
      split_ifs
      · rfl
      · -- rows that were read are noted as held, which is history
        obtain ⟨held, hheld⟩ := exists_hold t true s
        rw [hheld]
        exact hc s held
  | pendingCount =>
    cases a with
    | none =>
      cases hexec
      rfl
    | some count => exact view_of_ite hexec rfl
  | setWriteDeadline | markDelivered =>
    cases a with
    | false =>
      cases hexec
      rfl
    | true =>
      cases hexec
      exact hc s _
  | push m =>
    cases hexec
    split_ifs
    · exact hc s _
    · rfl
  | go | wgDone | closeConn | dropAck | closeAck | purge =>
    cases hexec
    exact hc s _
  | drainAcks =>
    cases hexec
    exact hc s _ _
  | _ =>
    cases hexec
    rfl

/-- The rest of the gateway changes the outbox, the table, the context and the clock. -/
theorem view_of_outer {v : Outer}
    (hview : ∀ s x y b z, f { s with outbox := x, table := y, ctxDone := b, clock := z } = f s)
    (hstep : v.step s = some s') : f s' = f s := by
  cases v with
  | push m =>
    cases hstep
    split_ifs
    · exact hview s _ _ _ _
    · rfl
  | insert | cancel | pass =>
    cases hstep
    exact hview s _ _ _ _

end

end SmsGate.Tunnel
