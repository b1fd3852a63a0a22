import SmsGate.Tunnel.Equiv.Outbox

/-!
# The write deadline

`SetWriteDeadline` sets a deadline on the connection that holds for every later `WriteMessage`, and
only `writeJSON` sets it.  Text frames are all written by `writeJSON`, a few calls after it has set
the deadline; the pings of the writer are not.

The deadline that is in force is therefore one `WriteDeadline` after the time that some `writeJSON`
has read, the last one to set it (`renewedAt`), and a frame is written in time exactly when less
than that has passed since (`written_in_time_iff`).  Nothing makes it so for a ping: with the
intervals that the configuration has by default, the first ping of a quiet connection is written
when the deadline that HELLO has left behind is over (`not_ping_in_time`).
-/

namespace SmsGate.Tunnel

/-- The time that a goroutine has read last to set a write deadline. -/
def timeRead (t : Thread) : History → Option ℤ
  | .call u (.writeTime _) (ns : ℤ) _ :: past => if u = t then some ns else timeRead t past
  | _ :: past => timeRead t past
  | [] => none

/-- The time from which the write deadline of connection `n` runs: what the goroutine that was the
last to set it had read. -/
def renewedAt (n : ℕ) : History → Option ℤ
  | .call t (.setWriteDeadline m _) true _ :: past =>
    if m = n then timeRead t past else renewedAt n past
  | _ :: past => renewedAt n past
  | [] => none

/-- The write deadline of connection `n` is not over. -/
def World.InTime (s : World) (n : ℕ) : Prop := ∃ deadline, s.writeDeadline n = some deadline ∧
  s.clock < deadline

/-! ### Who sets it -/

/-- A deadline is set one `WriteDeadline` after the time that was read last. -/
def deadlineProtocol (cfg : ManagerConfig) : Protocol Call Call.Ans (Option ℤ) where
  allows
    | q, .setWriteDeadline _ deadline => ∃ ns, q = some ns ∧ deadline = ns + cfg.deadline
    | _, _ => True
  next
    | _, .writeTime _, (ns : ℤ) => some ns
    | q, _, _ => q

/-- The calls that set no write deadline. -/
def Call.setsNone : Call → Bool
  | setWriteDeadline _ _ => false
  | _ => true

section Obeys

variable {cfg : ManagerConfig} {n : ℕ} {α β : Type}

/-- A program that keeps to the protocol, whatever was read before. -/
def Dated (cfg : ManagerConfig) (p : Io α) : Prop :=
  ∀ q, p.Obeys (deadlineProtocol cfg) q fun _ _ => True

theorem Dated.bind {p : Io α} {f : α → Io β} (hp : Dated cfg p) (hf : ∀ a, Dated cfg (f a)) :
    Dated cfg (p >>= f) :=
  fun q => (hp q).bind fun a q' _ => hf a q'

theorem dated_pure (a : α) : Dated cfg (pure a : Io α) := fun _ => trivial

theorem allows_of_setsNone {c : Call} (hc : c.setsNone) (q : Option ℤ) :
    (deadlineProtocol cfg).allows q c := by
  cases c with
  | setWriteDeadline n deadline => cases hc
  | _ => trivial

theorem dated_of_calls {p : Io α} (hp : p.Calls fun c => c.setsNone) : Dated cfg p :=
  fun _ => hp.obeys_of_keeps (I := fun _ => True)
    (fun q _ _ hc => ⟨allows_of_setsNone hc q, fun _ => trivial⟩) trivial

theorem dated_ask {c : Call} (hc : c.setsNone) : Dated cfg (ask c) := dated_of_calls (calls_ask hc)

theorem closed_dated : Prog.Closed fun {_} (p : Io _) => Dated cfg p := ⟨dated_pure, Dated.bind⟩

theorem dated_common (c : Call) (hc : c.common) : Dated cfg (ask c) := by
  refine dated_ask ?_
  cases c with
  | setWriteDeadline => cases hc
  | _ => rfl

/-- The deadline is set right after the time was read. -/
theorem dated_writeJSON (m : Outbound) : Dated cfg (writeJSON cfg n m) := by
  refine (dated_ask rfl).bind fun (marshalled : Bool) => closed_dated.ite (dated_pure _) fun q => ?_
  refine Prog.perform_bind_obeys trivial fun (ns : ℤ) => ?_
  refine Prog.perform_bind_obeys ⟨ns, rfl, rfl⟩ fun (set : Bool) => ?_
  exact closed_dated.ite (dated_pure _) (dated_ask rfl) (some ns)

theorem dated_flushBuffer : Dated cfg (flushBuffer cfg n) :=
  closed_flushBuffer closed_dated dated_common dated_writeJSON (fun _ => dated_ask rfl)
    (fun _ => dated_ask rfl) (dated_ask rfl) (dated_ask rfl)

theorem dated_block (l : Label) : Dated cfg (block cfg l) := by
  cases l with
  | run n => exact closed_run closed_dated dated_common dated_writeJSON
  | start n role => exact (dated_ask rfl).bind fun _ => dated_pure _
  | loop n role =>
    cases role with
    | writer => exact closed_writer closed_dated dated_common dated_writeJSON (dated_ask rfl)
    | reader =>
      refine closed_reader closed_dated dated_common (dated_ask rfl) fun m => dated_of_calls ?_
      exact calls_handleInbound m (fun _ => rfl) rfl (fun _ => rfl) (fun _ => rfl) (fun _ => rfl)
        fun _ => rfl
    | flushOnConnect => exact dated_flushBuffer.bind fun _ => dated_pure _
    | periodicFlush => exact closed_periodicFlush closed_dated dated_common dated_flushBuffer
    | purge => exact closed_purge closed_dated dated_common

end Obeys

/-! ### What is in force -/

section

variable {s s' : World} {t : Thread} {ms : ℤ}

/-- The other calls leave the deadlines alone. -/
theorem writeDeadline_of_exec {c : Call} {a : c.Ans} (hc : c.setsNone)
    (hexec : s.exec t ms c a = some s') : s'.writeDeadline = s.writeDeadline := by
  refine view_of_exec (f := World.writeDeadline) ?_ hexec
  cases c with
  | setWriteDeadline n deadline => cases hc
  | _ => simp [Call.Leaves]

theorem writeDeadline_outer {v : Outer} (hstep : v.step s = some s') :
    s'.writeDeadline = s.writeDeadline :=
  view_of_outer (by intros; rfl) hstep

end

/-- The deadlines in force are those that the history tells. -/
structure DeadlineInv (cfg : ManagerConfig)
    (s : System.Recorded Thread World Call Call.Ans Outer) (q : Thread → Option ℤ) : Prop where
  read : ∀ t, q t = timeRead t s.history
  deadline : ∀ n, s.state.writeDeadline n = (renewedAt n s.history).map (· + cfg.deadline)

/-- A call, as the protocol follows it. -/
theorem timeRead_call (cfg : ManagerConfig) (t u : Thread) (c : Call) (a : c.Ans) (s : World)
    (past : History) : timeRead t (.call u c a s :: past) =
      if u = t then (deadlineProtocol cfg).next (timeRead t past) c a else timeRead t past := by
  cases c with
  | writeTime n => rfl
  | _ => exact (ite_self _).symm

theorem renewedAt_call {c : Call} (hc : c.setsNone) (n : ℕ) (t : Thread) (a : c.Ans) (s : World)
    (past : History) : renewedAt n (.call t c a s :: past) = renewedAt n past := by
  cases c with
  | setWriteDeadline n deadline => cases hc
  | _ => rfl

def deadlineOutline (cfg : ManagerConfig) :
    System.Outline (managerSystem cfg).recorded fun _ => deadlineProtocol cfg where
  head _ _ _ := True
  final _ _ _ := True
  inv := DeadlineInv cfg
  block_obeys _ l q _ := by
    refine (dated_block l q).mono fun res q _ => ?_
    cases res <;> trivial
  call_inv t ms s q c a s' hinv hallow hexec := by
    obtain ⟨s₁, hcall, rfl⟩ := System.recorded_exec_iff.mp hexec
    constructor
    · intro u
      rw [timeRead_call cfg]
      by_cases hu : t = u
      · subst hu
        rw [if_pos rfl, Function.update_self, hinv.read]
      · rw [if_neg hu, Function.update_of_ne (Ne.symm hu), hinv.read]
    · intro n
      by_cases hc : c.setsNone
      · rw [renewedAt_call hc, writeDeadline_of_exec hc hcall, hinv.deadline]
      · cases c with
        | setWriteDeadline m deadline =>
          cases a with
          | false =>
            cases hcall
            exact hinv.deadline n
          | true =>
            cases hcall
            obtain ⟨ns, hq, rfl⟩ := hallow
            -- the deadline of `m` now runs from the time that `t` has read
            by_cases hm : m = n
            · subst hm
              simp only [renewedAt, if_pos, Function.update_self, ← hinv.read, hq, Option.map_some]
            · simp only [renewedAt, if_neg hm, Function.update_of_ne (Ne.symm hm)]
              exact hinv.deadline n
        | _ => exact absurd rfl hc
  env_inv v s q s' hinv hstep := by
    obtain ⟨s₁, henv, rfl⟩ := System.recorded_env_iff.mp hstep
    refine ⟨hinv.read, fun n => ?_⟩
    rw [writeDeadline_outer henv]
    exact hinv.deadline n
  crash_inv _ _ _ _ _ _ hcrash := nomatch hcrash

theorem deadline_of_reach {cfg : ManagerConfig} {table : Buffer.Table}
    {c : System.Config Thread (System.Recorded Thread World Call Call.Ans Outer) Call Call.Ans
      Label Unit}
    (hreach : (managerSystem cfg).recorded.Reach
      ((managerSystem cfg).recorded.start ⟨World.new table, []⟩ entry) c) (n : ℕ) :
    c.state.state.writeDeadline n = (renewedAt n c.state.history).map (· + cfg.deadline) := by
  have hnew : DeadlineInv cfg ⟨World.new table, []⟩ fun _ => none := ⟨fun _ => rfl, fun _ => rfl⟩
  have hstart : (deadlineOutline cfg).Holds
      ((managerSystem cfg).recorded.start ⟨World.new table, []⟩ entry) :=
    (deadlineOutline cfg).holds_start hnew fun _ => trivial
  obtain ⟨q, hinv, -⟩ := (deadlineOutline cfg).reach hstart hreach
  exact hinv.deadline n

/-- **When a frame is written in time.**  Whenever a frame is written to a connection in a run of a
manager, the deadline in force there is not over exactly when less than `WriteDeadline` has passed
since the time that the last `writeJSON` to set it had read.  The frame may be HELLO, an event of
the outbox, a ping, a heartbeat or a row; only the ping has not set the deadline itself. -/
theorem written_in_time_iff (cfg : ManagerConfig) (table : Buffer.Table)
    (c : System.Config Thread (System.Recorded Thread World Call Call.Ans Outer) Call Call.Ans
      Label Unit)
    (hreach : (managerSystem cfg).recorded.Reach
      ((managerSystem cfg).recorded.start ⟨World.new table, []⟩ entry) c)
    (t : Thread) (n : ℕ) (f : Frame) (ok : Bool) (s : World) (later past : History)
    (hhistory : c.state.history = later ++ .call t (.writeMessage n f) ok s :: past) :
    s.InTime n ↔ ∃ ns, renewedAt n past = some ns ∧ s.clock < ns + cfg.deadline := by
  obtain ⟨c', hreach', hstate, -⟩ := System.exists_reach_of_history hreach rfl hhistory
  have hdeadline := deadline_of_reach hreach' n
  rw [hstate] at hdeadline
  rw [World.InTime, show s.writeDeadline n = _ from hdeadline]
  cases renewedAt n past with
  | none => simp
  | some ns => simp

/-! ### A quiet connection -/

/-- The answers to a writer whose ping ticker fires at time `ns`. -/
def pingAnswer (ns : ℤ) (ok : Bool) : (c : Call) → c.Ans
  | .select _ => .event .ping
  | .now => ns
  | .writeMessage _ _ => ok
  | c => sampleAnswer c

/-- HELLO is written at time 0, and the writer starts.  Then nothing happens until its ping ticker
fires at time `ns`. -/
def quietRun (ns : ℕ) (ok : Bool) : List (System.Move Thread Call Call.Ans ℤ Outer) :=
  sampleCalls 15 .run ++ sampleCalls 1 (.session 0 .writer) ++ [.jump (.session 0 .writer)] ++
    [.env (.pass ns)] ++ List.replicate 4 (.call (.session 0 .writer) 0 (pingAnswer ns ok))

/-- A ping after a nanosecond less than the 30 s of the default `WriteDeadline` is in time. -/
theorem written_in_time_iff_ping :
    ∃ c, (managerSystem sampleConfig).recorded.Reach
        ((managerSystem sampleConfig).recorded.start ⟨World.new .empty, []⟩ entry) c ∧
      ∃ later past s, c.state.history =
          later ++ .call (.session 0 .writer) (.writeMessage 0 .ping) true s :: past ∧
        renewedAt 0 past = some 0 ∧ s.clock = 29999999999 ∧ s.InTime 0 := by
  have hplay : ∃ c, (managerSystem sampleConfig).recorded.play
      ((managerSystem sampleConfig).recorded.start ⟨World.new .empty, []⟩ entry)
        (quietRun 29999999999 true) = some c ∧
      ∃ later past s, c.state.history =
          later ++ .call (.session 0 .writer) (.writeMessage 0 .ping) true s :: past ∧
        renewedAt 0 past = some 0 ∧ s.clock = 29999999999 :=
    ⟨_, rfl, [], _, _, rfl, rfl, rfl⟩
  obtain ⟨c, hc, later, past, s, hhistory, hrenewed, hclock⟩ := hplay
  have hreach := System.reach_of_play hc
  refine ⟨c, hreach, later, past, s, hhistory, hrenewed, hclock, ?_⟩
  refine (written_in_time_iff _ _ c hreach _ _ _ _ s later past hhistory).mpr ⟨0, hrenewed, ?_⟩
  rw [hclock]
  decide

/-- The first ping with the default `ping_interval_s` of 30 s is written, and fails, when the
deadline is over. -/
theorem not_ping_in_time :
    ∃ c, (managerSystem sampleConfig).recorded.Reach
        ((managerSystem sampleConfig).recorded.start ⟨World.new .empty, []⟩ entry) c ∧
      ∃ later past s, c.state.history =
          later ++ .call (.session 0 .writer) (.writeMessage 0 .ping) false s :: past ∧
        s.clock = 30000000000 ∧ ¬ s.InTime 0 := by
  have hplay : ∃ c, (managerSystem sampleConfig).recorded.play
      ((managerSystem sampleConfig).recorded.start ⟨World.new .empty, []⟩ entry)
        (quietRun 30000000000 false) = some c ∧
      ∃ later past s, c.state.history =
          later ++ .call (.session 0 .writer) (.writeMessage 0 .ping) false s :: past ∧
        s.clock = 30000000000 ∧ s.writeDeadline 0 = some 30000000000 :=
    ⟨_, rfl, [], _, _, rfl, rfl, rfl⟩
  obtain ⟨c, hc, later, past, s, hhistory, hclock, hset⟩ := hplay
  refine ⟨c, System.reach_of_play hc, later, past, s, hhistory, hclock, ?_⟩
  rintro ⟨deadline, hdeadline, hlt⟩
  rw [hset] at hdeadline
  cases hdeadline
  omega

end SmsGate.Tunnel
