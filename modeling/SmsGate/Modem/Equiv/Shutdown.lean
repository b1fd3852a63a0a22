import SmsGate.Modem.Equiv.Drain

/-!
# Dispatch during a graceful shutdown

`Registry.Dispatch` looks the worker up under the registry's lock and sends to `inboundCh` without
it.  A call that has found the worker can therefore send after the worker has deregistered, and even
after `drainInboundCh` has found the channel empty and returned.  Nobody receives from the channel
any more then, and `Dispatch` returns nil all the same.

`lateSends` are the tasks that were sent so.  They are exactly what a graceful shutdown loses
(`dispatched_acked_iff`).
-/

namespace SmsGate.Modem

open Tunnel

variable {O C : Type}

/-- The tasks that were sent since the drain found `inboundCh` empty. -/
def lateSends (queueSize : ℕ) : History O → List Task
  | [] => []
  | .call .worker .tryRecv (none : Option InboundTask) _ :: _ => []
  | .env (.send task) s :: past =>
    if s.inboundCh.length < queueSize then task :: lateSends queueSize past
    else lateSends queueSize past
  | _ :: past => lateSends queueSize past

/-- After the drain, `inboundCh` has what was sent late. -/
def LateOk (queueSize : ℕ) (s : System.Recorded Thread (World O) Call Call.Ans Outer) (q : Phase) :
    Prop :=
  q = .drained → (s.state.inboundCh = [] ↔ lateSends queueSize s.history = [])

theorem lateSends_call {queueSize : ℕ} {t : Thread} {e : Call} {a : e.Ans} {s : World O}
    {past : History O} (he : e.movesTasks = false) :
    lateSends queueSize (.call t e a s :: past) = lateSends queueSize past := by
  cases e with
  | ack | select | tryRecv | deregister => cases he
  | _ => cases t <;> rfl

section Step

variable {outside : C → O → (e : Call) → e.Ans → Option O} {ch : C} {s s' : World O} {q : Phase}
  {queueSize : ℕ} {past : History O}

/-- `Run` is done with the drain if `tryRecv` has just found the channel empty, or if it was done
with it before. -/
theorem lateOk_call {e : Call} {a : e.Ans} (hlate : LateOk queueSize ⟨s, past⟩ q)
    (hallow : taskProtocol.allows q e) (hexec : s.exec outside ch e a = some s') :
    LateOk queueSize ⟨s', .call .worker e a s :: past⟩ (taskProtocol.next q e a) := by
  intro hnext
  by_cases he : e.movesTasks = false
  · rw [(taskProtocol_stays e he).2 a] at hnext
    rw [lateSends_call he, ((effect_of_exec hexec).tasks he).inboundCh]
    exact hlate hnext
  · cases e with
    | tryRecv =>
      cases a with
      | none =>
        obtain ⟨hempty, hs⟩ := Option.ite_none_right_eq_some.mp hexec
        cases hs
        exact iff_of_true hempty rfl
      | some it => cases hnext
    | ack ackFn ack => cases q <;> cases hnext
    | select =>
      obtain rfl : q = .running [] := hallow
      cases a <;> cases hnext
    | deregister iccid => cases hnext
    | _ => exact absurd rfl he

theorem lateOk_watchdog {e : Call} {a : e.Ans} (hlate : LateOk queueSize ⟨s, past⟩ q)
    (he : e.ofWatchdog = true) (hexec : s.exec outside ch e a = some s') :
    LateOk queueSize ⟨s', .call .watchdog e a s :: past⟩ q := by
  intro hq
  have hquiet := movesTasks_of_ofWatchdog e he
  rw [lateSends_call hquiet, ((effect_of_exec hexec).tasks hquiet).inboundCh]
  exact hlate hq

/-- A task that is sent is late, and it stays in the channel. -/
theorem lateOk_outer {v : Outer} (hlate : LateOk queueSize ⟨s, past⟩ q)
    (hstep : v.step queueSize s = some s') : LateOk queueSize ⟨s', .env v s :: past⟩ q := by
  intro hq
  cases v with
  | send task =>
    unfold Outer.step at hstep
    dsimp only at hstep
    split_ifs at hstep with hlookups hroom
    · cases hstep
      unfold lateSends
      rw [if_pos hroom]
      refine iff_of_false (fun h => ?_) nofun
      exact List.cons_ne_nil _ _ (List.append_eq_nil_iff.mp h).2
    · cases hstep
      unfold lateSends
      rw [if_neg hroom]
      exact hlate hq
  | lookup =>
    obtain ⟨_, hs⟩ := Option.ite_none_right_eq_some.mp hstep
    cases hs
    exact hlate hq
  | requestReset | cancel | tick =>
    cases hstep
    exact hlate hq

end Step

/-! ### Whole runs -/

variable (h : Host) (w : Worker) (outside : C → O → (e : Call) → e.Ans → Option O)

/-- The tasks of a worker that is recorded, and those that came late. -/
def lateProof : WorkerProof h w outside taskProtocol where
  toRunProof := taskRun h w
  inv s past q := TaskInv s q ∧ LateOk w.inboundQueueSize ⟨s, past⟩ q
  run_inv hinv hallow hexec := ⟨taskInv_call hinv.1 hallow hexec, lateOk_call hinv.2 hallow hexec⟩
  watchdog_inv hinv he hexec :=
    ⟨hinv.1.of_sameTasks ((effect_of_exec hexec).tasks (movesTasks_of_ofWatchdog _ he)),
      lateOk_watchdog hinv.2 he hexec⟩
  outer_inv hinv hstep := ⟨taskInv_outer hinv.1 hstep, lateOk_outer hinv.2 hstep⟩

/-- **What a graceful shutdown loses.**  Take any run of a worker whose `Run` has returned because
its context was cancelled, next to any number of calls of `Dispatch`, with their lookups and sends
at any points.  Every task for which `Dispatch` returned nil has been acknowledged exactly once iff
none was sent after the drain had found `inboundCh` empty. -/
theorem dispatched_acked_iff {o : O} {c : RecordedConfig O}
    (hreach : (workerSystem h w outside).recorded.Reach
      ((workerSystem h w outside).recorded.start ⟨World.new o, []⟩ entry) c)
    (hstop : c.threads .worker = .stopped (.run .active)) :
    (∀ it ∈ c.state.state.dispatched, (c.state.state.acks.map Prod.fst).count it.ackFn = 1) ↔
      lateSends w.inboundQueueSize c.state.history = [] := by
  have hnew : (lateProof h w outside).inv (World.new o) [] (.running []) := ⟨taskInv_new o, nofun⟩
  obtain ⟨q, ⟨hinv, hlate⟩, hat⟩ := (lateProof h w outside).reach hnew rfl hreach
  have hdrained : q = .drained := by
    rw [hstop] at hat
    exact hat
  -- `Run` has drained the channel, so what is in it now came late
  rw [← hlate hdrained]
  simp only [hinv.custody.count_eq_one_iff]
  rw [hdrained] at hinv
  constructor
  · -- what is still in the channel is not acknowledged
    intro hdone
    refine List.eq_nil_iff_forall_not_mem.mpr fun it hit => ?_
    exact hinv.custody.not_mem_done (List.mem_map_of_mem hit) (hdone it (hinv.queued hit))
  -- with an empty channel and no task in hand, every task is where the acknowledged ones are
  · intro hempty it hit
    have hplace := hinv.custody.mem_iff.mp (List.mem_map_of_mem hit)
    rw [hempty] at hplace
    rcases hplace with hdone | hnone | hnone
    · exact hdone
    · cases hnone
    · cases hnone

/-! ### Two shutdowns with a task on its way -/

/-- `plainSystem`, recorded. -/
abbrev plainRecorded := plainSystem.recorded

/-- The init sequence succeeds, and a `Dispatch` finds the worker before the context is
cancelled. -/
def plainLookup : List (System.Move Thread Call Call.Ans Unit Outer) :=
  plainCalls 16 .reset none .active ++
    .jump .worker :: .env .lookup :: .env .cancel :: plainCalls 2 .ctxDone none .active ++
    [.jump .worker]

/-- The task is sent before the drain looks: the drain acknowledges it. -/
theorem dispatched_acked_iff_in_time :
    ∃ c, plainRecorded.Reach (plainRecorded.start ⟨World.new (), []⟩ entry) c ∧
      c.threads .worker = .stopped (.run .active) ∧ c.state.state.dispatched = [plainTask] ∧
      ∀ it ∈ c.state.state.dispatched, (c.state.state.acks.map Prod.fst).count it.ackFn = 1 := by
  have hplay : ∃ c, plainRecorded.play (plainRecorded.start ⟨World.new (), []⟩ entry)
      (plainLookup ++ .env (.send plainTask.task) ::
        plainCalls 3 .ctxDone (some plainTask) .active ++ .jump .worker ::
        plainCalls 3 .ctxDone none .active ++ [.jump .worker]) = some c ∧
      c.threads .worker = .stopped (.run .active) ∧ c.state.state.dispatched = [plainTask] ∧
      lateSends 64 c.state.history = [] := ⟨_, rfl, rfl, rfl, rfl⟩
  obtain ⟨c, hplay, hstop, hsent, hlate⟩ := hplay
  have hreach := System.reach_of_play hplay
  exact ⟨c, hreach, hstop, hsent, (dispatched_acked_iff .plain .plain _ hreach hstop).mpr hlate⟩

/-- The task is sent when the drain has found the channel empty: `Dispatch` has returned nil, and
the task is never acknowledged. -/
theorem not_acked_late_send :
    ∃ c, plainRecorded.Reach (plainRecorded.start ⟨World.new (), []⟩ entry) c ∧
      c.threads .worker = .stopped (.run .active) ∧ c.state.state.dispatched = [plainTask] ∧
      c.state.state.acks = [] := by
  have hplay : ∃ c, plainRecorded.play (plainRecorded.start ⟨World.new (), []⟩ entry)
      (plainLookup ++ plainCalls 1 .ctxDone none .active ++ .env (.send plainTask.task) ::
        plainCalls 2 .ctxDone none .active ++ [.jump .worker]) = some c ∧
      c.threads .worker = .stopped (.run .active) ∧ c.state.state.dispatched = [plainTask] ∧
      c.state.state.acks = [] := ⟨_, rfl, rfl, rfl, rfl⟩
  obtain ⟨c, hplay, hend⟩ := hplay
  exact ⟨c, System.reach_of_play hplay, hend⟩

end SmsGate.Modem
