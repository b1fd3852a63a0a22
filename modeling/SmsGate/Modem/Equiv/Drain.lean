import SmsGate.Modem.Equiv.Runs
import SmsGate.Prog.Custody

/-!
# Tasks at the end of a worker

What becomes of the tasks that were dispatched to a worker, over every run: any URCs, tasks, ticks
and resets, any answers of the modem, the watchdog at any point.

A task is in `inboundCh`, in the hands of `Run`, or acknowledged (`Custody`).  `taskProtocol`
follows how `Run` takes tasks and acknowledges them; every method keeps to it (`taskRun`).  The
outcome is `acked_iff`: the tasks dispatched before the worker deregistered are all acknowledged
exactly once by the time `Run` returns iff `Run` ended because its context was cancelled, or
`inboundCh` happened to be empty.
-/

namespace SmsGate.Modem

open Tunnel

/-! ### What the methods do with tasks -/

/-- How far `Run` is, and the task it has taken and not acknowledged. -/
inductive Phase where
  | running (held : List ℕ)
  | deregistered
  | draining (held : List ℕ)
  | drained
  deriving DecidableEq

/-- The tasks in the hands of `Run`. -/
def Phase.held : Phase → List ℕ
  | running held | draining held => held
  | deregistered | drained => []

/-- `Run` takes one task at a time and acknowledges it before the next; it deregisters once, with
no task in its hands, and takes tasks by `tryRecv` only after that. -/
def taskProtocol : Protocol Call Call.Ans Phase where
  allows q e :=
    match e, q with
    | .ack ackFn _, q => q.held = [ackFn]
    | .select, q => q = .running []
    | .deregister _, q => q = .running []
    | .tryRecv, q => q = .deregistered ∨ q = .draining []
    | _, _ => True
  next q e a :=
    match e, a with
    | .ack _ _, _ =>
      match q with
      | .running _ => .running []
      | _ => .draining []
    | .select, (.task it : Selected) => .running [it.ackFn]
    | .deregister _, _ => .deregistered
    | .tryRecv, (some it : Option InboundTask) => .draining [it.ackFn]
    | .tryRecv, (none : Option InboundTask) => .drained
    | _, _ => q

theorem taskProtocol_stays {q : Phase} (e : Call) (he : e.movesTasks = false) :
    taskProtocol.allows q e ∧ ∀ a, taskProtocol.next q e a = q := by
  cases e with
  | ack | select | tryRecv | deregister => cases he
  | _ => exact ⟨trivial, fun _ => rfl⟩

theorem movesTasks_of_minor (e : Call) (he : e.minor = true) : e.movesTasks = false := by
  cases e with
  | ack | select | tryRecv | deregister => cases he
  | _ => rfl

theorem movesTasks_of_ofInit (e : Call) (he : e.ofInit = true) : e.movesTasks = false := by
  cases e with
  | ack | select | tryRecv | deregister => cases he
  | _ => rfl

theorem movesTasks_of_ofWatchdog (e : Call) (he : e.ofWatchdog = true) : e.movesTasks = false := by
  cases e with
  | ack | select | tryRecv | deregister => cases he
  | _ => rfl

/-- The calls that a handler makes beside the acknowledgement of its task. -/
abbrev Quiet {α : Type} (p : Work α) : Prop := p.Calls fun e => e.movesTasks = false

theorem Quiet.obeys {α : Type} {p : Work α} (hp : Quiet p) {q : Phase} {Φ : α → Phase → Prop}
    (hΦ : ∀ a, Φ a q) : p.Obeys taskProtocol q Φ :=
  Prog.Calls.obeys hp taskProtocol_stays hΦ

theorem Quiet.bind_obeys {α β : Type} {p : Work α} {f : α → Work β} (hp : Quiet p) {q : Phase}
    {Φ : β → Phase → Prop} (hf : ∀ a, (f a).Obeys taskProtocol q Φ) :
    (p >>= f).Obeys taskProtocol q Φ :=
  Prog.Calls.bind_obeys hp taskProtocol_stays hf

theorem quiet_ask {e : Call} (he : e.movesTasks = false) : Quiet (ask e) := calls_ask he

theorem quiet_newEnvelopeFrom (type : MsgType) (messageID : List UInt8) :
    Quiet (newEnvelopeFrom type messageID) :=
  calls_newEnvelopeFrom movesTasks_of_minor type messageID

theorem quiet_doTask (h : Host) (id : Identity) (task : Task) : Quiet (doTask h id task) :=
  calls_doTask movesTasks_of_minor h id task rfl (fun _ _ => rfl) rfl rfl rfl rfl (fun _ => rfl) rfl
    fun _ _ _ => rfl

/-- A task that is executed is acknowledged once. -/
theorem executeTask_obeys (h : Host) (id : Identity) (it : InboundTask) :
    (executeTask h id it).Obeys taskProtocol (.running [it.ackFn]) fun _ q => q = .running [] :=
  (quiet_ask rfl).bind_obeys fun _ => (quiet_ask rfl).bind_obeys fun _ =>
    (quiet_doTask h id it.task).bind_obeys fun _ => (quiet_newEnvelopeFrom _ _).bind_obeys fun _ =>
      Prog.perform_bind_obeys rfl fun _ => (quiet_ask rfl).obeys fun _ => rfl

/-- Only the handler of a task acknowledges one. -/
theorem quiet_handle (h : Host) (w : Worker) (id : Identity) {selected : Selected}
    (hne : ∀ it, selected ≠ .task it) : Quiet (handle h w id selected) := by
  refine (calls_handle h w id selected).mono fun e he => ?_
  cases e with
  | ack =>
    obtain ⟨it, htask⟩ := he.task rfl
    exact absurd htask (hne it)
  | select | tryRecv | deregister => cases he.ofRun
  | _ => rfl

/-- The phase in which a handler starts. -/
def Selected.phase : Selected → Phase
  | .task it => .running [it.ackFn]
  | _ => .running []

theorem handle_obeys (h : Host) (w : Worker) (id : Identity) (selected : Selected) :
    (handle h w id selected).Obeys taskProtocol selected.phase fun _ q => q = .running [] := by
  cases selected with
  | task it => exact executeTask_obeys h id it
  | _ =>
    refine Quiet.obeys (quiet_handle h w id ?_) fun _ => rfl
    exact fun _ => nofun

/-! ### What the blocks do with tasks -/

/-- Where the blocks of `Run` start. -/
def headPhase : Label → Phase → Prop
  | .init, q | .main _, q => q = .running []
  | .drain, q => q = .deregistered ∨ q = .draining []
  | .watchdog, _ => False

/-- Where `Run` ends: with `ACTIVE` once it has drained `inboundCh`, with another state as soon as
it has deregistered, or before it registered. -/
def finalPhase (st : State) (q : Phase) : Prop :=
  if st = .active then q = .drained else q = .running [] ∨ q = .deregistered

theorem mainLoop_obeys (h : Host) (w : Worker) (id : Identity) :
    (mainLoop h w id).Obeys taskProtocol (.running []) (RunEnds headPhase finalPhase) := by
  refine Prog.perform_bind_obeys rfl fun (selected : Selected) => ?_
  have hnext : taskProtocol.next (.running []) .select selected = selected.phase := by
    cases selected <;> rfl
  rw [hnext]
  by_cases hctx : selected = .ctxDone
  · subst hctx
    exact Prog.perform_bind_obeys rfl fun _ => .inl rfl
  · rw [if_neg hctx]
    refine (handle_obeys h w id selected).bind fun _ q hq => ?_
    subst hq
    refine (quiet_ask rfl).bind_obeys fun _ => (quiet_ask rfl).bind_obeys fun _ =>
      (quiet_ask rfl).bind_obeys fun (st : State) => ?_
    by_cases hst : st = .failed ∨ st = .banned
    · rw [if_pos hst]
      refine Prog.perform_bind_obeys rfl fun _ => (quiet_ask rfl).bind_obeys fun _ => ?_
      rcases hst with rfl | rfl
      · exact .inr rfl
      · exact .inr rfl
    · rw [if_neg hst]
      rfl

theorem drainInboundCh_obeys {q : Phase} (hq : q = .deregistered ∨ q = .draining []) :
    drainInboundCh.Obeys taskProtocol q (RunEnds headPhase finalPhase) := by
  refine Prog.perform_bind_obeys hq fun (received : Option InboundTask) => ?_
  cases received with
  | some it =>
    refine (quiet_newEnvelopeFrom _ _).bind_obeys fun _ => ?_
    exact Prog.perform_bind_obeys rfl fun _ => .inr rfl
  | none =>
    exact (quiet_ask rfl).bind_obeys fun _ => (quiet_ask rfl).bind_obeys fun _ => rfl

/-- `Run` keeps to `taskProtocol`. -/
def taskRun (h : Host) (w : Worker) : RunProof h w taskProtocol where
  head := headPhase
  final := finalPhase
  not_watchdog _ hq := hq
  init_obeys q hq := by
    refine init_obeys_of_keeps h w (I := (· = Phase.running [])) (fun q e hq he => ?_) hq
      (fun _ _ hq => hq) fun _ hq => .inl hq
    obtain ⟨hallow, hnext⟩ := taskProtocol_stays e (movesTasks_of_ofInit e he)
    exact ⟨hallow, fun a => (hnext a).trans hq⟩
  main_obeys id q hq := by
    obtain rfl : q = .running [] := hq
    exact mainLoop_obeys h w id
  drain_obeys q hq := drainInboundCh_obeys hq

/-! ### Where the tasks are -/

section Invariant

variable {O : Type}

/-- What is known of the tasks that had been dispatched when the worker deregistered. -/
def SnapshotOk (s : World O) : Phase → Prop
  | .running _ => s.atDeregister = none
  | .deregistered =>
    ∃ snap, s.atDeregister = some snap ∧ snap.dispatched ⊆ s.dispatched ∧
      snap.queue ⊆ snap.dispatched ∧ snap.queue ⊆ s.inboundCh ∧
      ∀ it ∈ snap.dispatched, it.ackFn ∈ s.acks.map Prod.fst ∨ it ∈ snap.queue
  | .draining _ => ∃ snap, s.atDeregister = some snap ∧ snap.dispatched ⊆ s.dispatched
  | .drained =>
    ∃ snap, s.atDeregister = some snap ∧ ∀ it ∈ snap.dispatched, it.ackFn ∈ s.acks.map Prod.fst

/-- The invariant of the tasks. -/
structure TaskInv (s : World O) (q : Phase) : Prop where
  custody : Custody (s.dispatched.map InboundTask.ackFn) (s.acks.map Prod.fst) q.held
    (s.inboundCh.map InboundTask.ackFn)
  /-- The next task to be dispatched has a new identity. -/
  fresh : ∀ it ∈ s.dispatched, it.ackFn < s.dispatched.length
  queued : s.inboundCh ⊆ s.dispatched
  snapshot : SnapshotOk s q

theorem TaskInv.of_sameTasks {s s' : World O} {q : Phase} (hinv : TaskInv s q)
    (h : SameTasks s s') : TaskInv s' q where
  custody := by
    rw [h.dispatched, h.acks, h.inboundCh]
    exact hinv.custody
  fresh := by
    rw [h.dispatched]
    exact hinv.fresh
  queued := by
    rw [h.dispatched, h.inboundCh]
    exact hinv.queued
  snapshot := by
    have hsnap := hinv.snapshot
    unfold SnapshotOk at hsnap ⊢
    rwa [h.dispatched, h.acks, h.inboundCh, h.atDeregister]

/-- `Run` takes the first task of `inboundCh`. -/
theorem TaskInv.take {s : World O} {q q' : Phase} {it : InboundTask} {rest : List InboundTask}
    (hinv : TaskInv s q) (hq : q.held = []) (hq' : q'.held = [it.ackFn])
    (hch : s.inboundCh = it :: rest) (hsnap : SnapshotOk { s with inboundCh := rest } q') :
    TaskInv { s with inboundCh := rest } q' where
  custody := by
    have hcustody := hinv.custody
    rw [hq, hch, List.map_cons] at hcustody
    rw [hq']
    exact hcustody.take
  fresh := hinv.fresh
  queued := by
    have hqueued := hinv.queued
    rw [hch] at hqueued
    exact fun it' hit' => hqueued (List.mem_cons_of_mem it hit')
  snapshot := hsnap

/-- `Run` acknowledges the task in its hands. -/
theorem TaskInv.ack {s : World O} {q q' : Phase} {ackFn : ℕ} {a : TaskAckEvent}
    (hinv : TaskInv s q) (hq : q.held = [ackFn]) (hq' : q'.held = [])
    (hsnap : SnapshotOk { s with acks := s.acks ++ [(ackFn, a)] } q') :
    TaskInv { s with acks := s.acks ++ [(ackFn, a)] } q' where
  custody := by
    have hcustody := hinv.custody
    rw [hq] at hcustody
    rw [hq', List.map_append]
    exact hcustody.finish
  fresh := hinv.fresh
  queued := hinv.queued
  snapshot := hsnap

/-- The worker deregisters with no task in its hands: what was dispatched is acknowledged or in
`inboundCh`. -/
theorem TaskInv.deregister {s : World O} (hinv : TaskInv s (.running [])) :
    TaskInv { s with registered := false, atDeregister := some ⟨s.dispatched, s.inboundCh⟩ }
      .deregistered where
  custody := hinv.custody
  fresh := hinv.fresh
  queued := hinv.queued
  snapshot := by
    refine ⟨⟨s.dispatched, s.inboundCh⟩, rfl, List.Subset.refl _, hinv.queued, List.Subset.refl _,
      fun it hit => ?_⟩
    rcases hinv.custody.mem_iff.mp (List.mem_map_of_mem hit) with hdone | hheld | hqueue
    · exact .inl hdone
    · cases hheld
    · -- identities are distinct, so it is the task itself that waits
      obtain ⟨it', hit', heq⟩ := List.mem_map.mp hqueue
      have hsame : it' = it :=
        List.inj_on_of_nodup_map hinv.custody.nodup (hinv.queued hit') hit heq
      exact .inr (hsame ▸ hit')

/-- `tryRecv` finds `inboundCh` empty: every task that was dispatched is acknowledged. -/
theorem TaskInv.drained {s : World O} {q : Phase} (hinv : TaskInv s q) (hq : q.held = [])
    (hch : s.inboundCh = []) (hsnap : ∃ snap, s.atDeregister = some snap ∧
      snap.dispatched ⊆ s.dispatched) : TaskInv s .drained where
  custody := by
    have hcustody := hinv.custody
    rwa [hq] at hcustody
  fresh := hinv.fresh
  queued := hinv.queued
  snapshot := by
    obtain ⟨snap, hsome, hsub⟩ := hsnap
    refine ⟨snap, hsome, fun it hit => ?_⟩
    have hplace := hinv.custody.mem_iff.mp (List.mem_map_of_mem (hsub hit))
    rw [hq, hch] at hplace
    rcases hplace with hdone | hnone | hnone
    · exact hdone
    · cases hnone
    · cases hnone

end Invariant

/-! ### Every call keeps the invariant -/

section Step

variable {O C : Type} {outside : C → O → (e : Call) → e.Ans → Option O} {ch : C} {s s' : World O}
  {q : Phase}

theorem taskInv_ack {ackFn : ℕ} {a : TaskAckEvent} (hinv : TaskInv s q)
    (hallow : taskProtocol.allows q (.ack ackFn a))
    (hexec : s.exec outside ch (.ack ackFn a) () = some s') :
    TaskInv s' (taskProtocol.next q (.ack ackFn a) ()) := by
  have hheld : q.held = [ackFn] := hallow
  cases hexec
  have hsnap := hinv.snapshot
  cases q with
  | running held => exact hinv.ack hheld rfl hsnap
  | draining held => exact hinv.ack hheld rfl hsnap
  | deregistered => cases hheld
  | drained => cases hheld

theorem taskInv_select {a : Selected} (hinv : TaskInv s q) (hallow : taskProtocol.allows q .select)
    (hexec : s.exec outside ch .select a = some s') :
    TaskInv s' (taskProtocol.next q .select a) := by
  obtain rfl : q = .running [] := hallow
  cases a with
  | ctxDone | reset =>
    obtain ⟨_, hs⟩ := Option.ite_none_right_eq_some.mp hexec
    cases hs
    exact hinv.of_sameTasks ⟨rfl, rfl, rfl, rfl⟩
  | task it =>
    obtain ⟨rest, hch, rfl⟩ := eq_of_receive hexec
    exact hinv.take rfl rfl hch hinv.snapshot
  | urc | keepalive | capacity | signal =>
    cases hexec
    exact hinv

theorem taskInv_tryRecv {a : Option InboundTask} (hinv : TaskInv s q)
    (hallow : taskProtocol.allows q .tryRecv) (hexec : s.exec outside ch .tryRecv a = some s') :
    TaskInv s' (taskProtocol.next q .tryRecv a) := by
  have hheld : q.held = [] := by
    rcases hallow with rfl | rfl <;> rfl
  have hsnap : ∃ snap, s.atDeregister = some snap ∧ snap.dispatched ⊆ s.dispatched := by
    have hsnap := hinv.snapshot
    rcases hallow with rfl | rfl
    · obtain ⟨snap, hsome, hsub, _⟩ := hsnap
      exact ⟨snap, hsome, hsub⟩
    · exact hsnap
  cases a with
  | none =>
    obtain ⟨hch, hs⟩ := Option.ite_none_right_eq_some.mp hexec
    cases hs
    exact hinv.drained hheld hch hsnap
  | some it =>
    obtain ⟨rest, hch, rfl⟩ := eq_of_receive hexec
    exact hinv.take hheld rfl hch hsnap

theorem taskInv_call {e : Call} {a : e.Ans} (hinv : TaskInv s q) (hallow : taskProtocol.allows q e)
    (hexec : s.exec outside ch e a = some s') : TaskInv s' (taskProtocol.next q e a) := by
  by_cases he : e.movesTasks = false
  · rw [(taskProtocol_stays e he).2 a]
    exact hinv.of_sameTasks ((effect_of_exec hexec).tasks he)
  · cases e with
    | ack ackFn ack => exact taskInv_ack hinv hallow hexec
    | select => exact taskInv_select hinv hallow hexec
    | tryRecv => exact taskInv_tryRecv hinv hallow hexec
    | deregister iccid =>
      obtain rfl : q = .running [] := hallow
      cases hexec
      exact hinv.deregister
    | _ => exact absurd rfl he

/-- A task that is sent goes to the end of `inboundCh`. -/
theorem taskInv_send {task : Task} (hinv : TaskInv s q) :
    TaskInv
      { s with
        lookups := s.lookups - 1
        inboundCh := s.inboundCh ++ [⟨task, s.dispatched.length⟩]
        dispatched := s.dispatched ++ [⟨task, s.dispatched.length⟩] } q where
  custody := by
    rw [List.map_append, List.map_append]
    refine hinv.custody.issue fun hmem => ?_
    obtain ⟨it, hit, heq⟩ := List.mem_map.mp hmem
    exact absurd heq (Nat.ne_of_lt (hinv.fresh it hit))
  fresh := by
    intro it hit
    rw [List.length_append, List.length_singleton]
    rcases List.mem_append.mp hit with hit | hit
    · exact Nat.lt_succ_of_lt (hinv.fresh it hit)
    · rw [List.mem_singleton.mp hit]
      exact Nat.lt_succ_self _
  queued := by
    intro it hit
    rcases List.mem_append.mp hit with hit | hit
    · exact List.mem_append_left _ (hinv.queued hit)
    · exact List.mem_append_right _ hit
  snapshot := by
    have hsnap := hinv.snapshot
    cases q with
    | running held => exact hsnap
    | deregistered =>
      obtain ⟨snap, hsome, hsub, hqueue, hch, hplace⟩ := hsnap
      exact ⟨snap, hsome, fun _ h => List.mem_append_left _ (hsub h), hqueue,
        fun _ h => List.mem_append_left _ (hch h), hplace⟩
    | draining held =>
      obtain ⟨snap, hsome, hsub⟩ := hsnap
      exact ⟨snap, hsome, fun _ h => List.mem_append_left _ (hsub h)⟩
    | drained => exact hsnap

theorem taskInv_outer {queueSize : ℕ} {v : Outer} (hinv : TaskInv s q)
    (hstep : v.step queueSize s = some s') : TaskInv s' q := by
  cases v with
  | lookup =>
    obtain ⟨_, hs⟩ := Option.ite_none_right_eq_some.mp hstep
    cases hs
    exact hinv.of_sameTasks ⟨rfl, rfl, rfl, rfl⟩
  | send task =>
    unfold Outer.step at hstep
    dsimp only at hstep
    split_ifs at hstep with hlookups hroom
    · cases hstep
      exact taskInv_send hinv
    · cases hstep
      exact hinv.of_sameTasks ⟨rfl, rfl, rfl, rfl⟩
  | requestReset | cancel | tick =>
    cases hstep
    exact hinv.of_sameTasks ⟨rfl, rfl, rfl, rfl⟩

end Step

/-! ### Whole runs -/

variable {O C : Type} (h : Host) (w : Worker)
  (outside : C → O → (e : Call) → e.Ans → Option O)

/-- The proof outline of a worker: its tasks. -/
def taskOutline : System.Outline (workerSystem h w outside) (protocols taskProtocol) :=
  ((taskRun h w).outline outside).also (fun s q => TaskInv s (q .worker))
    (fun t ch s q e a s' _ hinv hallow hexec => by
      cases t with
      | worker =>
        rw [Function.update_self]
        exact taskInv_call hinv hallow hexec
      | watchdog =>
        rw [Function.update_of_ne (by decide)]
        exact hinv.of_sameTasks ((effect_of_exec hexec).tasks (movesTasks_of_ofWatchdog e hallow)))
    (fun v s q s' _ hinv hstep => taskInv_outer hinv hstep) fun _ _ => rfl

theorem taskInv_new (o : O) : TaskInv (World.new o) (.running []) where
  custody := Custody.empty
  fresh := nofun
  queued := nofun
  snapshot := rfl

/-- The invariant of the tasks holds along every run of a new worker, and when `Run` has returned
it is where `finalPhase` says. -/
theorem taskInv_reach {o : O} {c : System.Config Thread (World O) Call Call.Ans Label Exit}
    (hreach : (workerSystem h w outside).Reach
      ((workerSystem h w outside).start (World.new o) entry) c) {st : State}
    (hstop : c.threads .worker = .stopped (.run st)) :
    ∃ q, TaskInv c.state q ∧ finalPhase st q := by
  have hstart : (taskOutline h w outside).Holds
      ((workerSystem h w outside).start (World.new o) entry) :=
    (taskOutline h w outside).holds_start (q := fun _ => .running []) ⟨trivial, taskInv_new o⟩
      ((taskRun h w).head_entry outside rfl)
  obtain ⟨q, ⟨-, hinv⟩, hfollows⟩ := (taskOutline h w outside).reach hstart hreach
  have hworker := hfollows .worker
  rw [hstop] at hworker
  exact ⟨q .worker, hinv, hworker⟩

/-- **When the end of a worker drops no task.**  Take any run of a worker that registered and whose
`Run` has returned.  Every task that was dispatched to it before it deregistered (executed, being
executed, or still in `inboundCh`) has been acknowledged exactly once iff `Run` returned because
its context was cancelled, or `inboundCh` was empty when it deregistered. -/
theorem acked_iff {o : O} {c : System.Config Thread (World O) Call Call.Ans Label Exit}
    (hreach : (workerSystem h w outside).Reach
      ((workerSystem h w outside).start (World.new o) entry) c) {st : State}
    (hstop : c.threads .worker = .stopped (.run st)) {snap : Snapshot}
    (hsnap : c.state.atDeregister = some snap) :
    (∀ it ∈ snap.dispatched, (c.state.acks.map Prod.fst).count it.ackFn = 1) ↔
      st = .active ∨ snap.queue = [] := by
  obtain ⟨q, hinv, hfinal⟩ := taskInv_reach h w outside hreach hstop
  have hphase := hinv.snapshot
  simp only [hinv.custody.count_eq_one_iff]
  unfold finalPhase at hfinal
  by_cases hst : st = .active
  · -- `inboundCh` was drained
    obtain rfl : q = .drained := by simpa only [hst, if_pos] using hfinal
    obtain ⟨snap', hsome, hdone⟩ := hphase
    obtain rfl : snap' = snap := Option.some.inj (hsome.symm.trans hsnap)
    exact ⟨fun _ => .inl hst, fun _ => hdone⟩
  · rcases (by simpa only [hst, if_neg, not_false_eq_true] using hfinal :
      q = .running [] ∨ q = .deregistered) with rfl | rfl
    · -- the worker has not deregistered
      cases hsnap.symm.trans hphase
    · obtain ⟨snap', hsome, _, hsub, hch, hplace⟩ := hphase
      obtain rfl : snap' = snap := Option.some.inj (hsome.symm.trans hsnap)
      constructor
      · -- a task that was left in `inboundCh` is still there
        intro hdone
        refine .inr (List.eq_nil_iff_forall_not_mem.mpr fun it hit => ?_)
        exact hinv.custody.not_mem_done (List.mem_map_of_mem (hch hit)) (hdone it (hsub hit))
      · rintro (hactive | hnil) it hit
        · exact absurd hactive hst
        · rcases hplace it hit with hdone | hqueue
          · exact hdone
          · rw [hnil] at hqueue
            cases hqueue

/-! ### Two ends of a worker with a task in its channel -/

/-- A worker next to a modem, buffer and limiter that can give any answer. -/
def plainSystem : System Thread (World Unit) Call Call.Ans Label Exit Unit Outer :=
  workerSystem .plain .plain fun _ _ _ _ => some ()

/-- The answers in a run: the modem knows its ICCID and fails to be reset. -/
def plainAnswer (selected : Selected) (received : Option InboundTask) (st : State) :
    (e : Call) → e.Ans
  | .execute .ccid => .ok [Go.lit "+CCID: 89490200000123456789"]
  | .execute .hardReset => .error (.timeout (At.Cmd.text .hardReset))
  | .loadState => st
  | .select => selected
  | .tryRecv => received
  | e => e.plainAns

/-- A number of calls of `Run`, with these answers. -/
def plainCalls (n : ℕ) (selected : Selected) (received : Option InboundTask) (st : State) :
    List (System.Move Thread Call Call.Ans Unit Outer) :=
  List.replicate n (.call .worker () (plainAnswer selected received st))

/-- The init sequence succeeds, and a task is dispatched. -/
def plainStart : List (System.Move Thread Call Call.Ans Unit Outer) :=
  plainCalls 16 .reset none .active ++
    [.jump .worker, .env .lookup, .env (.send ⟨[], .checkSignal, []⟩)]

/-- The task of `plainStart`. -/
def plainTask : InboundTask := ⟨⟨[], .checkSignal, []⟩, 0⟩

/-- The context is cancelled, and the task is drained. -/
theorem acked_iff_shutdown :
    ∃ c : System.Config Thread (World Unit) Call Call.Ans Label Exit,
      plainSystem.Reach (plainSystem.start (World.new ()) entry) c ∧
      c.threads .worker = .stopped (.run .active) ∧
      c.state.atDeregister = some ⟨[plainTask], [plainTask]⟩ ∧
      ∀ it ∈ [plainTask], (c.state.acks.map Prod.fst).count it.ackFn = 1 := by
  have hplay : ∃ c, plainSystem.play (plainSystem.start (World.new ()) entry)
      (plainStart ++ .env .cancel :: plainCalls 2 .ctxDone none .active ++ .jump .worker ::
        plainCalls 3 .ctxDone (some plainTask) .active ++ .jump .worker ::
        plainCalls 3 .ctxDone none .active ++ [.jump .worker]) = some c ∧
      c.threads .worker = .stopped (.run .active) ∧
      c.state.atDeregister = some ⟨[plainTask], [plainTask]⟩ := ⟨_, rfl, rfl, rfl⟩
  obtain ⟨c, hplay, hstop, hsnap⟩ := hplay
  have hreach := System.reach_of_play hplay
  exact ⟨c, hreach, hstop, hsnap, (acked_iff .plain .plain _ hreach hstop hsnap).mpr (.inl rfl)⟩

/-- A reset is requested and fails: `Run` ends in `FAILED`, and the task is never acknowledged. -/
theorem not_acked_hard_reset_failed :
    ∃ c : System.Config Thread (World Unit) Call Call.Ans Label Exit,
      plainSystem.Reach (plainSystem.start (World.new ()) entry) c ∧
      c.threads .worker = .stopped (.run .failed) ∧
      c.state.atDeregister = some ⟨[plainTask], [plainTask]⟩ ∧ c.state.acks = [] := by
  have hplay : ∃ c, plainSystem.play (plainSystem.start (World.new ()) entry)
      (plainStart ++ .env .requestReset :: plainCalls 12 .reset none .failed ++
        [.jump .worker]) = some c ∧
      c.threads .worker = .stopped (.run .failed) ∧
      c.state.atDeregister = some ⟨[plainTask], [plainTask]⟩ ∧ c.state.acks = [] :=
    ⟨_, rfl, rfl, rfl, rfl⟩
  obtain ⟨c, hplay, hend⟩ := hplay
  exact ⟨c, System.reach_of_play hplay, hend⟩

end SmsGate.Modem
