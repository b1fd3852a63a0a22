import SmsGate.Modem.Equiv.Supervised
import SmsGate.Modem.Equiv.Watchdog
import SmsGate.Modem.Supervisors
import Mathlib.Algebra.BigOperators.Group.Finset.Piecewise
import Mathlib.Data.Fintype.Basic

/-!
# What `ActiveConnections` counts

`Run` increments the gauge before its main loop.  It decrements it where the context is done, but
not where the loop is left because the state is `FAILED` or `BANNED`: then the worker is gone, and
the gauge keeps counting it.

* `gaugeProtocol`: `Run` is inside its main loop from the increment on, until the decrement or its
  return, and it returns from inside only in a terminal state;
* `activeConnections_eq`: the gauge is the number of workers inside their main loops and of those
  that have left them in a terminal state;
* `activeConnections_iff`: the gauge counts the workers inside their main loops if and only if no
  worker has left its loop in a terminal state.
-/

namespace SmsGate.Modem

variable {ι O C : Type}

/-! ### Inside the main loop -/

/-- Where `Run` is, and the state that it has loaded last inside its main loop. -/
inductive LoopPhase where
  | outside
  | inside (loaded : Option State)
  deriving DecidableEq

/-- `Run` is inside its main loop. -/
def LoopPhase.isInside : LoopPhase → Bool
  | .outside => false
  | .inside _ => true

/-- The state that was loaded last ends the main loop. -/
def LoopPhase.isTerminal : LoopPhase → Bool
  | .inside (some st) => st.terminal
  | _ => false

/-- The gauge is incremented on entry, and decremented or not on exit.  The watchdog is closed when
`Run` returns. -/
def gaugeProtocol : Protocol Call Call.Ans LoopPhase where
  allows q e :=
    match e with
    | .incConnections => q = .outside
    | .decConnections => q.isInside
    | .closeWatchdog => q.isInside → q.isTerminal
    | _ => True
  next q e a :=
    match e, a with
    | .incConnections, _ => .inside none
    | .decConnections, _ | .closeWatchdog, _ => .outside
    | .loadState, (st : State) => if q.isInside then .inside (some st) else .outside
    | _, _ => q

/-- The calls that lead in or out, and those that load the state. -/
def Call.gauged : Call → Bool
  | .incConnections | .decConnections | .closeWatchdog | .loadState => true
  | _ => false

theorem gaugeProtocol_stays {q : LoopPhase} (e : Call) (he : e.gauged = false) :
    gaugeProtocol.allows q e ∧ ∀ a, gaugeProtocol.next q e a = q := by
  cases e with
  | incConnections | decConnections | closeWatchdog | loadState => cases he
  | _ => exact ⟨trivial, fun _ => rfl⟩

/-- A program that neither leads in nor out. -/
abbrev Ungauged {α : Type} (p : Work α) : Prop := p.Calls fun e => e.gauged = false

theorem Ungauged.bind_obeys {α β : Type} {p : Work α} {f : α → Work β} (hp : Ungauged p)
    {q : LoopPhase} {Φ : β → LoopPhase → Prop} (hf : ∀ a, (f a).Obeys gaugeProtocol q Φ) :
    (p >>= f).Obeys gaugeProtocol q Φ :=
  Prog.Calls.bind_obeys hp gaugeProtocol_stays hf

theorem ungauged_ask {e : Call} (he : e.gauged = false) : Ungauged (ask e) := calls_ask he

theorem gauged_of_minor (e : Call) (he : e.minor = true) : e.gauged = false := by
  cases e with
  | incConnections | decConnections | closeWatchdog | loadState => cases he
  | _ => rfl

/-- Where the blocks of `Run` start. -/
def gaugeHead : Label → LoopPhase → Prop
  | .init, q => q = .outside
  | .main _, q | .drain, q => q.isInside ∧ q.isTerminal = false
  | .watchdog, _ => False

/-- `Run` returns from outside of its main loop. -/
def gaugeFinal (_ : State) (q : LoopPhase) : Prop := q = .outside

theorem init_obeys_gauge (h : Host) (w : Worker) :
    (init h w).Obeys gaugeProtocol .outside (RunEnds gaugeHead gaugeFinal) := by
  refine (ungauged_ask rfl).bind_obeys fun opened => ?_
  split_ifs
  · have hquiet : Ungauged (runInitSequence execute (fun ms => ask (.sleep ms)) h.caseTable
        w.expectedICCID) := calls_runInitSequence gauged_of_minor _ _ rfl rfl
    refine hquiet.bind_obeys fun res => ?_
    cases res with
    | error e => exact (ungauged_ask rfl).bind_obeys fun _ => rfl
    | ok id =>
      refine (ungauged_ask rfl).bind_obeys fun _ => (ungauged_ask rfl).bind_obeys fun _ =>
        (ungauged_ask rfl).bind_obeys fun _ => ?_
      refine Prog.perform_bind_obeys rfl fun _ => ?_
      exact (ungauged_ask rfl).bind_obeys fun _ => (ungauged_ask rfl).bind_obeys fun _ =>
        (ungauged_ask rfl).bind_obeys fun _ => ⟨rfl, rfl⟩
  · exact (ungauged_ask rfl).bind_obeys fun _ => rfl

/-- A handler loads the state at most. -/
theorem handle_obeys_gauge (h : Host) (w : Worker) (id : Identity) (selected : Selected)
    {q : LoopPhase} (hq : q.isInside) :
    (handle h w id selected).Obeys gaugeProtocol q fun _ q => q.isInside := by
  refine (calls_handle h w id selected).obeys_of_keeps (I := fun q : LoopPhase => q.isInside)
    (fun q e hq he => ?_) hq
  cases e with
  | incConnections | decConnections | closeWatchdog => cases he.ofRun
  | loadState =>
    refine ⟨trivial, fun (st : State) => ?_⟩
    change LoopPhase.isInside (if q.isInside then .inside (some st) else .outside)
    rw [if_pos hq]
    rfl
  | _ => exact ⟨trivial, fun _ => hq⟩

theorem mainLoop_obeys_gauge (h : Host) (w : Worker) (id : Identity) {q : LoopPhase}
    (hq : q.isInside ∧ q.isTerminal = false) :
    (mainLoop h w id).Obeys gaugeProtocol q (RunEnds gaugeHead gaugeFinal) := by
  refine (ungauged_ask rfl).bind_obeys fun (selected : Selected) => ?_
  by_cases hctx : selected = .ctxDone
  · rw [if_pos hctx]
    exact (ungauged_ask rfl).bind_obeys fun _ => hq
  · rw [if_neg hctx]
    refine (handle_obeys_gauge h w id selected hq.1).bind fun _ q hq => ?_
    refine (ungauged_ask rfl).bind_obeys fun _ => (ungauged_ask rfl).bind_obeys fun _ => ?_
    refine Prog.perform_bind_obeys trivial fun (st : State) => ?_
    have hnext : gaugeProtocol.next q .loadState st = .inside (some st) := if_pos hq
    rw [hnext]
    by_cases hst : st = .failed ∨ st = .banned
    · rw [if_pos hst]
      refine (ungauged_ask rfl).bind_obeys fun _ => ?_
      exact Prog.perform_bind_obeys (fun _ => terminal_iff.mpr hst) fun _ => rfl
    · rw [if_neg hst]
      refine ⟨rfl, ?_⟩
      rw [Bool.eq_false_iff]
      exact fun h => hst (terminal_iff.mp h)

theorem drainInboundCh_obeys_gauge {q : LoopPhase} (hq : q.isInside ∧ q.isTerminal = false) :
    drainInboundCh.Obeys gaugeProtocol q (RunEnds gaugeHead gaugeFinal) := by
  refine (ungauged_ask rfl).bind_obeys fun (received : Option InboundTask) => ?_
  cases received with
  | some it =>
    have hquiet : Ungauged (newEnvelopeFrom .taskAck it.task.messageID) :=
      calls_newEnvelopeFrom gauged_of_minor _ _
    exact hquiet.bind_obeys fun _ => (ungauged_ask rfl).bind_obeys fun _ => hq
  | none =>
    refine Prog.perform_bind_obeys hq.1 fun _ => ?_
    exact Prog.perform_bind_obeys nofun fun _ => rfl

/-- `Run` keeps to `gaugeProtocol`. -/
def gaugeRun (h : Host) (w : Worker) : RunProof h w gaugeProtocol where
  head := gaugeHead
  final := gaugeFinal
  not_watchdog _ hq := hq
  init_obeys q hq := by
    obtain rfl : q = .outside := hq
    exact init_obeys_gauge h w
  main_obeys id _ hq := mainLoop_obeys_gauge h w id hq
  drain_obeys _ hq := drainInboundCh_obeys_gauge hq

/-! ### What a history tells -/

/-- What has happened in a run of the modems, the newest first. -/
abbrev SupervisorsHistory (ι O : Type) :=
  List (System.Occurrence (ι × SupervisorThread) (SupervisorsWorld ι O) SupervisorCall
    SupervisorCall.Ans (SupervisorsOuter ι))

/-- The configurations of the modems when they are recorded. -/
abbrev SupervisorsConfig (ι O : Type) :=
  System.Config (ι × SupervisorThread)
    (System.Recorded (ι × SupervisorThread) (SupervisorsWorld ι O) SupervisorCall
      SupervisorCall.Ans (SupervisorsOuter ι))
    SupervisorCall SupervisorCall.Ans SupervisorLabel Unit

variable [DecidableEq ι]

/-- Where the worker of a modem is after a history. -/
def loopPhase (past : SupervisorsHistory ι O) (i : ι) : LoopPhase :=
  System.follow (supervisedProtocol gaugeProtocol id) (i, .supervisor) .outside past

/-- `Run` returns from inside its main loop, in a terminal state. -/
def SupervisorCall.leavesTerminal (q : LoopPhase) : SupervisorCall → Bool
  | .work .closeWatchdog => q.isTerminal
  | _ => false

/-- A worker leaves its main loop in a terminal state. -/
def leavesTerminal (past : SupervisorsHistory ι O) :
    System.Occurrence (ι × SupervisorThread) (SupervisorsWorld ι O) SupervisorCall
      SupervisorCall.Ans (SupervisorsOuter ι) → Bool
  | .call (i, .supervisor) e _ _ => e.leavesTerminal (loopPhase past i)
  | _ => false

/-- How many workers have left their main loops in a terminal state. -/
def terminalExits : SupervisorsHistory ι O → ℕ
  | [] => 0
  | x :: past => terminalExits past + (leavesTerminal past x).toNat

/-- How many workers are inside their main loops. -/
def insideCount [Fintype ι] (past : SupervisorsHistory ι O) : ℕ :=
  (Finset.univ.filter fun i => (loopPhase past i).isInside).card

/-! ### One step -/

section Step

variable {past : SupervisorsHistory ι O} {s : SupervisorsWorld ι O} {i : ι}

theorem loopPhase_supervisor {e : SupervisorCall} {a : e.Ans} :
    loopPhase (.call (i, .supervisor) e a s :: past) = Function.update (loopPhase past) i
      ((supervisedProtocol gaugeProtocol id).next (loopPhase past i) e a) := by
  funext j
  by_cases hj : j = i
  · subst hj
    rw [Function.update_self]
    exact System.follow_call_self
  · rw [Function.update_of_ne hj]
    exact System.follow_call_of_ne fun heq => hj (Prod.mk.inj heq).1.symm

theorem loopPhase_watchdog {n : ℕ} {e : SupervisorCall} {a : e.Ans} :
    loopPhase (.call (i, .watchdog n) e a s :: past) = loopPhase past := by
  funext j
  exact System.follow_call_of_ne fun heq => by cases heq

/-- A call moves the gauge as it moves `Run` in or out, except where `Run` leaves in a terminal
state. -/
theorem isInside_next {q : LoopPhase} {e : SupervisorCall} (a : e.Ans)
    (hallow : (supervisedProtocol gaugeProtocol id).allows q e) :
    ((((supervisedProtocol gaugeProtocol id).next q e a).isInside.toNat : ℕ) : ℤ) +
      (e.leavesTerminal q).toNat = q.isInside.toNat + e.connections := by
  cases e with
  | work e =>
    cases e with
    | incConnections =>
      obtain rfl : q = .outside := hallow
      rfl
    | decConnections =>
      cases q with
      | outside => cases hallow
      | inside loaded => rfl
    | closeWatchdog =>
      cases q with
      | outside => rfl
      | inside loaded =>
        have hterminal : (LoopPhase.inside loaded).isTerminal = true := hallow rfl
        change (0 : ℤ) + ((LoopPhase.inside loaded).isTerminal.toNat : ℕ) = 1 + 0
        rw [hterminal]
        rfl
    | loadState =>
      cases q with
      | outside => rfl
      | inside loaded => rfl
    | _ => rfl
  | newWorker | ctxErr | backOff => rfl

variable [Fintype ι]

/-- The phase of one modem changes. -/
theorem card_isInside_update (q : ι → LoopPhase) (i : ι) (p : LoopPhase) :
    (Finset.univ.filter fun j => (Function.update q i p j).isInside).card + (q i).isInside.toNat =
      (Finset.univ.filter fun j => (q j).isInside).card + p.isInside.toNat := by
  have hsum : ∀ f : ι → LoopPhase, (Finset.univ.filter fun j => (f j).isInside).card =
      (f i).isInside.toNat + ∑ j ∈ Finset.univ.erase i, (f j).isInside.toNat := by
    intro f
    rw [Finset.add_sum_erase _ (fun j => (f j).isInside.toNat) (Finset.mem_univ i),
      Finset.card_filter]
    refine Finset.sum_congr rfl fun j _ => ?_
    cases (f j).isInside with
    | false => rfl
    | true => rfl
  have hrest : ∑ j ∈ Finset.univ.erase i, (Function.update q i p j).isInside.toNat =
      ∑ j ∈ Finset.univ.erase i, (q j).isInside.toNat :=
    Finset.sum_congr rfl fun j hj => by rw [Function.update_of_ne (Finset.ne_of_mem_erase hj)]
  rw [hsum, hsum, hrest, Function.update_self]
  omega

/-- What is counted moves with the gauge. -/
theorem counted_call {e : SupervisorCall} {a : e.Ans}
    (hallow : (supervisedProtocol gaugeProtocol id).allows (loopPhase past i) e) :
    (insideCount (.call (i, .supervisor) e a s :: past) : ℤ) +
        terminalExits (.call (i, .supervisor) e a s :: past) =
      insideCount past + terminalExits past + e.connections := by
  have hcard := card_isInside_update (loopPhase past) i
    ((supervisedProtocol gaugeProtocol id).next (loopPhase past i) e a)
  rw [← loopPhase_supervisor (s := s)] at hcard
  have hstep := isInside_next a hallow
  change (insideCount (.call (i, .supervisor) e a s :: past) : ℤ) +
    ((terminalExits past + (e.leavesTerminal (loopPhase past i)).toNat : ℕ) : ℤ) = _
  unfold insideCount
  omega

theorem connections_of_watchdog {e : SupervisorCall} (he : e.ofWatchdog = true) :
    e.connections = 0 := by
  cases e with
  | work e =>
    cases e with
    | incConnections | decConnections => cases he
    | _ => rfl
  | newWorker | ctxErr | backOff => rfl

end Step

theorem activeConnections_of_outer {w : ι → Worker} {s s' : SupervisorsWorld ι O}
    {v : SupervisorsOuter ι} (hstep : v.step w s = some s') :
    s'.activeConnections = s.activeConnections := by
  cases v with
  | lookup | send =>
    obtain ⟨s₁, -, rfl⟩ := Option.map_eq_some_iff.mp hstep
    rfl
  | requestReset | cancel | tick =>
    cases hstep
    rfl

/-! ### Whole runs -/

variable [Fintype ι] (h : Host) (w : ι → Worker)
  (outside : ι → C → O → (e : Call) → e.Ans → Option O)

/-- The gauge counts the workers that are inside, and those that have left in a terminal state. -/
structure GaugeInv (s : SupervisorsWorld ι O) (past : SupervisorsHistory ι O)
    (q : ι × SupervisorThread → LoopPhase) : Prop where
  phase : ∀ i, q (i, .supervisor) = loopPhase past i
  gauge : s.activeConnections = insideCount past + terminalExits past

theorem gaugeInv_call {t : ι × SupervisorThread} {ch : C} {s s' : SupervisorsWorld ι O}
    {past : SupervisorsHistory ι O} {q : ι × SupervisorThread → LoopPhase} {e : SupervisorCall}
    {a : e.Ans} (hinv : GaugeInv s past q)
    (hallow : (supervisedProtocols gaugeProtocol id t.2).allows (q t) e)
    (hexec : s.exec outside t ch e a = some s') :
    GaugeInv s' (.call t e a s :: past)
      (Function.update q t ((supervisedProtocols gaugeProtocol id t.2).next (q t) e a)) := by
  obtain ⟨s₁, -, rfl⟩ := Option.map_eq_some_iff.mp hexec
  obtain ⟨i, t⟩ := t
  cases t with
  | supervisor =>
    have hphase := hinv.phase i
    refine ⟨fun j => ?_, ?_⟩
    · rw [loopPhase_supervisor]
      by_cases hj : j = i
      · subst hj
        rw [Function.update_self, Function.update_self, hphase]
        rfl
      · rw [Function.update_of_ne hj, Function.update_of_ne fun heq => hj (Prod.mk.inj heq).1]
        exact hinv.phase j
    · rw [hphase] at hallow
      rw [counted_call hallow, ← hinv.gauge]
  | watchdog n =>
    refine ⟨fun j => ?_, ?_⟩
    · rw [loopPhase_watchdog, Function.update_of_ne fun heq => by cases heq]
      exact hinv.phase j
    · change s.activeConnections + e.connections = _
      rw [connections_of_watchdog hallow, add_zero, hinv.gauge]
      unfold insideCount
      rw [loopPhase_watchdog]
      rfl

/-- The proof outline. -/
def gaugeOutline : System.Outline (supervisorsSystem h w outside).recorded
    fun t => supervisedProtocols gaugeProtocol id t.2 where
  head t := (gaugeRun h (w t.1)).supervisedHead id t.2
  final _ _ _ := True
  inv s q := GaugeInv s.state s.history q
  block_obeys t l q hq :=
    (gaugeRun h (w t.1)).supervisorBlock_obeys id (fun _ _ hq => hq) t.2 l q hq
  call_inv t ch s q e a s' hinv hallow hexec := by
    obtain ⟨s₁, hcall, rfl⟩ := System.recorded_exec_iff.mp hexec
    exact gaugeInv_call outside hinv hallow hcall
  env_inv v s q s' hinv hstep := by
    obtain ⟨s₁, houter, rfl⟩ := System.recorded_env_iff.mp hstep
    exact ⟨hinv.phase, (activeConnections_of_outer houter).trans hinv.gauge⟩
  crash_inv t s q l s' hinv hcrash := nomatch hcrash

/-- The gauge in every run. -/
theorem activeConnections_eq {o : ι → O} {c : SupervisorsConfig ι O}
    (hreach : (supervisorsSystem h w outside).recorded.Reach
      ((supervisorsSystem h w outside).recorded.start ⟨.new o, []⟩ supervisorsEntry) c) :
    c.state.state.activeConnections =
      insideCount c.state.history + terminalExits c.state.history := by
  have hnone : insideCount ([] : SupervisorsHistory ι O) = 0 :=
    Finset.card_eq_zero.mpr (Finset.filter_eq_empty_iff.mpr fun _ _ => nofun)
  have hnew : GaugeInv (SupervisorsWorld.new o) [] fun _ => .outside := by
    refine ⟨fun _ => rfl, ?_⟩
    rw [hnone]
    rfl
  have hstart : (gaugeOutline h w outside).Holds
      ((supervisorsSystem h w outside).recorded.start ⟨.new o, []⟩ supervisorsEntry) := by
    refine (gaugeOutline h w outside).holds_start (q := fun _ => .outside) hnew fun t => ?_
    obtain ⟨i, t⟩ := t
    cases t with
    | supervisor => exact rfl
    | watchdog n => exact rfl
  obtain ⟨q, hinv, -⟩ := (gaugeOutline h w outside).reach hstart hreach
  exact hinv.gauge

/-- **What `ActiveConnections` counts.**  Take any run of any number of supervised modems, with
their workers starting, failing, being banned, restarting and shutting down in any order.  The gauge
is the number of workers that are inside their main loops if and only if no worker has so far left
its main loop in `FAILED` or `BANNED`. -/
theorem activeConnections_iff {o : ι → O} {c : SupervisorsConfig ι O}
    (hreach : (supervisorsSystem h w outside).recorded.Reach
      ((supervisorsSystem h w outside).recorded.start ⟨.new o, []⟩ supervisorsEntry) c) :
    c.state.state.activeConnections = insideCount c.state.history ↔
      terminalExits c.state.history = 0 := by
  rw [activeConnections_eq h w outside hreach]
  omega

/-! ### Two modems -/

/-- Two supervised modems. -/
abbrev twoModems :=
  (supervisorsSystem .plain (fun _ : Fin 2 => .plain) fun _ (_ _ : Unit) _ _ => some ()).recorded

/-- The answers in a run. -/
def gaugeAnswer (selected : Selected) (st : State) : (e : SupervisorCall) → e.Ans
  | .work e => plainAnswer selected none st e
  | .newWorker => ()
  | .ctxErr => false
  | .backOff _ => true

/-- A number of calls of a supervisor. -/
def gaugeCalls (i : Fin 2) (n : ℕ) (selected : Selected) (st : State) :
    List (System.Move (Fin 2 × SupervisorThread) SupervisorCall SupervisorCall.Ans Unit
      (SupervisorsOuter (Fin 2))) :=
  List.replicate n (.call (i, .supervisor) () (gaugeAnswer selected st))

/-- A worker enters its main loop. -/
def gaugeStart (i : Fin 2) :
    List (System.Move (Fin 2 × SupervisorThread) SupervisorCall SupervisorCall.Ans Unit
      (SupervisorsOuter (Fin 2))) :=
  .jump (i, .supervisor) :: gaugeCalls i 16 .reset .active ++ [.jump (i, .supervisor)]

/-- The gauge and what it should count, at the end of a run. -/
def gaugeRunOf (moves : List (System.Move (Fin 2 × SupervisorThread) SupervisorCall
    SupervisorCall.Ans Unit (SupervisorsOuter (Fin 2)))) : Option (ℤ × ℕ × ℕ) :=
  (twoModems.play (twoModems.start ⟨.new fun _ => (), []⟩ supervisorsEntry) moves).map fun c =>
    (c.state.state.activeConnections, insideCount c.state.history, terminalExits c.state.history)

/-- Both workers start, and the context is cancelled: one has left its main loop. -/
theorem activeConnections_iff_shutdown :
    ∃ c, twoModems.Reach (twoModems.start ⟨.new fun _ => (), []⟩ supervisorsEntry) c ∧
      insideCount c.state.history = 1 ∧ c.state.state.activeConnections = 1 := by
  have hrun : gaugeRunOf (gaugeStart 0 ++ gaugeStart 1 ++ .env .cancel ::
      gaugeCalls 0 2 .ctxDone .active ++ .jump (0, .supervisor) ::
        gaugeCalls 0 3 .ctxDone .active) = some (1, 1, 0) := rfl
  obtain ⟨c, hplay, hres⟩ := Option.map_eq_some_iff.mp hrun
  obtain ⟨-, hres⟩ := Prod.mk.inj hres
  obtain ⟨hinside, hexits⟩ := Prod.mk.inj hres
  have hreach := System.reach_of_play hplay
  have hgauge := (activeConnections_iff .plain (fun _ => .plain) _ hreach).mpr hexits
  exact ⟨c, hreach, hinside, by rw [hgauge, hinside]; rfl⟩

/-- A worker fails, and another one takes its place: the gauge counts both. -/
theorem not_activeConnections_restart :
    ∃ c, twoModems.Reach (twoModems.start ⟨.new fun _ => (), []⟩ supervisorsEntry) c ∧
      c.state.state.activeConnections = 2 ∧ insideCount c.state.history = 1 := by
  have hrun : gaugeRunOf (gaugeStart 0 ++ .env (.requestReset 0) ::
      gaugeCalls 0 12 .reset .failed ++ .jump (0, .supervisor) :: gaugeCalls 0 2 .reset .failed ++
        .jump (0, .supervisor) :: gaugeCalls 0 1 .reset .failed ++ gaugeStart 0) =
      some (2, 1, 1) := rfl
  obtain ⟨c, hplay, hres⟩ := Option.map_eq_some_iff.mp hrun
  obtain ⟨hgauge, hres⟩ := Prod.mk.inj hres
  exact ⟨c, System.reach_of_play hplay, hgauge, (Prod.mk.inj hres).1⟩

end SmsGate.Modem
