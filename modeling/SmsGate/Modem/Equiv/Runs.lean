import SmsGate.Modem.Equiv.Footprint
import SmsGate.Modem.System
import SmsGate.Prog.History

/-!
# Proofs about the recorded runs of a worker

The two goroutines of a worker take different parts in every proof: what `Run` does is followed by a
protocol, and of the watchdog it is enough to know which calls it makes.  A `WorkerProof` has what
is to be shown for a protocol and an invariant, block by block and call by call;
`WorkerProof.reach` is what it gives for every run.
-/

namespace SmsGate.Modem

/-- What has happened in a run of a worker, the newest first. -/
abbrev History (O : Type) := List (System.Occurrence Thread (World O) Call Call.Ans Outer)

/-- The configurations of a worker that is recorded. -/
abbrev RecordedConfig (O : Type) :=
  System.Config Thread (System.Recorded Thread (World O) Call Call.Ans Outer) Call Call.Ans Label
    Exit

/-! ### What a step changes -/

/-- The state that a call leaves. -/
def Call.stateAfter (st : State) : Call → State
  | .storeState st' => st'
  | _ => st

/-- Whether the registry has the worker after a call. -/
def Call.registeredAfter (registered : Bool) : Call → Bool
  | .register _ => true
  | .deregister _ => false
  | _ => registered

/-- The signal strength that a call leaves. -/
def Call.signalAfter (rssi : ℤ) : Call → ℤ
  | .storeSignalRSSI rssi' => rssi'
  | _ => rssi

/-- The calls that go to what lies outside. -/
def Call.delegated : Call → Bool
  | .openPort | .execute _ | .executeSend _ _ | .insert _ | .allow _ | .newUUID | .sleep _
  | .registerLimiter _ => true
  | _ => false

/-- The calls that take a task, acknowledge one, or deregister the worker. -/
def Call.movesTasks : Call → Bool
  | .ack _ _ | .select | .tryRecv | .deregister _ => true
  | _ => false

section Effect

variable {O C : Type} {outside : C → O → (e : Call) → e.Ans → Option O} {ch : C} {s s' : World O}

/-- The parts of two worlds that tell where tasks are agree. -/
structure SameTasks (s s' : World O) : Prop where
  dispatched : s'.dispatched = s.dispatched
  inboundCh : s'.inboundCh = s.inboundCh
  acks : s'.acks = s.acks
  atDeregister : s'.atDeregister = s.atDeregister

theorem SameTasks.refl (s : World O) : SameTasks s s := ⟨rfl, rfl, rfl, rfl⟩

/-- What a call does to the world; no call moves the clock or cancels the context. -/
structure Effect (e : Call) (s s' : World O) : Prop where
  clock : s'.clock = s.clock
  ctxDone : s'.ctxDone = s.ctxDone
  state : s'.state = e.stateAfter s.state
  registered : s'.registered = e.registeredAfter s.registered
  signalRSSI : s'.signalRSSI = e.signalAfter s.signalRSSI
  outside : e.delegated = false → s'.outside = s.outside
  tasks : e.movesTasks = false → SameTasks s s'

theorem effect_of_ite {e : Call} {p : Prop} {_ : Decidable p} {s₁ : World O} (he : Effect e s s₁)
    (h : (if p then some s₁ else none) = some s') : Effect e s s' := by
  obtain ⟨_, hs⟩ := Option.ite_none_right_eq_some.mp h
  cases hs
  exact he

/-- A task is received from the front of `inboundCh`. -/
theorem eq_of_receive {it : InboundTask} {queue : List InboundTask}
    (h : (match queue with
      | it' :: rest => if it = it' then some { s with inboundCh := rest } else none
      | [] => none) = some s') :
    ∃ rest, queue = it :: rest ∧ s' = { s with inboundCh := rest } := by
  cases queue with
  | nil => cases h
  | cons it' rest =>
    obtain ⟨rfl, hs⟩ := Option.ite_none_right_eq_some.mp h
    cases hs
    exact ⟨rest, rfl, rfl⟩

theorem effect_of_exec {e : Call} {a : e.Ans} (h : s.exec outside ch e a = some s') :
    Effect e s s' := by
  cases e with
  | loadState | loadRegStat | loadSignalRSSI | now | loadLastLoop =>
    exact effect_of_ite ⟨rfl, rfl, rfl, rfl, rfl, fun _ => rfl, fun _ => .refl s⟩ h
  | openPort | execute | executeSend | insert | allow | newUUID | sleep | registerLimiter =>
    obtain ⟨o, _, rfl⟩ := Option.map_eq_some_iff.mp h
    exact ⟨rfl, rfl, rfl, rfl, rfl, nofun, fun _ => ⟨rfl, rfl, rfl, rfl⟩⟩
  | ack | deregister =>
    cases h
    exact ⟨rfl, rfl, rfl, rfl, rfl, fun _ => rfl, nofun⟩
  | event | storeState | storeRegStat | storeSignalRSSI | register | incConnections
  | decConnections | storeLastLoop | startWatchdog | closeWatchdog =>
    cases h
    exact ⟨rfl, rfl, rfl, rfl, rfl, fun _ => rfl, fun _ => ⟨rfl, rfl, rfl, rfl⟩⟩
  | select =>
    cases a with
    | ctxDone | reset =>
      obtain ⟨_, hs⟩ := Option.ite_none_right_eq_some.mp h
      cases hs
      exact ⟨rfl, rfl, rfl, rfl, rfl, fun _ => rfl, nofun⟩
    | task it =>
      obtain ⟨rest, -, rfl⟩ := eq_of_receive h
      exact ⟨rfl, rfl, rfl, rfl, rfl, fun _ => rfl, nofun⟩
    | _ =>
      cases h
      exact ⟨rfl, rfl, rfl, rfl, rfl, fun _ => rfl, nofun⟩
  | tryRecv =>
    cases a with
    | none => exact effect_of_ite ⟨rfl, rfl, rfl, rfl, rfl, fun _ => rfl, nofun⟩ h
    | some it =>
      obtain ⟨rest, -, rfl⟩ := eq_of_receive h
      exact ⟨rfl, rfl, rfl, rfl, rfl, fun _ => rfl, nofun⟩
  | watchdogTick =>
    obtain rfl : s' = s := by
      unfold World.exec at h
      dsimp only at h
      split at h
      · cases h; rfl
      · cases h; rfl
      · cases h
    exact ⟨rfl, rfl, rfl, rfl, rfl, fun _ => rfl, fun _ => .refl s'⟩
  | panic => cases h

/-- What a call does to what lies outside. -/
theorem outside_of_exec {e : Call} {a : e.Ans} (h : s.exec outside ch e a = some s') :
    (if e.delegated then outside ch s.outside e a else some s.outside) = some s'.outside := by
  by_cases he : e.delegated = true
  · rw [if_pos he]
    cases e with
    | openPort | execute | executeSend | insert | allow | newUUID | sleep | registerLimiter =>
      obtain ⟨o, ho, rfl⟩ := Option.map_eq_some_iff.mp h
      exact ho
    | _ => cases he
  · rw [if_neg he, (effect_of_exec h).outside (Bool.eq_false_iff.mpr he)]

/-- The rest of the gateway only lets time pass, cancels, and fills the channels. -/
structure OuterEffect (s s' : World O) : Prop where
  clock : s.clock ≤ s'.clock
  state : s'.state = s.state
  registered : s'.registered = s.registered
  outside : s'.outside = s.outside
  signalRSSI : s'.signalRSSI = s.signalRSSI

theorem effect_of_outer {queueSize : ℕ} {v : Outer} (h : v.step queueSize s = some s') :
    OuterEffect s s' := by
  cases v with
  | tick ns =>
    cases h
    exact ⟨Int.le.intro ns rfl, rfl, rfl, rfl, rfl⟩
  | send task =>
    unfold Outer.step at h
    dsimp only at h
    split_ifs at h
    · cases h; exact ⟨le_rfl, rfl, rfl, rfl, rfl⟩
    · cases h; exact ⟨le_rfl, rfl, rfl, rfl, rfl⟩
  | lookup =>
    obtain ⟨_, hs⟩ := Option.ite_none_right_eq_some.mp h
    cases hs
    exact ⟨le_rfl, rfl, rfl, rfl, rfl⟩
  | requestReset | cancel =>
    cases h
    exact ⟨le_rfl, rfl, rfl, rfl, rfl⟩

theorem effect_of_leadsTo {h : Host} {w : Worker} {t : Thread} {e : Call} {a : e.Ans}
    (hlead : System.Occurrence.LeadsTo (workerSystem h w outside) s' (.call t e a s)) :
    Effect e s s' := by
  obtain ⟨ch, hexec⟩ := hlead
  exact effect_of_exec hexec

end Effect

/-! ### Proofs by a protocol of `Run` -/

/-- The calls of the watchdog. -/
def Call.ofWatchdog : Call → Bool
  | .watchdogTick | .loadLastLoop | .now | .storeState .failed => true
  | _ => false

/-- What each goroutine keeps to. -/
def protocols {Q : Type} (P : Protocol Call Call.Ans Q) : Thread → Protocol Call Call.Ans Q
  | .worker => P
  | .watchdog => .only fun e => e.ofWatchdog

/-- A block of `Run` ends where another starts, or where `Run` ends. -/
def RunEnds {Q : Type} (head : Label → Q → Prop) (final : State → Q → Prop) :
    Label ⊕ Exit → Q → Prop
  | .inl l, q => head l q
  | .inr (.run st), q => final st q
  | .inr .watchdog, _ => False

theorem watchdog_obeys_only {Q : Type} (w : Worker) (q : Q) :
    (watchdog w).Obeys (.only fun e => e.ofWatchdog) q
      (Sum.elim (fun l _ => l = .watchdog) fun r _ => r = .watchdog) := by
  refine Prog.perform_bind_obeys rfl fun tick => ?_
  split_ifs
  · refine Prog.perform_bind_obeys rfl fun last => Prog.perform_bind_obeys rfl fun ns => ?_
    split_ifs
    · exact Prog.perform_bind_obeys rfl fun _ => rfl
    · rfl
  · rfl

/-- The calls of `Run` up to its main loop. -/
def Call.ofInit : Call → Bool
  | .openPort | .execute .ping | .execute .setPDUMode | .storeState .failed
  | .storeState .active => true
  | .register _ | .registerLimiter _ | .incConnections | .storeLastLoop _ | .startWatchdog => true
  | e => e.minor

theorem ofInit_of_minor (e : Call) (he : e.minor = true) : e.ofInit = true := by
  unfold Call.ofInit
  split <;> first | rfl | exact he

theorem receives_of_ofInit (e : Call) (he : e.ofInit = true) : e.receives = false := by
  cases e with
  | insert => cases he
  | event e =>
    cases e with
    | modemAlert => rfl
    | smsReceived => cases he
  | execute c =>
    cases c with
    | readSMS | deleteSMS => cases he
    | _ => rfl
  | _ => rfl

theorem init_obeys_only {Q : Type} (h : Host) (w : Worker) (q : Q) :
    (init h w).Obeys (.only fun e => e.ofInit) q
      fun res _ => (∃ id, res = .inl (.main id)) ∨ res = .inr (.run .failed) := by
  refine Prog.perform_bind_obeys rfl fun opened => ?_
  split_ifs
  · have hsequence : (runInitSequence execute (fun ms => ask (.sleep ms)) h.caseTable
        w.expectedICCID).Calls fun e => e.ofInit = true :=
      calls_runInitSequence ofInit_of_minor _ _ rfl rfl
    refine (hsequence.obeys_only q).bind fun res q _ => ?_
    cases res with
    | error e => exact Prog.perform_bind_obeys rfl fun _ => .inr rfl
    | ok id =>
      exact Prog.perform_bind_obeys rfl fun _ => Prog.perform_bind_obeys rfl fun _ =>
        Prog.perform_bind_obeys rfl fun _ => Prog.perform_bind_obeys rfl fun _ =>
          Prog.perform_bind_obeys rfl fun _ => Prog.perform_bind_obeys rfl fun _ =>
            Prog.perform_bind_obeys rfl fun _ => .inl ⟨id, rfl⟩
  · exact Prog.perform_bind_obeys rfl fun _ => .inr rfl

/-- The calls of `drainInboundCh` and of what follows it. -/
def Call.ofDrain : Call → Bool
  | .tryRecv | .now | .ack _ _ | .decConnections | .closeWatchdog => true
  | _ => false

theorem drainInboundCh_obeys_only {Q : Type} (q : Q) :
    drainInboundCh.Obeys (.only fun e => e.ofDrain) q
      fun res _ => res = .inl .drain ∨ res = .inr (.run .active) := by
  refine Prog.perform_bind_obeys rfl fun (received : Option InboundTask) => ?_
  cases received with
  | some it =>
    exact Prog.perform_bind_obeys rfl fun _ => Prog.perform_bind_obeys rfl fun _ => .inl rfl
  | none =>
    exact Prog.perform_bind_obeys rfl fun _ => Prog.perform_bind_obeys rfl fun _ => .inr rfl

section Keeps

variable {Q : Type} {P : Protocol Call Call.Ans Q} {head : Label → Q → Prop}
  {final : State → Q → Prop} {I : Q → Prop} {q : Q}

/-- `init` keeps to a protocol if its calls keep a property of the protocol state. -/
theorem init_obeys_of_keeps (h : Host) (w : Worker)
    (hI : ∀ q e, I q → e.ofInit → P.allows q e ∧ ∀ a, I (P.next q e a)) (hq : I q)
    (hmain : ∀ id q, I q → head (.main id) q) (hfailed : ∀ q, I q → final .failed q) :
    (init h w).Obeys P q (RunEnds head final) := by
  refine (init_obeys_only h w q).keeps hI hq ?_
  rintro res q' (⟨id, rfl⟩ | rfl) hq'
  · exact hmain id q' hq'
  · exact hfailed q' hq'

theorem drainInboundCh_obeys_of_keeps
    (hI : ∀ q e, I q → e.ofDrain → P.allows q e ∧ ∀ a, I (P.next q e a)) (hq : I q)
    (hdrain : ∀ q, I q → head .drain q) (hactive : ∀ q, I q → final .active q) :
    drainInboundCh.Obeys P q (RunEnds head final) := by
  refine (drainInboundCh_obeys_only q).keeps hI hq ?_
  rintro res q' (rfl | rfl) hq'
  · exact hdrain q' hq'
  · exact hactive q' hq'

/-- The calls of an iteration of the main loop behind its handler. -/
def Call.afterHandler (id : Identity) : Call → Bool
  | .now | .storeLastLoop _ | .loadState | .closeWatchdog => true
  | .deregister iccid => iccid = id.iccid
  | _ => false

/-- An iteration of the main loop keeps to a protocol if its handler does, and the calls behind the
handler keep what the handler leaves. -/
theorem mainLoop_obeys_of_keeps (h : Host) (w : Worker) (id : Identity)
    (hselect : P.allows q .select)
    (hcancel : P.allows (P.next q .select .ctxDone) (.deregister id.iccid) ∧
      head .drain (P.next (P.next q .select .ctxDone) (.deregister id.iccid) ()))
    (hhandle : ∀ selected : Selected,
      (handle h w id selected).Obeys P (P.next q .select selected) fun _ => I)
    (hI : ∀ q e, I q → e.afterHandler id → P.allows q e ∧ ∀ a, I (P.next q e a))
    (hmain : ∀ q, I q → head (.main id) q) (hfinal : ∀ st q, I q → final st q) :
    (mainLoop h w id).Obeys P q (RunEnds head final) := by
  refine Prog.perform_bind_obeys hselect fun (selected : Selected) => ?_
  by_cases hctx : selected = .ctxDone
  · subst hctx
    rw [if_pos rfl]
    exact Prog.perform_bind_obeys hcancel.1 fun _ => hcancel.2
  · rw [if_neg hctx]
    refine (hhandle selected).bind fun _ q hq => ?_
    obtain ⟨hnow, hq⟩ := hI q .now hq rfl
    refine Prog.perform_bind_obeys hnow fun (ns : ℤ) => ?_
    obtain ⟨hstore, hq⟩ := hI _ (.storeLastLoop ns) (hq ns) rfl
    refine Prog.perform_bind_obeys hstore fun _ => ?_
    obtain ⟨hload, hq⟩ := hI _ .loadState (hq ()) rfl
    refine Prog.perform_bind_obeys hload fun (st : State) => ?_
    by_cases hst : st = .failed ∨ st = .banned
    · rw [if_pos hst]
      obtain ⟨hderegister, hq⟩ := hI _ (.deregister id.iccid) (hq st) (decide_eq_true rfl)
      refine Prog.perform_bind_obeys hderegister fun _ => ?_
      obtain ⟨hclose, hq⟩ := hI _ .closeWatchdog (hq ()) rfl
      exact Prog.perform_bind_obeys hclose fun _ => hfinal st _ (hq ())
    · rw [if_neg hst]
      exact hmain _ (hq st)

end Keeps

section

variable {O C Q : Type}

theorem runEnds_prod {Q' : Type} {head : Label → Q → Prop} {final : State → Q → Prop}
    {head' : Label → Q' → Prop} {final' : State → Q' → Prop} (res : Label ⊕ Exit) (q : Q × Q')
    (h : RunEnds head final res q.1 ∧ RunEnds head' final' res q.2) :
    RunEnds (fun l q => head l q.1 ∧ head' l q.2) (fun st q => final st q.1 ∧ final' st q.2)
      res q := by
  cases res with
  | inl l => exact h
  | inr r =>
    cases r with
    | run st => exact h
    | watchdog => exact h.1

/-- `Run` keeps to a protocol, block by block. -/
structure RunProof (h : Host) (w : Worker) (P : Protocol Call Call.Ans Q) where
  /-- What holds where a block of `Run` starts. -/
  head : Label → Q → Prop
  /-- What holds when `Run` has returned. -/
  final : State → Q → Prop
  not_watchdog : ∀ q, ¬ head .watchdog q
  init_obeys : ∀ q, head .init q → (init h w).Obeys P q (RunEnds head final)
  main_obeys : ∀ id q, head (.main id) q → (mainLoop h w id).Obeys P q (RunEnds head final)
  drain_obeys : ∀ q, head .drain q → drainInboundCh.Obeys P q (RunEnds head final)

/-- `Run` keeps to two protocols. -/
def RunProof.prod {Q' : Type} {h : Host} {w : Worker} {P : Protocol Call Call.Ans Q}
    {P' : Protocol Call Call.Ans Q'} (X : RunProof h w P) (X' : RunProof h w P') :
    RunProof h w (P.prod P') where
  head l q := X.head l q.1 ∧ X'.head l q.2
  final st q := X.final st q.1 ∧ X'.final st q.2
  not_watchdog q hq := X.not_watchdog q.1 hq.1
  init_obeys q hq := ((X.init_obeys q.1 hq.1).prod (X'.init_obeys q.2 hq.2)).mono runEnds_prod
  main_obeys id q hq :=
    ((X.main_obeys id q.1 hq.1).prod (X'.main_obeys id q.2 hq.2)).mono runEnds_prod
  drain_obeys q hq := ((X.drain_obeys q.1 hq.1).prod (X'.drain_obeys q.2 hq.2)).mono runEnds_prod

theorem runEnds_view {Q' : Type} {f : Q → Q'} {head : Label → Q → Prop} {final : State → Q → Prop}
    (res : Label ⊕ Exit) (q' : Q') (h : ∃ q, f q = q' ∧ RunEnds head final res q) :
    RunEnds (fun l q' => ∃ q, f q = q' ∧ head l q) (fun st q' => ∃ q, f q = q' ∧ final st q)
      res q' := by
  cases res with
  | inl l => exact h
  | inr r =>
    cases r with
    | run st => exact h
    | watchdog =>
      obtain ⟨q, -, hq⟩ := h
      exact hq

/-- `Run` keeps to a protocol that sees less of the state. -/
def RunProof.view {Q' : Type} {h : Host} {w : Worker} {P : Protocol Call Call.Ans Q}
    {P' : Protocol Call Call.Ans Q'} (X : RunProof h w P) (f : Q → Q')
    (hallows : ∀ q e, P.allows q e → P'.allows (f q) e)
    (hnext : ∀ q e a, P'.next (f q) e a = f (P.next q e a)) : RunProof h w P' where
  head l q' := ∃ q, f q = q' ∧ X.head l q
  final st q' := ∃ q, f q = q' ∧ X.final st q
  not_watchdog := by
    rintro _ ⟨q, -, hq⟩
    exact X.not_watchdog q hq
  init_obeys := by
    rintro _ ⟨q, rfl, hq⟩
    exact ((X.init_obeys q hq).view hallows hnext).mono runEnds_view
  main_obeys := by
    rintro id _ ⟨q, rfl, hq⟩
    exact ((X.main_obeys id q hq).view hallows hnext).mono runEnds_view
  drain_obeys := by
    rintro _ ⟨q, rfl, hq⟩
    exact ((X.drain_obeys q hq).view hallows hnext).mono runEnds_view

/-- `Run` is where its protocol state says it is. -/
def RunProof.At {h : Host} {w : Worker} {P : Protocol Call Call.Ans Q} (X : RunProof h w P) :
    System.Local Call Call.Ans Label Exit → Q → Prop
  | .running p, q => p.Obeys P q (RunEnds X.head X.final)
  | .stopped r, q => RunEnds X.head X.final (.inr r) q

/-- An invariant that the calls of `Run`, those of the watchdog and the rest of the gateway keep. -/
structure WorkerProof (h : Host) (w : Worker) (outside : C → O → (e : Call) → e.Ans → Option O)
    (P : Protocol Call Call.Ans Q) extends RunProof h w P where
  /-- The invariant. -/
  inv : World O → History O → Q → Prop
  run_inv : ∀ {ch s past q e a s'}, inv s past q → P.allows q e →
    s.exec outside ch e a = some s' → inv s' (.call .worker e a s :: past) (P.next q e a)
  watchdog_inv : ∀ {ch s past q e a s'}, inv s past q → e.ofWatchdog →
    s.exec outside ch e a = some s' → inv s' (.call .watchdog e a s :: past) q
  outer_inv : ∀ {v s past q s'}, inv s past q → v.step w.inboundQueueSize s = some s' →
    inv s' (.env v s :: past) q

variable {h : Host} {w : Worker} {outside : C → O → (e : Call) → e.Ans → Option O}
  {P : Protocol Call Call.Ans Q}

namespace RunProof

theorem runEnds_iff {head : Label → Q → Prop} {final : State → Q → Prop} (res : Label ⊕ Exit)
    (q : Q) : RunEnds head final res q ↔
      Sum.elim head (fun r q => RunEnds head final (.inr r) q) res q := by
  cases res with
  | inl l => exact Iff.rfl
  | inr r => exact Iff.rfl

/-- The code of the worker and its watchdog keeps to the protocols. -/
def outline (X : RunProof h w P) (outside : C → O → (e : Call) → e.Ans → Option O) :
    System.Outline (workerSystem h w outside) (protocols P) where
  head t l q :=
    match t with
    | .worker => X.head l q
    | .watchdog => l = .watchdog
  final t r q :=
    match t with
    | .worker => RunEnds X.head X.final (.inr r) q
    | .watchdog => r = .watchdog
  inv _ _ := True
  block_obeys t l q hq := by
    cases t with
    | worker =>
      cases l with
      | init => exact (X.init_obeys q hq).mono fun res q => (runEnds_iff res q).mp
      | main id => exact (X.main_obeys id q hq).mono fun res q => (runEnds_iff res q).mp
      | drain => exact (X.drain_obeys q hq).mono fun res q => (runEnds_iff res q).mp
      | watchdog => exact absurd hq (X.not_watchdog q)
    | watchdog =>
      obtain rfl : l = .watchdog := hq
      exact watchdog_obeys_only w q
  call_inv _ _ _ _ _ _ _ _ _ _ := trivial
  env_inv _ _ _ _ _ _ := trivial
  crash_inv _ _ _ _ _ _ hcrash := nomatch hcrash

theorem head_entry (X : RunProof h w P) (outside : C → O → (e : Call) → e.Ans → Option O) {q₀ : Q}
    (hhead : X.head .init q₀) (t : Thread) :
    (X.outline outside).head t (entry t) q₀ := by
  cases t with
  | worker => exact hhead
  | watchdog => exact rfl

/-- A worker that follows the outline is where its protocol state says it is. -/
theorem at_of_follows (X : RunProof h w P) (outside : C → O → (e : Call) → e.Ans → Option O)
    {l : System.Local Call Call.Ans Label Exit} {q : Q}
    (hfollows : (X.outline outside).Follows .worker l q) : X.At l q := by
  cases l with
  | running p => exact Prog.Obeys.mono hfollows fun res q => (runEnds_iff res q).mpr
  | stopped r => exact hfollows

end RunProof

namespace WorkerProof

/-- The proof outline. -/
def outline (X : WorkerProof h w outside P) :
    System.Outline (workerSystem h w outside).recorded (protocols P) where
  head := (X.toRunProof.outline outside).head
  final := (X.toRunProof.outline outside).final
  inv s q := X.inv s.state s.history (q .worker)
  block_obeys := (X.toRunProof.outline outside).block_obeys
  call_inv t ch s q e a s' hinv hallow hexec := by
    obtain ⟨s₁, hcall, rfl⟩ := System.recorded_exec_iff.mp hexec
    cases t with
    | worker =>
      rw [Function.update_self]
      exact X.run_inv hinv hallow hcall
    | watchdog =>
      rw [Function.update_of_ne (by decide)]
      exact X.watchdog_inv hinv hallow hcall
  env_inv v s q s' hinv hstep := by
    obtain ⟨s₁, houter, rfl⟩ := System.recorded_env_iff.mp hstep
    exact X.outer_inv hinv houter
  crash_inv t s q l s' hinv hcrash := nomatch hcrash

/-- An invariant that holds at a point of a run holds from there on, and `Run` is where its protocol
state says it is. -/
theorem reach_from (X : WorkerProof h w outside P) {o : O} {q₀ : Q} (hhead : X.head .init q₀)
    {c₀ c : RecordedConfig O}
    (hreach₀ : (workerSystem h w outside).recorded.Reach
      ((workerSystem h w outside).recorded.start ⟨World.new o, []⟩ entry) c₀)
    (hinv : X.inv c₀.state.state c₀.state.history
      (System.follow P .worker q₀ c₀.state.history))
    (hreach : (workerSystem h w outside).recorded.Reach c₀ c) :
    ∃ q, X.inv c.state.state c.state.history q ∧ X.At (c.threads .worker) q := by
  obtain ⟨-, hfollows⟩ := (X.toRunProof.outline outside).reach_traced (fun _ _ => rfl) trivial
    (X.head_entry outside hhead) hreach₀
  have hstart : X.outline.Holds c₀ := by
    refine ⟨System.positions (protocols P) (fun _ => q₀) c₀.state.history, hinv, fun t => ?_⟩
    have ht := hfollows t
    cases hrun : c₀.threads t with
    | running p =>
      rw [hrun] at ht
      exact ht
    | stopped r =>
      rw [hrun] at ht
      exact ht
  obtain ⟨q, hinv, hfollows⟩ := X.outline.reach hstart hreach
  refine ⟨q .worker, hinv, ?_⟩
  have hworker := hfollows .worker
  cases hrun : c.threads .worker with
  | running p =>
    rw [hrun] at hworker
    exact X.at_of_follows outside hworker
  | stopped r =>
    rw [hrun] at hworker
    exact hworker

/-- The invariant holds along every run of a new worker. -/
theorem reach (X : WorkerProof h w outside P) {o : O} {q₀ : Q} (hinv : X.inv (World.new o) [] q₀)
    (hhead : X.head .init q₀) {c : RecordedConfig O}
    (hreach : (workerSystem h w outside).recorded.Reach
      ((workerSystem h w outside).recorded.start ⟨World.new o, []⟩ entry) c) :
    ∃ q, X.inv c.state.state c.state.history q ∧ X.At (c.threads .worker) q :=
  X.reach_from hhead .refl hinv hreach

end WorkerProof

/-! ### What the history of a run tells -/

/-- The case that was selected last. -/
def lastSelected : History O → Option Selected
  | [] => none
  | .call .worker .select selected _ :: _ => some selected
  | _ :: past => lastSelected past

namespace RunProof

/-- The states of a history are linked, `Run` has kept to its protocol, and the watchdog has made
the calls of a watchdog. -/
structure Traced (outside : C → O → (e : Call) → e.Ans → Option O) (h : Host) (w : Worker)
    (P : Protocol Call Call.Ans Q) (q₀ : Q) (s : World O) (past : History O) : Prop where
  linked : System.Linked (workerSystem h w outside) s past
  accepted : System.Accepted P .worker q₀ past
  watchdog : ∀ {e a s}, .call .watchdog e a s ∈ past → e.ofWatchdog

/-- Every run of a new worker is traced, and `Run` is where its protocol says it is. -/
theorem reach (X : RunProof h w P) {o : O} {q₀ : Q} (hhead : X.head .init q₀)
    {c : RecordedConfig O} (hreach : (workerSystem h w outside).recorded.Reach
      ((workerSystem h w outside).recorded.start ⟨World.new o, []⟩ entry) c) :
    Traced outside h w P q₀ c.state.state c.state.history ∧
      X.At (c.threads .worker) (System.follow P .worker q₀ c.state.history) := by
  obtain ⟨htraced, hfollows⟩ := (X.outline outside).reach_traced (fun _ _ => rfl) trivial
    (X.head_entry outside hhead) hreach
  refine ⟨⟨htraced.linked, htraced.accepted .worker, fun hmem => ?_⟩,
    X.at_of_follows outside (hfollows .worker)⟩
  exact (htraced.accepted .watchdog).of_mem hmem

end RunProof

end

end SmsGate.Modem
