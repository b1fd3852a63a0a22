import SmsGate.Modem.Equiv.Course
import SmsGate.Modem.Equiv.Drain
import Mathlib.Data.List.Infix

/-!
# What becomes of the watchdog's `FAILED`

The watchdog stores `StateFailed` when the main loop has not come round for too long, and exits.
Nothing keeps a handler that is running at this time from storing another state afterwards:
`executeTask` stores the state that it found, and recovery and reset store states of their own.

The history of a run tells the stage in which the main loop is (`loopProtocol`) and the course of
its handler (`course`).  The state stays `FAILED`, and `Run` deregisters and returns `FAILED` at the
end of the handler, iff no handler was on a course that stores another state
(`failed_terminal_iff`).
-/

namespace SmsGate.Modem

variable {O C : Type}

/-! ### The stages of the main loop -/

/-- The states in which the main loop ends. -/
def State.terminal : State → Bool
  | .failed | .banned => true
  | _ => false

theorem terminal_iff {st : State} : st.terminal = true ↔ st = .failed ∨ st = .banned := by
  cases st <;> decide

/-- How far the main loop is. -/
inductive LoopStage where
  | starting
  | handling
  /-- The handler has ended, and `lastLoopNs` is stored. -/
  | stamped
  /-- The state was loaded. -/
  | checked (st : State)
  | deregistered (st : State)
  | closed (st : State)
  /-- The context is done. -/
  | cancelled
  deriving DecidableEq

/-- The calls of the handlers. -/
def Call.ofHandler : Call → Bool
  | .select | .storeLastLoop _ | .register _ | .deregister _ | .closeWatchdog => false
  | _ => true

theorem ofHandler_of_minor (e : Call) (he : e.minor = true) : e.ofHandler = true := by
  cases e with
  | select | storeLastLoop | register | deregister | closeWatchdog => cases he
  | _ => rfl

/-- The main loop: `select`, a handler, the stamp and the check, and round again unless the state is
terminal. -/
def loopProtocol : Protocol Call Call.Ans LoopStage where
  allows q e :=
    match q with
    | .starting => e.ofInit = true ∨ e = .select
    | .handling => e.ofHandler = true ∨ ∃ ns, e = .storeLastLoop ns
    | .stamped => e = .loadState
    | .checked st => if st.terminal then ∃ iccid, e = .deregister iccid else e = .select
    | .deregistered _ => e = .closeWatchdog
    | .closed _ => False
    | .cancelled => e.ofDrain = true ∨ ∃ iccid, e = .deregister iccid
  next q e a :=
    match q, e, a with
    | .starting, .select, (selected : Selected) | .checked _, .select, (selected : Selected) =>
      if selected = .ctxDone then .cancelled else .handling
    | .handling, .storeLastLoop _, _ => .stamped
    | .stamped, .loadState, (st : State) => .checked st
    | .checked st, .deregister _, _ => .deregistered st
    | .deregistered st, .closeWatchdog, _ => .closed st
    | q, _, _ => q

/-- Where the blocks of `Run` start. -/
def loopHead : Label → LoopStage → Prop
  | .init, q => q = .starting
  | .main _, q => q = .starting ∨ ∃ st : State, st.terminal = false ∧ q = .checked st
  | .drain, q => q = .cancelled
  | .watchdog, _ => False

/-- Where `Run` returns. -/
def loopFinal (st : State) (q : LoopStage) : Prop :=
  q = .closed st ∨ q = .starting ∧ st = .failed ∨ q = .cancelled ∧ st = .active

theorem handle_calls (h : Host) (w : Worker) (id : Identity) (selected : Selected) :
    (handle h w id selected).Calls fun e => e.ofHandler = true := by
  refine (calls_handle h w id selected).mono fun e he => ?_
  cases e with
  | select | storeLastLoop | register | deregister | closeWatchdog => cases he.ofRun
  | _ => rfl

theorem loopProtocol_handling (e : Call) (he : e.ofHandler = true) :
    loopProtocol.allows .handling e ∧ ∀ a, loopProtocol.next .handling e a = .handling := by
  refine ⟨.inl he, fun a => ?_⟩
  cases e with
  | storeLastLoop => cases he
  | _ => rfl

/-- The rest of an iteration, once a case was selected. -/
theorem mainLoop_obeys_loop (h : Host) (w : Worker) (id : Identity) {q : LoopStage}
    (hq : loopHead (.main id) q) :
    (mainLoop h w id).Obeys loopProtocol q (RunEnds loopHead loopFinal) := by
  -- the head of the loop is reached from the init sequence and from a check that went well
  have hselect : loopProtocol.allows q .select ∧ ∀ selected : Selected,
      loopProtocol.next q .select selected =
        if selected = .ctxDone then .cancelled else .handling := by
    rcases hq with rfl | ⟨st, hst, rfl⟩
    · exact ⟨.inr rfl, fun _ => rfl⟩
    · refine ⟨?_, fun _ => rfl⟩
      unfold loopProtocol
      dsimp only
      rw [hst]
      exact rfl
  refine Prog.perform_bind_obeys hselect.1 fun (selected : Selected) => ?_
  rw [hselect.2]
  by_cases hctx : selected = .ctxDone
  · rw [if_pos hctx, if_pos hctx]
    exact Prog.perform_bind_obeys (.inr ⟨_, rfl⟩) fun _ => rfl
  · rw [if_neg hctx, if_neg hctx]
    refine (handle_calls h w id selected).bind_obeys loopProtocol_handling fun _ => ?_
    refine Prog.perform_bind_obeys (.inl rfl) fun ns => ?_
    refine Prog.perform_bind_obeys (.inr ⟨_, rfl⟩) fun _ => ?_
    refine Prog.perform_bind_obeys rfl fun (st : State) => ?_
    -- the check at the end of the iteration
    by_cases hst : st = .failed ∨ st = .banned
    · rw [if_pos hst]
      have hterminal : loopProtocol.allows (.checked st) (.deregister id.iccid) := by
        unfold loopProtocol
        dsimp only
        rw [terminal_iff.mpr hst]
        exact ⟨_, rfl⟩
      refine Prog.perform_bind_obeys hterminal fun _ => ?_
      exact Prog.perform_bind_obeys rfl fun _ => .inl rfl
    · rw [if_neg hst]
      refine .inr ⟨st, ?_, rfl⟩
      rw [Bool.eq_false_iff]
      exact fun h => hst (terminal_iff.mp h)

/-- `Run` goes through the stages. -/
def loopProof (h : Host) (w : Worker) : RunProof h w loopProtocol where
  head := loopHead
  final := loopFinal
  not_watchdog _ hq := hq
  init_obeys q hq := by
    refine init_obeys_of_keeps h w (I := (· = LoopStage.starting)) (fun q e hq he => ?_) hq
      (fun _ _ hq => .inl hq) fun _ hq => .inr (.inl ⟨hq, rfl⟩)
    subst hq
    refine ⟨.inl he, fun a => ?_⟩
    cases e with
    | select => cases he
    | _ => rfl
  main_obeys id q hq := mainLoop_obeys_loop h w id hq
  drain_obeys q hq := by
    refine drainInboundCh_obeys_of_keeps (I := (· = LoopStage.cancelled)) (fun q e hq he => ?_) hq
      (fun _ hq => hq) fun _ hq => .inr (.inr ⟨hq, rfl⟩)
    subst hq
    exact ⟨.inl he, fun a => rfl⟩

/-! ### The state after the watchdog has fired -/

/-- The state was and is `FAILED`. -/
def StaysFailed (s : World O) (later : History O) : Prop :=
  s.state = .failed ∧ ∀ x ∈ later, x.found.state = .failed

/-- The occurrence at which the watchdog fires. -/
abbrev watchdogFires (s : World O) :
    System.Occurrence Thread (World O) Call Call.Ans Outer :=
  .call .watchdog (.storeState .failed) () s

section History

variable {h : Host} {w : Worker} {outside : C → O → (e : Call) → e.Ans → Option O}
  {s s₀ : World O} {later rest : History O}

/-- A step from `FAILED` stays there iff `Run` does not store another state. -/
theorem state_failed_iff {x : System.Occurrence Thread (World O) Call Call.Ans Outer}
    (hlead : x.LeadsTo (workerSystem h w outside) s)
    (hwatchdog : ∀ {e a s}, x = .call .watchdog e a s → e.ofWatchdog)
    (hfound : x.found.state = .failed) : s.state = .failed ↔ storesFailed x := by
  cases x with
  | call t e a s₀ =>
    have hfound : s₀.state = .failed := hfound
    rw [(effect_of_leadsTo hlead).state, hfound]
    cases e with
    | storeState st =>
      cases t with
      | worker => exact decide_eq_true_iff.symm
      | watchdog =>
        have hst : (Call.storeState st).ofWatchdog = true := hwatchdog rfl
        cases st with
        | failed => exact iff_of_true rfl rfl
        | _ => cases hst
    | _ => cases t <;> exact iff_of_true rfl rfl
  | env v s₀ =>
    have hstep : v.step w.inboundQueueSize s₀ = some s := hlead
    exact iff_of_true ((effect_of_outer hstep).state.trans hfound) rfl
  | crash t s₀ =>
    obtain ⟨l, hcrash⟩ := hlead
    cases hcrash

/-- The state stays `FAILED` iff `Run` stores nothing else. -/
theorem staysFailed_iff (hlinked : System.Linked (workerSystem h w outside) s
      (later ++ watchdogFires s₀ :: rest))
    (hwatchdog : ∀ {e a s}, .call .watchdog e a s ∈ later → e.ofWatchdog) :
    StaysFailed s later ↔ ∀ x ∈ later, storesFailed x := by
  induction later generalizing s with
  | nil =>
    obtain ⟨hlead, _⟩ : (watchdogFires s₀).LeadsTo (workerSystem h w outside) s ∧ _ := hlinked
    have hstate : s.state = .failed := (effect_of_leadsTo hlead).state
    exact iff_of_true ⟨hstate, List.forall_mem_nil _⟩ (List.forall_mem_nil _)
  | cons x later ih =>
    have hbefore : StaysFailed x.found later ↔ ∀ x ∈ later, storesFailed x :=
      ih hlinked.2 fun hmem => hwatchdog (List.mem_cons_of_mem _ hmem)
    have hstep : x.found.state = .failed → (s.state = .failed ↔ storesFailed x) := by
      refine state_failed_iff hlinked.1 ?_
      rintro e a s rfl
      exact hwatchdog List.mem_cons_self
    rw [List.forall_mem_cons, ← hbefore]
    unfold StaysFailed
    rw [List.forall_mem_cons]
    constructor
    · rintro ⟨hs, hx, hall⟩
      exact ⟨(hstep hx).mp hs, hx, hall⟩
    · rintro ⟨hstores, hx, hall⟩
      exact ⟨(hstep hx).mpr hstores, hx, hall⟩

end History

/-! ### `Run` on its way out -/

/-- The stage in which `Run` is. -/
def loopStage (past : History O) : LoopStage := System.follow loopProtocol .worker .starting past

/-- The occurrence is a `select` of the main loop. -/
def selects : System.Occurrence Thread (World O) Call Call.Ans Outer → Bool
  | .call _ .select _ _ => true
  | _ => false

/-- The check finds `FAILED`, or has found it; once `Run` has deregistered, the registry does not
have the worker. -/
def Returning (registered : Bool) : LoopStage → Prop
  | .stamped | .checked .failed => True
  | .deregistered .failed | .closed .failed => registered = false
  | _ => False

theorem Returning.of_registered {registered : Bool} {q : LoopStage} (hq : Returning registered q) :
    Returning false q := by
  match q, hq with
  | .stamped, _ => trivial
  | .checked .failed, _ => trivial
  | .deregistered .failed, _ => rfl
  | .closed .failed, _ => rfl

section Returning

variable {h : Host} {w : Worker} {outside : C → O → (e : Call) → e.Ans → Option O} {ch : C}
  {s s' : World O} {after base : History O}

theorem returning_call {q : LoopStage} {e : Call} {a : e.Ans} (hq : Returning s.registered q)
    (hallow : loopProtocol.allows q e) (hexec : s.exec outside ch e a = some s')
    (hstate : s.state = .failed) :
    Returning s'.registered (loopProtocol.next q e a) ∧ s'.state = .failed ∧ e ≠ .select := by
  have heffect := effect_of_exec hexec
  cases q with
  | stamped =>
    obtain rfl : e = .loadState := hallow
    obtain ⟨ha, _⟩ := Option.ite_none_right_eq_some.mp hexec
    have ha : a = .failed := ha.trans hstate
    subst ha
    exact ⟨trivial, heffect.state.trans hstate, nofun⟩
  | checked st =>
    cases st with
    | failed =>
      obtain ⟨iccid, rfl⟩ : ∃ iccid, e = .deregister iccid := hallow
      exact ⟨heffect.registered, heffect.state.trans hstate, nofun⟩
    | _ => cases hq
  | deregistered st =>
    cases st with
    | failed =>
      obtain rfl : e = .closeWatchdog := hallow
      exact ⟨heffect.registered.trans hq, heffect.state.trans hstate, nofun⟩
    | _ => cases hq
  | closed st => cases hallow
  | _ => cases hq

/-- From the end of a handler that has left `FAILED` as it was. -/
theorem returning_after (hlinked : System.Linked (workerSystem h w outside) s (after ++ base))
    (haccepted : System.Accepted loopProtocol .worker .starting (after ++ base))
    (hwatchdog : ∀ {e a s}, .call .watchdog e a s ∈ after → e.ofWatchdog)
    (hfailed : ∀ s, System.Linked (workerSystem h w outside) s base → s.state = .failed)
    (hbase : loopStage base = .stamped) :
    StaysFailed s after ∧ Returning s.registered (loopStage (after ++ base)) ∧
      ∀ x ∈ after, selects x = false := by
  induction after generalizing s with
  | nil =>
    rw [List.nil_append, hbase]
    exact ⟨⟨hfailed s hlinked, List.forall_mem_nil _⟩, trivial, List.forall_mem_nil _⟩
  | cons x after ih =>
    have hrest : System.Accepted loopProtocol .worker .starting (after ++ base) :=
      haccepted.tail
    obtain ⟨hstay, hq, hselect⟩ :=
      ih hlinked.2 hrest fun hmem => hwatchdog (List.mem_cons_of_mem _ hmem)
    have hfound : x.found.state = .failed := hstay.1
    -- what happens leaves the state, and is no `select`
    suffices hstep : s.state = .failed ∧ Returning s.registered (loopStage (x :: after ++ base)) ∧
        selects x = false from
      ⟨⟨hstep.1, List.forall_mem_cons.mpr hstay⟩, hstep.2.1,
        List.forall_mem_cons.mpr ⟨hstep.2.2, hselect⟩⟩
    cases x with
    | call t e a s₀ =>
      obtain ⟨ch, hexec⟩ := hlinked.1
      cases t with
      | worker =>
        obtain ⟨hnext, hstate, hne⟩ := returning_call hq (haccepted.1 rfl) hexec hfound
        refine ⟨hstate, hnext, ?_⟩
        cases e with
        | select => exact absurd rfl hne
        | _ => rfl
      | watchdog =>
        have he : e.ofWatchdog = true := hwatchdog List.mem_cons_self
        -- the watchdog neither registers nor deregisters
        have hregistered : s.registered = s₀.registered := by
          rw [(effect_of_exec hexec).registered]
          cases e with
          | register | deregister => cases he
          | _ => rfl
        refine ⟨?_, ?_, ?_⟩
        · rw [(effect_of_exec hexec).state]
          cases e with
          | storeState st =>
            cases st with
            | failed => rfl
            | _ => cases he
          | _ => exact hfound
        · rw [hregistered]
          exact hq
        · cases e with
          | select => cases he
          | _ => rfl
    | env v s₀ =>
      have heffect := effect_of_outer (show v.step w.inboundQueueSize s₀ = some s from hlinked.1)
      refine ⟨heffect.state.trans hfound, ?_, rfl⟩
      rw [heffect.registered]
      exact hq
    | crash t s₀ =>
      obtain ⟨l, hcrash⟩ := hlinked.1
      cases hcrash

end Returning

section Continue

variable {h : Host} {w : Worker} {outside : C → O → (e : Call) → e.Ans → Option O}
  {c : RecordedConfig O}

theorem not_loopHead {q : LoopStage} (hq : Returning false q) (l : Label) : ¬ loopHead l q := by
  intro hl
  cases l with
  | init =>
    obtain rfl : q = .starting := hl
    exact hq
  | main id =>
    rcases hl with rfl | ⟨st, hst, rfl⟩
    · exact hq
    · cases st with
      | failed => cases hst
      | _ => exact hq
  | drain =>
    obtain rfl : q = .cancelled := hl
    exact hq
  | watchdog => exact hl

theorem loopFinal_of_returning {q : LoopStage} {st : State} (hq : Returning false q)
    (hst : loopFinal st q) : q = .closed .failed ∧ st = .failed := by
  rcases hst with rfl | ⟨rfl, _⟩ | ⟨rfl, _⟩
  · cases st with
    | failed => exact ⟨rfl, rfl⟩
    | _ => exact hq.elim
  · exact hq.elim
  · exact hq.elim

/-- On its way out, `Run` has returned `FAILED`, returns it now, or makes a call. -/
theorem at_cases {l : System.Local Call Call.Ans Label Exit} {q : LoopStage}
    (hat : (loopProof h w).At l q) (hq : Returning false q) :
    (q = .closed .failed ∧
      (l = .stopped (.run .failed) ∨ l = .running (.ret (.inr (.run .failed))))) ∨
    ∃ e k, l = .running (.call e k) ∧ loopProtocol.allows q e ∧
      ∀ a, (loopProof h w).At (.running (k a)) (loopProtocol.next q e a) := by
  match l, hat with
  | .running (.ret (.inl l)), hat => exact absurd hat (not_loopHead hq l)
  | .running (.ret (.inr (.run st))), hat =>
    obtain ⟨hclosed, rfl⟩ := loopFinal_of_returning hq hat
    exact .inl ⟨hclosed, .inr rfl⟩
  | .running (.call e k), hat => exact .inr ⟨e, k, rfl, hat.1, hat.2⟩
  | .stopped (.run st), hat =>
    obtain ⟨hclosed, rfl⟩ := loopFinal_of_returning hq hat
    exact .inl ⟨hclosed, .inl rfl⟩

/-- `Run` can go on to return `FAILED`, with the worker deregistered. -/
def CanReturn (h : Host) (w : Worker) (outside : C → O → (e : Call) → e.Ans → Option O)
    (c : RecordedConfig O) : Prop :=
  ∃ c', (workerSystem h w outside).recorded.Reach c c' ∧
    c'.threads .worker = .stopped (.run .failed) ∧ c'.state.state.registered = false

theorem canReturn_of_closed (hat : (loopProof h w).At (c.threads .worker) (.closed .failed))
    (hreg : c.state.state.registered = false) : CanReturn h w outside c := by
  rcases at_cases hat rfl with ⟨_, hrun | hrun⟩ | ⟨e, k, _, hallow, _⟩
  · exact ⟨c, .refl, hrun, hreg⟩
  · refine ⟨_, .single (.stop .worker hrun), ?_, hreg⟩
    exact Function.update_self Thread.worker _ c.threads
  · exact hallow.elim

/-- If every call that `Run` may make now leads on to the end, `Run` can go on to the end. -/
theorem canReturn_of_calls (ch : C) {q : LoopStage} (hat : (loopProof h w).At (c.threads .worker) q)
    (hq : Returning false q) (hclosed : q ≠ .closed .failed)
    (hcalls : ∀ e, loopProtocol.allows q e → ∃ a s', c.state.state.exec outside ch e a = some s' ∧
      ∀ c' : RecordedConfig O, c'.state.state = s' →
        (loopProof h w).At (c'.threads .worker) (loopProtocol.next q e a) →
          CanReturn h w outside c') : CanReturn h w outside c := by
  rcases at_cases hat hq with ⟨heq, _⟩ | ⟨e, k, hrun, hallow, hnext⟩
  · exact absurd heq hclosed
  · obtain ⟨a, s', hexec, hgo⟩ := hcalls e hallow
    have hself : Function.update c.threads .worker (.running (k a)) .worker = .running (k a) :=
      Function.update_self ..
    have hstep : (workerSystem h w outside).recorded.Step c _ :=
      .call .worker ch a hrun (System.recorded_exec_iff.mpr ⟨s', hexec, rfl⟩)
    obtain ⟨c', hreach, hend⟩ := hgo
      ⟨⟨s', .call .worker e a c.state.state :: c.state.history⟩,
        Function.update c.threads .worker (.running (k a))⟩ rfl (hself ▸ hnext a)
    exact ⟨c', .head hstep hreach, hend⟩

theorem canReturn_of_deregistered (ch : C)
    (hat : (loopProof h w).At (c.threads .worker) (.deregistered .failed))
    (hreg : c.state.state.registered = false) : CanReturn h w outside c := by
  refine canReturn_of_calls ch hat rfl nofun ?_
  rintro e rfl
  refine ⟨(), _, rfl, fun c' hc' hat' => canReturn_of_closed hat' ?_⟩
  rw [hc']
  exact hreg

theorem canReturn_of_checked (ch : C)
    (hat : (loopProof h w).At (c.threads .worker) (.checked .failed)) :
    CanReturn h w outside c := by
  refine canReturn_of_calls ch hat trivial nofun ?_
  rintro e ⟨iccid, rfl⟩
  refine ⟨(), _, rfl, fun c' hc' hat' => canReturn_of_deregistered ch hat' ?_⟩
  rw [hc']

theorem canReturn_of_stamped (ch : C) (hat : (loopProof h w).At (c.threads .worker) .stamped)
    (hstate : c.state.state.state = .failed) : CanReturn h w outside c := by
  refine canReturn_of_calls ch hat trivial nofun ?_
  rintro e rfl
  exact ⟨State.failed, _, if_pos hstate.symm, fun c' _ hat' => canReturn_of_checked ch hat'⟩

/-- Wherever `Run` is on its way out, it can go on to the end. -/
theorem canReturn_of_returning (ch : C) {q : LoopStage}
    (hat : (loopProof h w).At (c.threads .worker) q)
    (hq : Returning c.state.state.registered q) (hstate : c.state.state.state = .failed) :
    CanReturn h w outside c := by
  match q, hq with
  | .stamped, _ => exact canReturn_of_stamped ch hat hstate
  | .checked .failed, _ => exact canReturn_of_checked ch hat
  | .deregistered .failed, hreg => exact canReturn_of_deregistered ch hat hreg
  | .closed .failed, hreg => exact canReturn_of_closed hat hreg

end Continue

/-! ### Whole runs -/

variable (h : Host) (w : Worker) (outside : C → O → (e : Call) → e.Ans → Option O)

/-- Since the end of a handler, `Run` has not gone round again; if it has returned, it has returned
`FAILED` and the worker is deregistered; and it can go on to this end. -/
structure Returns (c : RecordedConfig O) (after : History O) : Prop where
  not_select : ∀ x ∈ after, selects x = false
  returned : ∀ st, c.threads .worker = .stopped (.run st) →
    st = .failed ∧ c.state.state.registered = false
  canReturn : CanReturn h w outside c

/-- The stamp comes from a handler. -/
theorem storeLastLoop_of_stamped {q : LoopStage} {e : Call} {a : e.Ans}
    (hallow : loopProtocol.allows q e) (hnext : loopProtocol.next q e a = .stamped) :
    ∃ ns, e = .storeLastLoop ns := by
  cases q with
  | handling =>
    cases e with
    | storeLastLoop ns => exact ⟨ns, rfl⟩
    | _ => cases hnext
  | starting =>
    cases e with
    | select => cases a <;> cases hnext
    | _ => cases hnext
  | stamped =>
    obtain rfl : e = .loadState := hallow
    cases hnext
  | checked st =>
    cases e with
    | select => cases a <;> cases hnext
    | _ => cases hnext
  | deregistered st => cases e <;> cases hnext
  | closed st => cases hallow
  | cancelled => cases hnext

/-- At the end of a handler no store is to come. -/
theorem not_overwrites_of_stamped {past : History O}
    (haccepted : System.Accepted loopProtocol .worker .starting past)
    (hstamped : loopStage past = .stamped) : (course past).overwrites = false := by
  induction past with
  | nil => cases hstamped
  | cons x past ih =>
    cases x with
    | call t e a s =>
      cases t with
      | worker =>
        obtain ⟨ns, rfl⟩ := storeLastLoop_of_stamped (haccepted.1 rfl) hstamped
        rfl
      | watchdog => exact ih haccepted.2 hstamped
    | env v s => exact ih haccepted hstamped
    | crash t s => exact ih haccepted hstamped

/-- **When the watchdog's `FAILED` is final.**  Take any run of a worker in which the watchdog has
fired, and what happened later.

* The state is `FAILED` ever since, as long as no handler is on a course that overwrites it.  This
  depends on the handler that was running, or was selected next, and on the answers of the modem: a
  task that was taken, a URC that denies the registration, a recovery and a reset before the modem
  is reset overwrite it; a keepalive does if `AT+CREG?` fails or tells a denial, a modem that is
  reset does if it restarts, and all else does not.
* Look at the end of a handler since (between its stamp and its check).  The state has been and
  stays `FAILED` and `Run` deregisters and returns `FAILED`, if and only if no handler up to there
  was on such a course. -/
theorem failed_terminal_iff {o : O} {c : RecordedConfig O}
    (hreach : (workerSystem h w outside).recorded.Reach
      ((workerSystem h w outside).recorded.start ⟨World.new o, []⟩ entry) c)
    {later earlier : History O} {s : World O}
    (hfires : c.state.history = later ++ watchdogFires s :: earlier) :
    ((∀ d, d <:+ later → (course (d ++ watchdogFires s :: earlier)).overwrites = false) →
      StaysFailed c.state.state later) ∧
    ∀ after during, later = after ++ during →
      loopStage (during ++ watchdogFires s :: earlier) = .stamped →
      (StaysFailed c.state.state later ∧ Returns h w outside c after ↔
        ∀ d, d <:+ during → (course (d ++ watchdogFires s :: earlier)).overwrites = false) := by
  have hhead : (loopProof h w).head .init .starting := rfl
  obtain ⟨htraced, hat⟩ := (loopProof h w).reach hhead hreach
  obtain ⟨hcourse, -⟩ := (courseProof h w).reach ⟨nofun, rfl⟩ hreach
  have hlinked := htraced.linked
  have haccepted := htraced.accepted
  have hcourses := hcourse.accepted
  rw [hfires] at hlinked haccepted hcourses
  have hwatchdog : ∀ {e a s}, .call .watchdog e a s ∈ later → e.ofWatchdog := by
    intro e a s hmem
    exact htraced.watchdog (hfires ▸ List.mem_append_left _ hmem)
  have hstays := staysFailed_iff hlinked hwatchdog
  refine ⟨fun hnever => hstays.mpr (forall_storesFailed hcourses hnever), ?_⟩
  rintro after during rfl hstamped
  rw [List.append_assoc] at hfires hlinked haccepted hcourses
  have hbase := haccepted.of_append
  constructor
  · rintro ⟨hstay, -⟩
    have hstores := hstays.mp hstay
    exact forall_not_overwrites hcourses.of_append
      (fun x hx => hstores x (List.mem_append_right _ hx))
      (not_overwrites_of_stamped hbase hstamped)
  · intro hnever
    have hstores := forall_storesFailed hcourses.of_append hnever
    have hduring : ∀ {e a s}, .call .watchdog e a s ∈ during → e.ofWatchdog :=
      fun hmem => hwatchdog (List.mem_append_right _ hmem)
    obtain ⟨hstay, hreturning, hselect⟩ := returning_after hlinked haccepted
      (fun hmem => hwatchdog (List.mem_append_left _ hmem))
      (fun s' hs' => ((staysFailed_iff hs' hduring).mpr hstores).1) hstamped
    rw [← hfires] at hreturning
    -- some step was taken, which gives the choices `ch` that the rest of the run needs
    obtain ⟨s₁, hs₁⟩ := hlinked.of_append
    obtain ⟨s₂, ⟨ch, _⟩, _⟩ := hs₁.of_append
    refine ⟨⟨hstay.1, fun x hx => ?_⟩, hselect, fun st hst => ?_,
      canReturn_of_returning ch hat hreturning hstay.1⟩
    · rcases List.mem_append.mp hx with hx | hx
      · exact hstay.2 x hx
      · exact ((staysFailed_iff hs₁ hduring).mpr hstores).2 x hx
    · -- a `Run` that has returned has done so with the state that it had checked
      rw [hst] at hat
      obtain ⟨hclosed, rfl⟩ := loopFinal_of_returning hreturning.of_registered hat
      refine ⟨rfl, ?_⟩
      rw [hclosed] at hreturning
      exact hreturning

/-! ### The watchdog fires during a handler -/

/-- The answers at a time: the modem fails every command of the main loop. -/
def stallAnswer (ns : ℤ) (selected : Selected) (st : State) : (e : Call) → e.Ans
  | .now => ns
  | .execute .storageStatus => .error (.timeout (At.Cmd.text .storageStatus))
  | .execute .signalQuality => .error (.timeout (At.Cmd.text .signalQuality))
  | e => plainAnswer selected none st e

/-- A number of calls of `Run`, with these answers. -/
def stallCalls (n : ℕ) (ns : ℤ) (selected : Selected) (st : State) :
    List (System.Move Thread Call Call.Ans Unit Outer) :=
  List.replicate n (.call .worker () (stallAnswer ns selected st))

/-- The handler of a case is at its first calls when the time limit passes and the watchdog
fires. -/
def stallMoves (n : ℕ) (selected : Selected) : List (System.Move Thread Call Call.Ans Unit Outer) :=
  plainStart ++ stallCalls n 0 selected .active ++ .env (.tick 300000000001) ::
    List.replicate 4 (.call .watchdog () (stallAnswer 300000000001 .ctxDone .active))

/-- The modem does not answer the capacity check, which stores no state: `Run` ends. -/
theorem failed_terminal_iff_capacity :
    ∃ (c : RecordedConfig Unit) (after during earlier : History Unit) (s : World Unit),
      plainSystem.recorded.Reach (plainSystem.recorded.start ⟨World.new (), []⟩ entry) c ∧
      c.state.history = after ++ during ++ watchdogFires s :: earlier ∧
      loopStage (watchdogFires s :: earlier) = .handling ∧
      loopStage (during ++ watchdogFires s :: earlier) = .stamped ∧
      c.threads .worker = .stopped (.run .failed) ∧
      StaysFailed c.state.state (after ++ during) := by
  have hplay : ∃ c, plainSystem.recorded.play
      (plainSystem.recorded.start ⟨World.new (), []⟩ entry)
      (stallMoves 1 .capacity ++ stallCalls 6 300000000001 .capacity .failed ++ [.jump .worker]) =
        some c ∧
      ∃ (after during earlier : History Unit) (s : World Unit),
        c.state.history = after ++ during ++ watchdogFires s :: earlier ∧
        loopStage (watchdogFires s :: earlier) = .handling ∧
        loopStage (during ++ watchdogFires s :: earlier) = .stamped ∧
        c.threads .worker = .stopped (.run .failed) ∧
        during.tails.all (fun d => !(course (d ++ watchdogFires s :: earlier)).overwrites) = true :=
    ⟨_, rfl, [_, _, _], [_, _, _], _, _, rfl, rfl, rfl, rfl, rfl⟩
  obtain ⟨c, hplay, after, during, earlier, s, hfires, hhandling, hstamped, hstop, hnever⟩ := hplay
  have hreach := System.reach_of_play hplay
  refine ⟨c, after, during, earlier, s, hreach, hfires, hhandling, hstamped, hstop, ?_⟩
  refine (((failed_terminal_iff .plain .plain _ hreach hfires).2 after during rfl hstamped).mpr
    fun d hd => ?_).1
  have hquiet := List.all_eq_true.mp hnever d ((List.mem_tails d during).mpr hd)
  exact Bool.not_eq_true' _ ▸ hquiet

/-- A task is being executed: `executeTask` stores the state that it found, and `Run` goes on. -/
theorem not_failed_terminal_task :
    ∃ (c : RecordedConfig Unit) (later earlier : History Unit) (s : World Unit),
      plainSystem.recorded.Reach (plainSystem.recorded.start ⟨World.new (), []⟩ entry) c ∧
      c.state.history = later ++ watchdogFires s :: earlier ∧
      loopStage (watchdogFires s :: earlier) = .handling ∧
      loopStage c.state.history = .checked .active ∧ c.state.state.state = .active := by
  have hplay : ∃ c, plainSystem.recorded.play
      (plainSystem.recorded.start ⟨World.new (), []⟩ entry)
      (stallMoves 3 (.task plainTask) ++ stallCalls 7 300000000001 (.task plainTask) .active) =
        some c ∧
      ∃ (later earlier : History Unit) (s : World Unit),
        c.state.history = later ++ watchdogFires s :: earlier ∧
        loopStage (watchdogFires s :: earlier) = .handling ∧
        loopStage c.state.history = .checked .active ∧ c.state.state.state = .active :=
    ⟨_, rfl, [_, _, _, _, _, _, _], _, _, rfl, rfl, rfl, rfl⟩
  obtain ⟨c, hplay, later, earlier, s, hend⟩ := hplay
  exact ⟨c, later, earlier, s, System.reach_of_play hplay, hend⟩

end SmsGate.Modem
