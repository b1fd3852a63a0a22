import SmsGate.Modem.Equiv.Runs

/-!
# What a handler is about to do to the state

A handler of the main loop stores states at fixed points: a task stores `EXECUTING` and, at its end,
the state that it found; a recovery, a reset and a ban store states of their own.  Which of these
stores are still to come depends on the case that was selected and on what the modem has answered so
far.  The protocol of this module follows that (`courseProtocol`, `courseProof`).

* `forall_storesFailed`: as long as no store of another state than `FAILED` is to come, none is
  made;
* `forall_not_overwrites`: if none has been made and none is to come, none was to come before.
-/

namespace SmsGate.Modem

open Go Go.Strings

/-! ### The courses -/

/-- What `Run` still does to the state. -/
inductive Course where
  /-- Nothing: no handler is running, or one that stores no state but `FAILED` any more. -/
  | quiet
  /-- `init` has come through and stores `ACTIVE`. -/
  | starting
  /-- A task was taken, and its handler loads the state. -/
  | accepted
  /-- The handler stores `EXECUTING`. -/
  | loaded (prev : State)
  /-- The task is executed; the state that was found is stored afterwards. -/
  | executing (prev : State)
  /-- `enterBanned` is called. -/
  | banning
  /-- The keepalive waits for the registration. -/
  | asking
  /-- `enterRecovery` is called, and has come to no end. -/
  | recovering
  /-- `enterReset` is called. -/
  | resetting
  /-- It waits for the hard reset. -/
  | rebooting
  /-- The modem restarts, and `INITIALIZING` is stored. -/
  | rebooted
  deriving DecidableEq

namespace Course

/-- A store of another state than `FAILED` is to come, whatever the modem answers. -/
def overwrites : Course → Bool
  | quiet | asking | rebooting => false
  | executing prev => prev ≠ .failed
  | _ => true

/-- A URC by which the network denies the registration, as `handleURC` reads it. -/
def denies (urc : At.Line) : Bool :=
  !hasPrefix urc (lit "+CMTI:") && (6 < urc.length && hasPrefix urc (lit "+CREG:")) &&
    At.parseCREG urc = 3

/-- The handler of a case. -/
def ofSelected : Selected → Course
  | .urc line => if denies line then banning else quiet
  | .task _ => accepted
  | .keepalive => asking
  | .reset => resetting
  | .ctxDone | .capacity | .signal => quiet

/-- The keepalive after the answer to `AT+CREG?`. -/
def afterStatus (answer : Except At.Err (List At.Line)) : Course :=
  match answer.bind At.registrationOf with
  | .error _ => recovering
  | .ok stat => if stat = 3 then banning else quiet

/-- A command was answered: it has failed, or not. -/
def afterOutcome (failed done : Course) : Except At.Err (List At.Line) → Course
  | .error _ => failed
  | .ok _ => done

/-- The state was loaded. -/
def found (st : State) : Course → Course
  | accepted => loaded st
  | q => q

/-- A state was stored. -/
def stored (st : State) : Course → Course
  | starting => if st = .active then quiet else starting
  | loaded prev => if st = .executing then executing prev else loaded prev
  | executing prev => if st = prev then quiet else executing prev
  | banning => if st = .banned then quiet else banning
  | recovering => if st = .active then quiet else recovering
  | resetting => if st = .resetting then rebooting else resetting
  | rebooted => if st = .initializing then quiet else rebooted
  | q => q

/-- The modem has answered a command. -/
def answered (c : At.Cmd) (answer : Except At.Err (List At.Line)) : Course → Course
  | asking => if c = .registrationStatus then afterStatus answer else asking
  | recovering =>
    if c = .radioOff ∨ c = .radioOn ∨ c = .ping then afterOutcome resetting recovering answer
    else recovering
  | rebooting => if c = .hardReset then afterOutcome quiet rebooted answer else rebooting
  | q => q

/-- What is still to come after a call. -/
def next (q : Course) : (e : Call) → e.Ans → Course
  | .select, (selected : Selected) => ofSelected selected
  | .storeLastLoop _, _ => quiet
  | .register _, _ => starting
  | .loadState, (st : State) => q.found st
  | .storeState st, _ => q.stored st
  | .execute c, (answer : Except At.Err (List At.Line)) => q.answered c answer
  | _, _ => q

end Course

/-- Only a handler with a store to come stores another state than `FAILED`, and it does not end
before. -/
def courseProtocol : Protocol Call Call.Ans Course where
  allows q e :=
    match e with
    | .storeState st => st = .failed ∨ q.overwrites
    | .select | .storeLastLoop _ => q.overwrites = false
    | _ => True
  next := Course.next

/-- What is still to come after a history. -/
def course {O : Type} (past : History O) : Course :=
  System.follow courseProtocol .worker .quiet past

/-! ### Calls that change no course -/

/-- The calls that no course depends on. -/
def Call.offCourse : Call → Bool
  | .select | .storeState _ | .storeLastLoop _ | .register _ | .loadState | .execute _ => false
  | _ => true

theorem steady_of_offCourse {e : Call} (he : e.offCourse = true) (q : Course) :
    courseProtocol.allows q e ∧ ∀ a, courseProtocol.next q e a = q := by
  cases e with
  | select | storeState | storeLastLoop | register | loadState | execute => cases he
  | _ => exact ⟨trivial, fun _ => rfl⟩

/-- The courses that no answer of the modem changes. -/
def Course.deaf : Course → Bool
  | .asking | .recovering | .rebooting => false
  | _ => true

theorem steady_execute {q : Course} (hq : q.deaf = true) (c : At.Cmd) :
    courseProtocol.allows q (.execute c) ∧
      ∀ a, courseProtocol.next q (.execute c) a = q := by
  refine ⟨trivial, fun _ => ?_⟩
  cases q with
  | asking | recovering | rebooting => cases hq
  | _ => rfl

/-- The calls of a handler between its stores. -/
def Call.stateless : Call → Bool
  | .execute _ => true
  | e => e.offCourse

theorem stateless_of_minor (e : Call) (he : e.minor = true) : e.stateless = true := by
  cases e with
  | select | storeState | storeLastLoop | register | loadState => cases he
  | _ => rfl

theorem stateless_of_receives (e : Call) (he : e.receives = true) : e.stateless = true := by
  cases e with
  | insert | event | execute => rfl
  | _ => cases he

theorem steady_of_stateless {q : Course} (hq : q.deaf = true) (e : Call) (he : e.stateless = true) :
    courseProtocol.allows q e ∧ ∀ a, courseProtocol.next q e a = q := by
  by_cases hc : ∃ c, e = .execute c
  · obtain ⟨c, rfl⟩ := hc
    exact steady_execute hq c
  · refine steady_of_offCourse ?_ q
    cases e with
    | execute c => exact absurd ⟨c, rfl⟩ hc
    | _ => exact he

/-- A handler that is on a course comes to its end with nothing more to store. -/
def Settles {α : Type} (p : Work α) (q : Course) : Prop :=
  p.Obeys courseProtocol q fun _ q' => q' = .quiet

theorem settles_of_calls {α : Type} {p : Work α} (hp : p.Calls fun e => e.stateless = true) :
    Settles p .quiet :=
  hp.obeys (steady_of_stateless rfl) fun _ => rfl

/-- A call that changes nothing, in front of a program. -/
theorem settles_ask_bind {α : Type} {e : Call} {f : e.Ans → Work α} {q : Course}
    (he : e.offCourse = true) (hf : ∀ a, Settles (f a) q) : Settles (ask e >>= f) q := by
  refine Prog.perform_bind_obeys (steady_of_offCourse he q).1 fun a => ?_
  rw [(steady_of_offCourse he q).2]
  exact hf a

/-- A query that changes nothing, in front of a program. -/
theorem settles_query_bind {α β : Type} {c : At.Cmd} {parse : List At.Line → Except At.Err α}
    {f : Except At.Err α → Work β} {q : Course} (hq : q.deaf = true)
    (hf : ∀ res, Settles (f res) q) : Settles (At.query execute c parse >>= f) q := by
  refine Prog.perform_bind_obeys trivial fun (answer : Except At.Err (List At.Line)) => ?_
  rw [(steady_execute hq c).2 answer]
  exact hf (answer.bind parse)

/-! ### The handlers -/

section Handlers

variable (h : Host) (w : Worker) (id : Identity)

theorem settles_pushAlert (iccid : List UInt8) (alertCode : Tunnel.AlertCode)
    (detail : List UInt8) : Settles (pushAlert iccid alertCode detail) .quiet :=
  settles_of_calls ((calls_newEnvelope stateless_of_minor _).bind fun _ => calls_ask rfl)

theorem settles_enterBanned (detail : List UInt8) : Settles (enterBanned id detail) .banning :=
  Prog.perform_bind_obeys (.inr rfl) fun _ => settles_pushAlert _ _ _

theorem settles_enterReset : Settles (enterReset id) .resetting := by
  refine Prog.perform_bind_obeys (.inr rfl) fun _ => ?_
  refine Prog.perform_bind_obeys trivial fun (answer : Except At.Err (List At.Line)) => ?_
  cases answer with
  | error e => exact Prog.perform_bind_obeys (.inl rfl) fun _ => settles_pushAlert _ _ _
  | ok lines =>
    exact settles_ask_bind rfl fun _ => Prog.perform_bind_obeys (.inr rfl) fun _ => rfl

theorem settles_enterRecovery : Settles (enterRecovery id) .recovering := by
  refine Prog.perform_bind_obeys (.inr rfl) fun _ => ?_
  refine Prog.perform_bind_obeys trivial fun (off : Except At.Err (List At.Line)) => ?_
  cases off with
  | error e => exact settles_enterReset id
  | ok lines =>
    refine settles_ask_bind rfl fun _ => ?_
    refine Prog.perform_bind_obeys trivial fun (on : Except At.Err (List At.Line)) => ?_
    cases on with
    | error e => exact settles_enterReset id
    | ok lines =>
      refine settles_ask_bind rfl fun _ => ?_
      refine Prog.perform_bind_obeys trivial fun (ping : Except At.Err (List At.Line)) => ?_
      cases ping with
      | error e => exact settles_enterReset id
      | ok lines =>
        exact Prog.perform_bind_obeys trivial fun _ =>
          Prog.perform_bind_obeys (.inr rfl) fun _ => rfl

theorem settles_handleURC (line : At.Line) :
    Settles (handleURC h w id line) (.ofSelected (.urc line)) := by
  unfold handleURC
  by_cases hcmti : hasPrefix line (lit "+CMTI:")
  · have hquiet : Course.ofSelected (.urc line) = .quiet := by
      simp [Course.ofSelected, Course.denies, hcmti]
    rw [if_pos hcmti, hquiet]
    refine settles_of_calls ?_
    cases At.parseCMTI line with
    | error e => exact Prog.calls_pure _
    | ok idx =>
      exact calls_receiveSMS stateless_of_minor h w id idx fun e he _ => stateless_of_receives e he
  · rw [if_neg hcmti]
    by_cases hcreg : 6 < line.length ∧ hasPrefix line (lit "+CREG:")
    · have hdenies : Course.ofSelected (.urc line) =
          if At.parseCREG line = 3 then .banning else .quiet := by
        simp [Course.ofSelected, Course.denies, hcmti, hcreg]
      rw [if_pos hcreg, hdenies]
      generalize At.parseCREG line = stat
      refine settles_ask_bind rfl fun _ => ?_
      split_ifs
      · exact settles_enterBanned id line
      · exact rfl
    · have hquiet : Course.ofSelected (.urc line) = .quiet := by
        simp only [Course.ofSelected, Course.denies, Bool.and_eq_true, decide_eq_true_eq]
        exact if_neg fun hdenies => hcreg hdenies.1.2
      rw [if_neg hcreg, hquiet]
      exact rfl

theorem settles_executeTask (it : InboundTask) : Settles (executeTask h id it) .accepted := by
  refine Prog.perform_bind_obeys trivial fun (prev : State) => ?_
  refine Prog.perform_bind_obeys (.inr rfl) fun _ => ?_
  have hdo : (doTask h id it.task).Calls fun e => e.stateless = true :=
    calls_doTask stateless_of_minor h id it.task rfl (fun _ _ => rfl) rfl rfl rfl rfl (fun _ => rfl)
      rfl fun _ _ _ => rfl
  refine hdo.bind_obeys (steady_of_stateless rfl) fun res => ?_
  refine settles_ask_bind rfl fun _ => settles_ask_bind rfl fun _ => ?_
  refine Prog.perform_bind_obeys ?_ fun _ => if_pos rfl
  -- what was found is stored again: `FAILED`, or a state that overwrites it
  by_cases hprev : prev = .failed
  · exact .inl hprev
  · exact .inr (decide_eq_true hprev)

theorem settles_runKeepalive : Settles (runKeepalive id) .asking := by
  refine Prog.perform_bind_obeys trivial fun (answer : Except At.Err (List At.Line)) => ?_
  change Settles _ (Course.afterStatus answer)
  unfold Course.afterStatus
  cases answer.bind At.registrationOf with
  | error e => exact settles_enterRecovery id
  | ok stat =>
    refine settles_ask_bind rfl fun _ => ?_
    dsimp only
    have hban : Settles (if stat = 3 then enterBanned id (lit "+CREG: " ++ Strconv.decimal stat ++
        lit " (Registration denied)") else pure ()) (if stat = 3 then .banning else .quiet) := by
      split_ifs
      · exact settles_enterBanned id _
      · exact rfl
    have hdeaf : (if stat = 3 then Course.banning else .quiet).deaf = true := by
      split_ifs <;> rfl
    refine settles_query_bind hdeaf fun signal => ?_
    cases signal with
    | error e => exact hban
    | ok rssi => exact settles_ask_bind rfl fun _ => hban

/-- Every handler keeps to its course. -/
theorem settles_handle (selected : Selected) :
    Settles (handle h w id selected) (.ofSelected selected) := by
  cases selected with
  | ctxDone => exact rfl
  | urc line => exact settles_handleURC h w id line
  | task it => exact settles_executeTask h id it
  | keepalive => exact settles_runKeepalive id
  | capacity => exact settles_of_calls (calls_checkCapacity stateless_of_minor w id)
  | signal => exact settles_of_calls (calls_pollSignalStrength stateless_of_minor fun _ _ _ => rfl)
  | reset => exact settles_enterReset id

end Handlers

/-! ### `Run` -/

/-- Where the blocks of `Run` start, and where it returns. -/
def courseHead (l : Label) (q : Course) : Prop := l ≠ .watchdog ∧ q = .quiet

theorem init_obeys_course (h : Host) (w : Worker) :
    (init h w).Obeys courseProtocol .quiet (RunEnds courseHead fun _ q => q = .quiet) := by
  refine Prog.perform_bind_obeys trivial fun (opened : Bool) => ?_
  split_ifs
  · have hsequence : (runInitSequence execute (fun ms => ask (.sleep ms)) h.caseTable
        w.expectedICCID).Calls fun e => e.stateless = true :=
      calls_runInitSequence stateless_of_minor _ _ rfl rfl
    refine hsequence.bind_obeys (steady_of_stateless rfl) fun res => ?_
    cases res with
    | error e => exact Prog.perform_bind_obeys (.inl rfl) fun _ => rfl
    | ok id =>
      refine Prog.perform_bind_obeys trivial fun _ => Prog.perform_bind_obeys trivial fun _ => ?_
      refine Prog.perform_bind_obeys (.inr rfl) fun _ => Prog.perform_bind_obeys trivial fun _ => ?_
      refine Prog.perform_bind_obeys trivial fun _ => Prog.perform_bind_obeys rfl fun _ => ?_
      exact Prog.perform_bind_obeys trivial fun _ => ⟨nofun, rfl⟩
  · exact Prog.perform_bind_obeys (.inl rfl) fun _ => rfl

/-- `Run` keeps to the courses. -/
def courseProof (h : Host) (w : Worker) : RunProof h w courseProtocol where
  head := courseHead
  final _ q := q = .quiet
  not_watchdog _ hq := hq.1 rfl
  init_obeys q hq := by
    obtain ⟨-, rfl⟩ := hq
    exact init_obeys_course h w
  main_obeys id q hq := by
    obtain ⟨-, rfl⟩ := hq
    refine mainLoop_obeys_of_keeps h w id (I := (· = Course.quiet)) rfl ⟨trivial, nofun, rfl⟩
      (settles_handle h w id) (fun q e hq he => ?_) (fun _ hq => ⟨nofun, hq⟩) fun _ _ hq => hq
    subst hq
    cases e with
    | storeLastLoop => exact ⟨rfl, fun _ => rfl⟩
    | now | loadState | closeWatchdog | deregister => exact ⟨trivial, fun _ => rfl⟩
    | _ => cases he
  drain_obeys q hq := by
    obtain ⟨-, rfl⟩ := hq
    refine drainInboundCh_obeys_of_keeps (I := (· = Course.quiet)) (fun q e hq he => ?_) rfl
      (fun _ hq => ⟨nofun, hq⟩) fun _ hq => hq
    subst hq
    refine steady_of_offCourse ?_ _
    cases e with
    | select | storeState | storeLastLoop | register | loadState | execute => cases he
    | _ => rfl

/-! ### Stores along a history -/

section History

variable {O : Type}

/-- It is not `Run` that stores another state than `FAILED`. -/
def storesFailed : System.Occurrence Thread (World O) Call Call.Ans Outer → Bool
  | .call .worker (.storeState st) _ _ => st = .failed
  | _ => true

variable {later base : History O}

/-- A course on which no store is to come makes none. -/
theorem storesFailed_of_allows {q : Course} {e : Call} {a : e.Ans} {s : World O}
    (hq : q.overwrites = false) (hallow : courseProtocol.allows q e) :
    storesFailed (.call .worker e a s) = true := by
  cases e with
  | storeState st =>
    refine decide_eq_true (Or.resolve_right hallow ?_)
    rw [hq]
    exact Bool.false_ne_true
  | _ => rfl

/-- A store that is to come stays so until another state than `FAILED` is stored. -/
theorem overwrites_next {q : Course} {e : Call} {a : e.Ans} {s : World O}
    (hq : q.overwrites = true) (hallow : courseProtocol.allows q e)
    (hstores : storesFailed (.call .worker e a s) = true) :
    (courseProtocol.next q e a).overwrites = true := by
  cases e with
  | select | storeLastLoop =>
    rw [show q.overwrites = false from hallow] at hq
    cases hq
  | register => rfl
  | loadState =>
    change (q.found a).overwrites = true
    cases q with
    | accepted => rfl
    | _ => exact hq
  | storeState st =>
    obtain rfl : st = .failed := of_decide_eq_true hstores
    change (q.stored .failed).overwrites = true
    cases q with
    | executing prev =>
      have hprev : prev ≠ .failed := of_decide_eq_true hq
      rw [Course.stored, if_neg (Ne.symm hprev)]
      exact hq
    | _ => exact hq
  | execute c =>
    change (q.answered c a).overwrites = true
    cases q with
    | asking | rebooting => cases hq
    | recovering =>
      unfold Course.answered
      dsimp only
      split_ifs
      · cases a <;> rfl
      · rfl
    | _ => exact hq
  | _ => exact hq

/-- As long as no store is to come, none is made. -/
theorem forall_storesFailed
    (haccepted : System.Accepted courseProtocol .worker .quiet (later ++ base))
    (hcourse : ∀ d, d <:+ later → (course (d ++ base)).overwrites = false) :
    ∀ x ∈ later, storesFailed x = true := by
  induction later with
  | nil => exact List.forall_mem_nil _
  | cons x later ih =>
    refine List.forall_mem_cons.mpr ⟨?_, ih haccepted.tail fun d hd =>
      hcourse d (hd.trans (List.suffix_cons x later))⟩
    have hbefore := hcourse later (List.suffix_cons x later)
    cases x with
    | call t e a s =>
      cases t with
      | worker => exact storesFailed_of_allows hbefore (haccepted.1 rfl)
      | watchdog => exact rfl
    | env v s => exact rfl
    | crash t s => exact rfl

/-- A store that was to come has been made, unless it is still to come. -/
theorem forall_not_overwrites
    (haccepted : System.Accepted courseProtocol .worker .quiet (later ++ base))
    (hstores : ∀ x ∈ later, storesFailed x = true)
    (hend : (course (later ++ base)).overwrites = false) :
    ∀ d, d <:+ later → (course (d ++ base)).overwrites = false := by
  induction later with
  | nil =>
    intro d hd
    rw [List.suffix_nil.mp hd]
    exact hend
  | cons x later ih =>
    obtain ⟨hx, hrest⟩ := List.forall_mem_cons.mp hstores
    intro d hd
    rcases List.suffix_cons_iff.mp hd with rfl | hd
    · exact hend
    · refine ih haccepted.tail hrest ?_ d hd
      cases x with
      | call t e a s =>
        cases t with
        | worker =>
          refine Bool.eq_false_iff.mpr fun hbefore => ?_
          have hafter := overwrites_next hbefore (haccepted.1 rfl) hx
          rw [show (courseProtocol.next (course (later ++ base)) e a).overwrites = false from hend]
            at hafter
          cases hafter
        | watchdog => exact hend
      | env v s => exact hend
      | crash t s => exact hend

end History

end SmsGate.Modem
