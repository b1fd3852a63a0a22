import SmsGate.Modem.Equiv.Port
import SmsGate.Modem.Equiv.Watchdog

/-!
# The recovery ladder

When the registration query fails, `enterRecovery` takes the radio off and on again and pings the
modem; the first of these commands that fails leads to `enterReset`, and a hard reset that fails to
`FAILED`.  All of them go through one serializer, and a command that has timed out has closed its
port.  So `AT+CFUN=1,1` is written only if none of the commands before it has timed out
(`hardReset_written`).

* `Rung`, `ladderProtocol`: how far `Run` is on the ladder;
* `Climb`: what has been done to the port up to there.
-/

namespace SmsGate.Modem

open At.Serializer (CallConfig Moves Wrote Refused Unclosed Sound losesPort crlf)

/-! ### How far `Run` is -/

/-- A command has timed out. -/
def timedOut : Except At.Err (List At.Line) → Bool
  | .error (.timeout _) => true
  | _ => false

/-- How far `Run` is on the ladder; `late` says that one of its commands has timed out. -/
inductive Rung where
  /-- The keepalive was not selected. -/
  | elsewhere
  | polled
  /-- The registration query was answered. -/
  | answered
  /-- The registration query has failed. -/
  | failed (late : Bool)
  | recovering (late : Bool)
  | resetting (late : Bool)
  /-- The hard reset has failed, and `FAILED` is stored. -/
  | refused (late : Bool)
  | down (late : Bool)
  /-- The recovery or the hard reset was a success. -/
  | settled

namespace Rung

/-- Whether a command has timed out, on the ladder. -/
def late : Rung → Option Bool
  | failed late | recovering late | resetting late | refused late | down late => some late
  | _ => none

/-- `Run` after a command on the ladder. -/
def after (q : Rung) (c : At.Cmd) (res : Except At.Err (List At.Line)) : Rung :=
  match q, res with
  | polled, .error _ => failed (timedOut res)
  | polled, .ok _ => answered
  | recovering late, _ => if c = .setPDUMode then settled else recovering (late || timedOut res)
  | resetting late, .error _ => refused late
  | resetting _, .ok _ => settled
  | q, _ => q

/-- `Run` after a call. -/
def next (q : Rung) : (e : Call) → e.Ans → Rung
  | .select, (selected : Selected) => if selected = .keepalive then polled else elsewhere
  | .execute c, (res : Except At.Err (List At.Line)) => q.after c res
  | .storeState st, _ =>
    match q, st with
    | failed late, .recovering => recovering late
    | recovering late, .resetting => resetting late
    | refused late, .failed => down late
    | q, _ => q
  | _, _ => q

/-- The calls that `Run` may make when it is so far. -/
def Allows (q : Rung) (e : Call) : Prop :=
  match q with
  | elsewhere => True
  | polled => e = .execute .registrationStatus
  | answered => e ≠ .execute .registrationStatus
  | failed _ => e = .storeState .recovering
  | recovering _ =>
    (∃ c ∈ [At.Cmd.radioOff, .radioOn, .ping, .setPDUMode], e = .execute c) ∨
      (∃ ms, e = .sleep ms) ∨ e = .storeState .resetting
  | resetting _ => e = .execute .hardReset
  | refused _ => e = .storeState .failed
  | down _ => e.onSerializer = false
  | settled => e ≠ .storeState .failed ∧ e ≠ .execute .registrationStatus

/-- A handler has returned. -/
def Off (q : Rung) : Prop :=
  q = elsewhere ∨ q = answered ∨ q = settled ∨ ∃ late, q = down late

end Rung

/-- How `Run` climbs the ladder. -/
def ladderProtocol : Protocol Call Call.Ans Rung where
  allows q e := q.Allows e
  next q e a := q.next e a

section Code

variable {q : Rung}

/-- The calls between a handler and the next `select`, and those of an alert. -/
def Call.between : Call → Bool
  | .newUUID | .event _ | .now | .storeLastLoop _ | .loadState | .deregister _
  | .closeWatchdog => true
  | _ => false

theorem Rung.Off.between (hq : q.Off) (e : Call) (he : e.between = true) :
    ladderProtocol.allows q e ∧ ∀ a, ladderProtocol.next q e a = q := by
  cases e with
  | newUUID | event | now | storeLastLoop | loadState | deregister | closeWatchdog =>
    refine ⟨?_, fun _ => rfl⟩
    rcases hq with rfl | rfl | rfl | ⟨late, rfl⟩
    · trivial
    · exact nofun
    · exact ⟨nofun, nofun⟩
    · rfl
  | _ => cases he

theorem pushAlert_between (iccid : List UInt8) (alertCode : Tunnel.AlertCode)
    (detail : List UInt8) : (pushAlert iccid alertCode detail).Calls fun e => e.between = true := by
  refine Prog.Calls.bind (p := newEnvelope .modemAlert) ?_ fun _ => calls_ask rfl
  refine Prog.Calls.bind (p := ask .newUUID) (calls_ask rfl) fun _ => ?_
  exact Prog.Calls.bind (p := ask .now) (calls_ask rfl) fun _ => Prog.calls_pure _

theorem enterReset_obeys_ladder (id : Identity) (late : Bool) :
    (enterReset id).Obeys ladderProtocol (.recovering late) fun _ q => q.Off := by
  refine Prog.perform_bind_obeys (.inr (.inr rfl)) fun _ => ?_
  refine Prog.perform_bind_obeys rfl fun (res : Except At.Err (List At.Line)) => ?_
  cases res with
  | error e =>
    refine Prog.perform_bind_obeys rfl fun _ => ?_
    have hdown : Rung.Off (.down late) := .inr (.inr (.inr ⟨late, rfl⟩))
    exact (pushAlert_between _ _ _).obeys hdown.between fun _ => hdown
  | ok lines =>
    refine Prog.perform_bind_obeys ⟨nofun, nofun⟩ fun _ => ?_
    exact Prog.perform_bind_obeys ⟨nofun, nofun⟩ fun _ => .inr (.inr (.inl rfl))

theorem enterRecovery_obeys_ladder (id : Identity) (late : Bool) :
    (enterRecovery id).Obeys ladderProtocol (.failed late) fun _ q => q.Off := by
  have hreset := enterReset_obeys_ladder id
  refine Prog.perform_bind_obeys rfl fun _ => ?_
  refine Prog.perform_bind_obeys (.inl ⟨.radioOff, by decide, rfl⟩)
    fun (off : Except At.Err (List At.Line)) => ?_
  cases off with
  | error e => exact hreset _
  | ok lines =>
    refine Prog.perform_bind_obeys (.inr (.inl ⟨2000, rfl⟩)) fun _ => ?_
    refine Prog.perform_bind_obeys (.inl ⟨.radioOn, by decide, rfl⟩)
      fun (on : Except At.Err (List At.Line)) => ?_
    cases on with
    | error e => exact hreset _
    | ok lines =>
      refine Prog.perform_bind_obeys (.inr (.inl ⟨5000, rfl⟩)) fun _ => ?_
      refine Prog.perform_bind_obeys (.inl ⟨.ping, by decide, rfl⟩)
        fun (ping : Except At.Err (List At.Line)) => ?_
      cases ping with
      | error e => exact hreset _
      | ok lines =>
        refine Prog.perform_bind_obeys (.inl ⟨.setPDUMode, by decide, rfl⟩) fun mode => ?_
        exact Prog.perform_bind_obeys ⟨nofun, nofun⟩ fun _ => .inr (.inr (.inl rfl))

/-- The calls of a handler that do not query the registration. -/
def Call.queryless (e : Call) : Prop := e.ofHandler = true ∧ e ≠ .execute .registrationStatus

theorem queryless_of_minor (e : Call) (he : e.minor = true) : e.queryless := by
  refine ⟨ofHandler_of_minor e he, ?_⟩
  rintro rfl
  cases he

theorem next_of_ofHandler {e : Call} (he : e.ofHandler = true) (a : e.Ans)
    (hq : q = .elsewhere ∨ q = .answered) : q.next e a = q := by
  cases e with
  | select => cases he
  | storeState st => rcases hq with rfl | rfl <;> rfl
  | execute c => rcases hq with rfl | rfl <;> rfl
  | _ => rfl

/-- A handler once the registration query was answered. -/
theorem obeys_answered {α : Type} {p : Work α} (hp : p.Calls Call.queryless) :
    p.Obeys ladderProtocol .answered fun _ q => q.Off :=
  hp.obeys (fun _ he => ⟨he.2, fun a => next_of_ofHandler he.1 a (.inr rfl)⟩)
    fun _ => .inr (.inl rfl)

theorem runKeepalive_obeys_ladder (id : Identity) :
    (runKeepalive id).Obeys ladderProtocol .polled fun _ q => q.Off := by
  refine Prog.perform_bind_obeys rfl fun (res : Except At.Err (List At.Line)) => ?_
  cases res with
  | error e => exact enterRecovery_obeys_ladder id _
  | ok lines =>
    have hrecovery : (enterRecovery id).Calls Call.queryless :=
      calls_enterRecovery queryless_of_minor id (fun _ => ⟨rfl, nofun⟩) ⟨rfl, nofun⟩ ⟨rfl, nofun⟩
        ⟨rfl, nofun⟩ ⟨rfl, nofun⟩
        (calls_enterReset queryless_of_minor id (fun _ => ⟨rfl, nofun⟩) ⟨rfl, nofun⟩)
    refine obeys_answered ?_
    dsimp only [pure, Prog.bind, Except.bind]
    cases At.registrationOf lines with
    | error e => exact hrecovery
    | ok stat =>
      have hban := calls_enterBanned_if queryless_of_minor id stat ⟨rfl, nofun⟩
        fun _ => ⟨rfl, nofun⟩
      refine (calls_ask ⟨rfl, nofun⟩).bind fun _ =>
        (calls_query (queryless_of_minor _ rfl) _).bind fun rssi => ?_
      cases rssi with
      | error e => exact hban
      | ok rssi => exact (calls_ask ⟨rfl, nofun⟩).bind fun _ => hban

theorem handle_obeys_ladder (h : Host) (w : Worker) (id : Identity) (selected : Selected) :
    (handle h w id selected).Obeys ladderProtocol
      (if selected = .keepalive then .polled else .elsewhere) fun _ q => q.Off := by
  by_cases hkeepalive : selected = .keepalive
  · rw [if_pos hkeepalive, hkeepalive]
    exact runKeepalive_obeys_ladder id
  · rw [if_neg hkeepalive]
    exact (handle_calls h w id selected).obeys
      (fun e he => ⟨trivial, fun a => next_of_ofHandler he a (.inl rfl)⟩) fun _ => .inl rfl

/-- Where the blocks of `Run` start. -/
def ladderHead : Label → Rung → Prop
  | .init, q | .drain, q => q = .elsewhere
  | .main _, q => q.Off
  | .watchdog, _ => False

theorem mainLoop_obeys_ladder (h : Host) (w : Worker) (id : Identity) (hq : q.Off) :
    (mainLoop h w id).Obeys ladderProtocol q (RunEnds ladderHead fun _ _ => True) := by
  have hselect : ladderProtocol.allows q .select := by
    rcases hq with rfl | rfl | rfl | ⟨late, rfl⟩
    · trivial
    · exact nofun
    · exact ⟨nofun, nofun⟩
    · rfl
  refine mainLoop_obeys_of_keeps h w id (I := Rung.Off) hselect ⟨trivial, rfl⟩
    (handle_obeys_ladder h w id) (fun q e hq he => ?_) (fun _ hq => hq) fun _ _ _ => trivial
  -- none of the calls behind the handler moves `Run` on the ladder
  have hbetween : e.between = true := by
    cases e with
    | now | storeLastLoop | loadState | deregister | closeWatchdog => rfl
    | _ => cases he
  exact ⟨(hq.between e hbetween).1, fun a => ((hq.between e hbetween).2 a).symm ▸ hq⟩

/-- `Run` climbs the ladder as the protocol says. -/
def ladderProof (h : Host) (w : Worker) : RunProof h w ladderProtocol where
  head := ladderHead
  final _ _ := True
  not_watchdog _ hq := hq
  init_obeys q hq := by
    refine init_obeys_of_keeps h w (I := (· = Rung.elsewhere)) (fun q e hq he => ?_) hq
      (fun _ _ hq => .inl hq) fun _ _ => trivial
    subst hq
    refine ⟨trivial, fun a => ?_⟩
    cases e with
    | select => cases he
    | _ => rfl
  main_obeys id _ hq := mainLoop_obeys_ladder h w id hq
  drain_obeys q hq := by
    refine drainInboundCh_obeys_of_keeps (I := (· = Rung.elsewhere)) (fun q e hq he => ?_) hq
      (fun _ hq => hq) fun _ _ => trivial
    subst hq
    refine ⟨trivial, fun a => ?_⟩
    cases e with
    | select => cases he
    | _ => rfl

end Code

/-! ### What a history tells -/

section

variable {O : Type}

/-- A command other than the hard reset has timed out. -/
def timesOut : System.Occurrence Thread (World O) Call Call.Ans Outer → Bool
  | .call .worker (.execute c) res _ => c ≠ .hardReset && timedOut res
  | _ => false

/-- `Run` stores `FAILED`. -/
def entersFailed : System.Occurrence Thread (World O) Call Call.Ans Outer → Bool
  | .call .worker (.storeState .failed) _ _ => true
  | _ => false

/-- `Run` after a history. -/
def rung (past : History O) : Rung := System.follow ladderProtocol .worker .elsewhere past

theorem next_ne_elsewhere {q : Rung} {e : Call} (he : e ≠ .select) (a : e.Ans)
    (hq : q ≠ .elsewhere) : q.next e a ≠ .elsewhere := by
  cases e with
  | select => exact absurd rfl he
  | execute c =>
    intro h
    change q.after c a = .elsewhere at h
    cases q with
    | elsewhere => exact hq rfl
    | polled | resetting => cases a <;> cases h
    | recovering late =>
      unfold Rung.after at h
      dsimp only at h
      split_ifs at h
    | _ => cases h
  | storeState st =>
    intro h
    unfold Rung.next at h
    dsimp only at h
    split at h
    · cases h
    · cases h
    · cases h
    · exact hq h
  | _ => exact hq

/-- As long as the case that was selected last is the keepalive, `Run` is not elsewhere. -/
theorem rung_ne_elsewhere {past : History O} (h : lastSelected past = some .keepalive) :
    rung past ≠ .elsewhere := by
  induction past with
  | nil => cases h
  | cons x past ih =>
    cases x with
    | env v s => exact ih h
    | crash t s => exact ih h
    | call t e a s =>
      cases t with
      | watchdog => exact ih (by cases e <;> exact h)
      | worker =>
        rw [rung, System.follow_call_self]
        by_cases he : e = .select
        · subst he
          obtain rfl : a = Selected.keepalive := Option.some.inj h
          exact nofun
        · refine next_ne_elsewhere he a (ih ?_)
          cases e with
          | select => exact absurd rfl he
          | _ => exact h

/-- The query of a keepalive. -/
theorem rung_of_query {past : History O} (h : lastSelected past = some .keepalive)
    (hallow : ladderProtocol.allows (rung past) (.execute .registrationStatus)) :
    rung past = .polled := by
  have hne := rung_ne_elsewhere h
  have hallow : (rung past).Allows (.execute .registrationStatus) := hallow
  cases hq : rung past with
  | polled => rfl
  | elsewhere => exact absurd hq hne
  | recovering late =>
    rw [hq] at hallow
    rcases hallow with ⟨c, hc, h⟩ | ⟨ms, h⟩ | h
    · cases h
      simp at hc
    · cases h
    · cases h
  | failed late | resetting late | refused late | down late =>
    rw [hq] at hallow
    cases hallow
  | answered =>
    rw [hq] at hallow
    exact absurd rfl hallow
  | settled =>
    rw [hq] at hallow
    exact absurd rfl hallow.2

end

/-! ### What has been done to the port -/

/-- What `HardReset` writes. -/
def resetLine : List UInt8 := At.Cmd.hardReset.text ++ crlf

/-- What has been done to the port on the way, since its history was `base`. -/
def Climb (base : At.Serializer.History Unit) (o : CallConfig Unit) : Rung → Prop
  | .failed late | .recovering late | .resetting late =>
    ∃ new, o.state.history = new ++ base ∧ ¬ Wrote resetLine new ∧
      if late then o.state.state.ended = true else Unclosed o.state.history
  | .refused late | .down late =>
    ∃ new, o.state.history = new ++ base ∧
      if late then ¬ Wrote resetLine new
      else Wrote resetLine new ∨ Refused resetLine new ∨ ∃ x ∈ o.state.history, losesPort x
  | .settled => True
  | .elsewhere | .polled | .answered => False

section

variable {mayEmit : At.Serializer.World → List UInt8 → Bool} {ms : Moves Unit}
  {s s' : World (CallConfig Unit)} {o o' : CallConfig Unit} {base new : At.Serializer.History Unit}
  {late : Bool}

theorem wrote_append {data : List UInt8} {new' : At.Serializer.History Unit} :
    Wrote data (new' ++ new) ↔ Wrote data new' ∨ Wrote data new := by
  constructor
  · rintro ⟨t, w, hmem⟩
    rcases List.mem_append.mp hmem with h | h
    · exact .inl ⟨t, w, h⟩
    · exact .inr ⟨t, w, h⟩
  · rintro (⟨t, w, h⟩ | ⟨t, w, h⟩)
    · exact ⟨t, w, List.mem_append_left new h⟩
    · exact ⟨t, w, List.mem_append_right new' h⟩

/-- The error behind what `Execute` has returned. -/
theorem timedOut_iff {lines : List At.Line} {err : Option At.Err}
    {res : Except At.Err (List At.Line)} (h : executeResult (.executed lines err) = some res) :
    timedOut res = true ↔ ∃ t, err = some (.timeout t) := by
  cases err with
  | none =>
    cases h
    exact ⟨nofun, fun h => by obtain ⟨t, h⟩ := h; cases h⟩
  | some e =>
    cases h
    cases e with
    | timeout t => exact ⟨fun _ => ⟨t, rfl⟩, fun _ => rfl⟩
    | _ => exact ⟨nofun, fun h => by obtain ⟨t, h⟩ := h; cases h⟩

/-- No command of the recovery is a hard reset. -/
theorem text_ne_resetLine :
    ∀ c ∈ [At.Cmd.radioOff, .radioOn, .ping, .setPDUMode], c.text ++ crlf ≠ resetLine := by
  decide

/-- A command of the recovery. -/
theorem Climb.recover {c : At.Cmd} {res : Except At.Err (List At.Line)}
    (hc : c.text ++ crlf ≠ resetLine) (hsound : Sound s.outside)
    (hclimb : Climb base s.outside (.recovering late))
    (hexec : s.exec (onPort mayEmit) ms (.execute c) res = some s') :
    Climb base s'.outside (.recovering (late || timedOut res)) := by
  obtain ⟨new, hhistory, hwrote, hport⟩ := hclimb
  obtain ⟨-, lines, err, new', hres, hattempted⟩ := attempted_of_exec hsound hexec
  refine ⟨new' ++ new, ?_, ?_, ?_⟩
  · rw [hattempted.history, hhistory, List.append_assoc]
  · rw [wrote_append]
    rintro (h | h)
    · exact hc (hattempted.writes resetLine h).symm
    · exact hwrote h
  · have hlate := timedOut_iff hres
    cases htimeout : timedOut res with
    | true =>
      obtain ⟨t, ht⟩ := hlate.mp htimeout
      rw [Bool.or_true, if_pos rfl]
      exact hattempted.timeout t ht
    | false =>
      rw [Bool.or_false]
      cases late with
      | true => exact (hattempted.gone hport).1
      | false =>
        have hunclosed := hattempted.unclosed fun t ht => by
          rw [hlate.mpr ⟨t, ht⟩] at htimeout
          cases htimeout
        show Unclosed s'.outside.state.history
        rw [hattempted.history]
        exact List.forall_mem_append.mpr ⟨hunclosed, hport⟩

/-- A hard reset that fails. -/
theorem Climb.reset {res : Except At.Err (List At.Line)} (hsound : Sound s.outside)
    (hclimb : Climb base s.outside (.resetting late))
    (hexec : s.exec (onPort mayEmit) ms (.execute .hardReset) res = some s') :
    Climb base s'.outside (.refused late) := by
  obtain ⟨new, hhistory, hwrote, hport⟩ := hclimb
  obtain ⟨-, lines, err, new', -, hattempted⟩ := attempted_of_exec hsound hexec
  refine ⟨new' ++ new, by rw [hattempted.history, hhistory, List.append_assoc], ?_⟩
  cases late with
  | true =>
    show ¬ Wrote resetLine (new' ++ new)
    rw [wrote_append]
    rintro (h | h)
    · exact (hattempted.gone hport).2 h
    · exact hwrote h
  | false =>
    have hport : Unclosed s.outside.state.history := hport
    rcases hattempted.written with h | ⟨hunclosed, ⟨t, w, hmem, hw⟩ | ⟨x, hx, hgone⟩⟩
    · exact .inl (wrote_append.mpr (.inl h))
    · exact .inr (.inl ⟨t, w, List.mem_append_left new hmem, hw⟩)
    · -- nobody has closed the port, so it was lost
      refine .inr (.inr ⟨x, hx, ?_⟩)
      have hnone : At.Serializer.isClose x = false := by
        rw [hattempted.history] at hx
        rcases List.mem_append.mp hx with h | h
        · exact hunclosed x h
        · exact hport x h
      rcases hgone with h | h
      · rw [hnone] at h
        cases h
      · exact h

/-- Every call of `Run` but a `select` keeps what is known of the port. -/
theorem Climb.next {q : Rung} {e : Call} {a : e.Ans} (he : e ≠ .select) (hsound : Sound s.outside)
    (hclimb : Climb base s.outside q) (hallow : q.Allows e)
    (hexec : s.exec (onPort mayEmit) ms e a = some s') : Climb base s'.outside (q.next e a) := by
  cases q with
  | elsewhere | polled | answered => exact hclimb.elim
  | failed late =>
    obtain rfl : e = .storeState .recovering := hallow
    have hsame := outside_eq rfl hexec
    rw [hsame]
    exact hclimb
  | recovering late =>
    rcases hallow with ⟨c, hc, rfl⟩ | ⟨t, rfl⟩ | rfl
    · change Climb base s'.outside (if c = .setPDUMode then .settled else _)
      split_ifs with hmode
      · trivial
      · exact hclimb.recover (text_ne_resetLine c hc) hsound hexec
    · rw [outside_eq rfl hexec]
      exact hclimb
    · rw [outside_eq rfl hexec]
      exact hclimb
  | resetting late =>
    obtain rfl : e = .execute .hardReset := hallow
    cases a with
    | error e => exact hclimb.reset hsound hexec
    | ok lines => trivial
  | refused late =>
    obtain rfl : e = .storeState .failed := hallow
    rw [outside_eq rfl hexec]
    exact hclimb
  | down late =>
    rw [outside_eq hallow hexec]
    cases e with
    | select => exact absurd rfl he
    | execute => cases hallow
    | _ => exact hclimb
  | settled =>
    cases e with
    | select => exact absurd rfl he
    | storeState st => trivial
    | _ => trivial

/-! ### Runs -/

/-- What is known on the ladder, `later` than the registration query that failed. -/
structure Ladder (base : At.Serializer.History Unit) (late₀ : Bool)
    (later : History (CallConfig Unit)) (o : CallConfig Unit) (q : Rung) : Prop where
  climb : Climb base o q
  late : ∀ late, q.late = some late → late = (late₀ || later.any timesOut)
  down : later.any entersFailed → ∃ late, q = .down late

variable {late₀ : Bool} {later : History (CallConfig Unit)}

/-- What is not on the ladder. -/
theorem Ladder.beside {q : Rung}
    {x : System.Occurrence Thread (World (CallConfig Unit)) Call Call.Ans Outer}
    (h : Ladder base late₀ later o q) (hx : timesOut x = false) (hfailed : entersFailed x = false) :
    Ladder base late₀ (x :: later) o q := by
  refine ⟨h.climb, fun late hlate => ?_, fun hdown => h.down ?_⟩
  · rw [List.any_cons, hx, Bool.false_or]
    exact h.late late hlate
  · rw [List.any_cons, hfailed, Bool.false_or] at hdown
    exact hdown

/-- Those who have stored `FAILED` make no other calls that count. -/
theorem next_down {e : Call} {a : e.Ans} (he : e ≠ .select) (hallow : (Rung.down late).Allows e) :
    (Rung.down late).next e a = .down late ∧ timesOut (.call .worker e a s) = false := by
  cases e with
  | select => exact absurd rfl he
  | execute => cases hallow
  | storeState st => exact ⟨rfl, rfl⟩
  | _ => exact ⟨rfl, rfl⟩

theorem next_settled {e : Call} {a : e.Ans} (he : e ≠ .select) :
    Rung.settled.next e a = .settled := by
  cases e with
  | select => exact absurd rfl he
  | storeState st => rfl
  | _ => rfl

/-- The commands that time out are counted. -/
theorem late_next {q : Rung} {e : Call} {a : e.Ans} {late' : Bool} (he : e ≠ .select)
    (hclimb : Climb base o q) (hallow : q.Allows e) (hlate : (q.next e a).late = some late') :
    ∃ late, q.late = some late ∧ late' = (late || timesOut (.call .worker e a s)) := by
  cases q with
  | elsewhere | polled | answered => exact hclimb.elim
  | failed late =>
    obtain rfl : e = .storeState .recovering := hallow
    cases hlate
    exact ⟨late', rfl, (Bool.or_false late').symm⟩
  | recovering late =>
    rcases hallow with ⟨c, hc, rfl⟩ | ⟨t, rfl⟩ | rfl
    · change Rung.late (if c = .setPDUMode then .settled else _) = _ at hlate
      split_ifs at hlate with hmode
      · cases hlate
      · have hreset : c ≠ .hardReset := by
          rintro rfl
          simp at hc
        cases hlate
        refine ⟨late, rfl, ?_⟩
        rw [timesOut, decide_eq_true hreset, Bool.true_and]
    · cases hlate
      exact ⟨late', rfl, (Bool.or_false late').symm⟩
    · cases hlate
      exact ⟨late', rfl, (Bool.or_false late').symm⟩
  | resetting late =>
    obtain rfl : e = .execute .hardReset := hallow
    cases a with
    | error e =>
      cases hlate
      exact ⟨late', rfl, (Bool.or_false late').symm⟩
    | ok lines => cases hlate
  | refused late =>
    obtain rfl : e = .storeState .failed := hallow
    cases hlate
    exact ⟨late', rfl, (Bool.or_false late').symm⟩
  | down late =>
    obtain ⟨hnext, htimes⟩ := next_down (s := s) (a := a) he hallow
    rw [hnext] at hlate
    cases hlate
    refine ⟨late', rfl, ?_⟩
    rw [htimes, Bool.or_false]
  | settled =>
    rw [next_settled he] at hlate
    cases hlate

theorem eq_of_entersFailed {e : Call} {a : e.Ans}
    (h : entersFailed (.call .worker e a s) = true) : e = .storeState .failed := by
  cases e with
  | storeState st =>
    cases st with
    | failed => rfl
    | _ => cases h
  | _ => cases h

/-- `FAILED` is stored at the end of the ladder only. -/
theorem down_next {q : Rung} {e : Call} {a : e.Ans} (he : e ≠ .select) (hclimb : Climb base o q)
    (hallow : q.Allows e) (h : (∃ late, q = .down late) ∨ e = .storeState .failed) :
    ∃ late, q.next e a = .down late := by
  rcases h with ⟨late, rfl⟩ | rfl
  · exact ⟨late, (next_down (s := World.new openedPort) he hallow).1⟩
  · cases q with
    | elsewhere | polled | answered => exact hclimb.elim
    | failed late | resetting late => cases hallow
    | recovering late =>
      rcases hallow with ⟨c, -, h⟩ | ⟨t, h⟩ | h
      · cases h
      · cases h
      · cases h
    | refused late => exact ⟨late, rfl⟩
    | down late => exact ⟨late, rfl⟩
    | settled => exact absurd rfl hallow.1

theorem Ladder.next {q : Rung} {e : Call} {a : e.Ans} (he : e ≠ .select)
    (hsound : Sound s.outside) (h : Ladder base late₀ later s.outside q) (hallow : q.Allows e)
    (hexec : s.exec (onPort mayEmit) ms e a = some s') :
    Ladder base late₀ (.call .worker e a s :: later) s'.outside (q.next e a) := by
  refine ⟨h.climb.next he hsound hallow hexec, fun late hlate => ?_, fun hdown => ?_⟩
  · obtain ⟨late, hq, rfl⟩ := late_next (s := s) he h.climb hallow hlate
    rw [h.late late hq, List.any_cons, Bool.or_assoc, Bool.or_comm (later.any timesOut)]
  · refine down_next he h.climb hallow ?_
    rw [List.any_cons, Bool.or_eq_true] at hdown
    rcases hdown with hstore | hdown
    · exact .inr (eq_of_entersFailed hstore)
    · exact .inl (h.down hdown)

end

section

variable (mayEmit : At.Serializer.World → List UInt8 → Bool) (h : Host) (w : Worker)

/-- The invariant from a point on at which the history was `before`, and that of the port `base`. -/
def ladderWorker (before : History (CallConfig Unit)) (late₀ : Bool)
    (base : At.Serializer.History Unit) : WorkerProof h w (onPort mayEmit) ladderProtocol where
  toRunProof := ladderProof h w
  inv s past q := Sound s.outside ∧ ∃ later, past = later ++ before ∧
    ((∀ x ∈ later, selects x = false) → Ladder base late₀ later s.outside q)
  run_inv := by
    rintro ms s past q e a s' ⟨hsound, later, rfl, hladder⟩ hallow hexec
    refine ⟨sound_of_exec hsound hexec, _ :: later, rfl, fun hsame => ?_⟩
    obtain ⟨hselect, hsame⟩ := List.forall_mem_cons.mp hsame
    refine (hladder hsame).next ?_ hsound hallow hexec
    rintro rfl
    cases hselect
  watchdog_inv := by
    rintro ms s past q e a s' ⟨hsound, later, rfl, hladder⟩ he hexec
    have hsame : s'.outside = s.outside := by
      refine outside_eq ?_ hexec
      cases e with
      | openPort | execute | executeSend => cases he
      | _ => rfl
    rw [hsame]
    refine ⟨hsound, _ :: later, rfl, fun hselects => ?_⟩
    refine (hladder (List.forall_mem_cons.mp hselects).2).beside ?_ ?_
    · cases e <;> rfl
    · cases e <;> rfl
  outer_inv := by
    rintro v s past q s' ⟨hsound, later, rfl, hladder⟩ hstep
    rw [(effect_of_outer hstep).outside]
    refine ⟨hsound, _ :: later, rfl, fun hselects => ?_⟩
    exact (hladder (List.forall_mem_cons.mp hselects).2).beside rfl rfl

variable {mayEmit h w} {c₀ c : RecordedConfig (CallConfig Unit)}

/-- The port after a registration query that has failed. -/
theorem climb_of_query (hreach : (portWorker mayEmit h w).recorded.Reach (portStart mayEmit h w) c)
    {err : At.Err} {s : World (CallConfig Unit)} {earlier : History (CallConfig Unit)}
    (hquery : c.state.history =
      .call .worker (.execute .registrationStatus) (.error err) s :: earlier)
    (herr : (∃ t l, err = .atError t l) ∨ ∃ t, err = .timeout t) :
    Climb c.state.state.outside.state.history c.state.state.outside
      (.failed (timedOut (.error err))) := by
  obtain ⟨c₁, hreach₁, hstate, -⟩ := System.exists_reach_of_history hreach rfl
    (show c.state.history = [] ++ _ :: earlier from hquery)
  have hsound : Sound s.outside := by
    have hsound₁ := sound_reach hreach₁
    rw [hstate] at hsound₁
    exact hsound₁
  have hlinked := System.linked_of_reach hreach
  rw [hquery] at hlinked
  obtain ⟨ms, hexec⟩ := hlinked.1
  obtain ⟨-, lines, err', new, hres, hattempted⟩ := attempted_of_exec hsound hexec
  refine ⟨[], rfl, At.Serializer.not_wrote_nil, ?_⟩
  obtain rfl : err' = some err := by
    cases err' with
    | none => cases hres
    | some e =>
      cases hres
      rfl
  rcases herr with ⟨t, l, rfl⟩ | ⟨t, rfl⟩
  · show Unclosed _
    rw [hattempted.history]
    refine List.forall_mem_append.mpr ⟨hattempted.unclosed fun t' ht => ?_, ?_⟩
    · cases ht
    · exact hattempted.answered t l rfl
  · exact hattempted.timeout t rfl

/-- **When the reset is tried.**  Take any run of a worker on its serializer in which the
registration query of a keepalive has just failed, with a final result code or with a timeout, and
any later point of the run at which the same handler has stored `FAILED`.  If the query or a command
of the recovery has timed out, `AT+CFUN=1,1` was not written in between.  If none has, it was,
unless the port has refused to take it or was lost. -/
theorem hardReset_written
    (hreach₀ : (portWorker mayEmit h w).recorded.Reach (portStart mayEmit h w) c₀)
    (hreach : (portWorker mayEmit h w).recorded.Reach c₀ c)
    {err : At.Err} {s : World (CallConfig Unit)} {earlier later : History (CallConfig Unit)}
    (hquery : c₀.state.history =
      .call .worker (.execute .registrationStatus) (.error err) s :: earlier)
    (hkeepalive : lastSelected earlier = some .keepalive)
    (herr : (∃ t l, err = .atError t l) ∨ ∃ t, err = .timeout t)
    (hlater : c.state.history = later ++ c₀.state.history)
    (hsame : ∀ x ∈ later, selects x = false)
    (hfailed : later.any entersFailed) :
    ∃ new, c.state.state.outside.state.history = new ++ c₀.state.state.outside.state.history ∧
      ((timedOut (.error err) || later.any timesOut) → ¬ Wrote resetLine new) ∧
      ((timedOut (.error err) || later.any timesOut) = false → Wrote resetLine new ∨
        Refused resetLine new ∨ ∃ x ∈ c.state.state.outside.state.history, losesPort x) := by
  -- the query was made at the foot of the ladder
  have hhead : (ladderProof h w).head .init .elsewhere := rfl
  obtain ⟨htraced, -⟩ := (ladderProof h w).reach hhead hreach₀
  have haccepted := htraced.accepted
  rw [hquery] at haccepted
  have hpolled := rung_of_query hkeepalive (haccepted.1 rfl)
  have hrung : rung c₀.state.history = .failed (timedOut (.error err)) := by
    rw [hquery]
    change (rung earlier).after .registrationStatus (.error err) = _
    rw [hpolled]
    rfl
  let X := ladderWorker mayEmit h w c₀.state.history (timedOut (.error err))
    c₀.state.state.outside.state.history
  have hinv : X.inv c₀.state.state c₀.state.history (rung c₀.state.history) := by
    refine ⟨sound_reach hreach₀, [], rfl, fun _ => ?_⟩
    rw [hrung]
    refine ⟨climb_of_query hreach₀ hquery herr, fun late hlate => ?_, fun hdown => ?_⟩
    · cases hlate
      exact (Bool.or_false _).symm
    · cases hdown
  obtain ⟨q, ⟨-, later', hpast, hladder⟩, -⟩ := X.reach_from hhead hreach₀ hinv hreach
  obtain rfl : later' = later := List.append_cancel_right (hpast.symm.trans hlater)
  have hladder := hladder hsame
  obtain ⟨late, rfl⟩ := hladder.down hfailed
  obtain ⟨new, hhistory, hwritten⟩ := hladder.climb
  rw [← hladder.late late rfl]
  refine ⟨new, hhistory, fun hlate => ?_, fun hlate => ?_⟩
  · rw [if_pos hlate] at hwritten
    exact hwritten
  · rw [hlate] at hwritten
    exact hwritten

end

/-! ### A query that fails, and one that times out -/

/-- `FAILED` is stored, and `Run` returns. -/
def failedMoves : PortMoves := ownMoves 9 .failed ++ [.jump .worker]

/-- The port takes these bytes, or it does not. -/
def writesTo (data : List UInt8) (ok : Bool) : At.Serializer.Event Unit → Bool
  | .call _ (.write data') ok' _ => data' = data && ok' = ok
  | _ => false

/-- The modem answers the query and the commands of the ladder by `ERROR`: the reset is written. -/
theorem hardReset_written_error :
    ∃ (c₀ c : RecordedConfig (CallConfig Unit)) (new : At.Serializer.History Unit),
      plainPort.recorded.Reach (portStart (fun _ _ => true) .plain .plain) c₀ ∧
      plainPort.recorded.Reach c₀ c ∧ c.threads .worker = .stopped (.run .failed) ∧
      c.state.state.outside.state.history = new ++ c₀.state.state.outside.state.history ∧
      Wrote resetLine new := by
  have hplay : ∃ c₀ c s earlier later,
      plainPort.recorded.play (portStart (fun _ _ => true) .plain .plain)
        (keepaliveMoves ++ errorMove 8 .registrationStatus) = some c₀ ∧
      plainPort.recorded.play c₀ (ownMoves 1 .active ++ errorMove 9 .radioOff ++
        ownMoves 1 .active ++ errorMove 10 .hardReset ++ failedMoves) = some c ∧
      c₀.state.history = .call .worker (.execute .registrationStatus)
        (.error (.atError (At.Cmd.text .registrationStatus) (Go.lit "ERROR"))) s :: earlier ∧
      lastSelected earlier = some .keepalive ∧ c.state.history = later ++ c₀.state.history ∧
      later.all (fun x => !selects x) ∧ later.any entersFailed ∧ later.any timesOut = false ∧
      c.threads .worker = .stopped (.run .failed) ∧
      c.state.state.outside.state.history.all fun x =>
        !losesPort x && !writesTo resetLine false x :=
    ⟨_, _, _, _, [_, _, _, _, _, _, _, _, _, _, _, _, _], rfl, rfl, rfl, rfl, rfl, rfl, rfl, rfl,
      rfl, rfl⟩
  obtain ⟨c₀, c, s, earlier, later, hplay₀, hplay, hquery, hkeepalive, hlater, hsame, hfailed,
    hlate, hstop, hport⟩ := hplay
  have hreach₀ := System.reach_of_play hplay₀
  have hreach := System.reach_of_play hplay
  have hsame : ∀ x ∈ later, selects x = false := by
    intro x hx
    simpa using List.all_eq_true.mp hsame x hx
  have hport := List.all_eq_true.mp hport
  obtain ⟨new, hnew, -, hwritten⟩ := hardReset_written hreach₀ hreach hquery hkeepalive
    (.inl ⟨_, _, rfl⟩) hlater hsame hfailed
  refine ⟨c₀, c, new, hreach₀, hreach, hstop, hnew, ?_⟩
  rcases hwritten (by rw [hlate]; rfl) with h | ⟨t, w, hmem, -⟩ | ⟨x, hx, hloses⟩
  · exact h
  · have hx := hport _ (hnew ▸ List.mem_append_left _ hmem)
    simp [writesTo] at hx
  · have hx := hport x hx
    rw [hloses] at hx
    cases hx

/-- The modem does not answer the query.  `Execute` closes the port; the commands of the ladder fail
with `ErrClosed`, and `Run` ends in `FAILED` without having written the reset. -/
theorem not_hardReset_written :
    ∃ (c₀ c : RecordedConfig (CallConfig Unit)) (s : World (CallConfig Unit))
      (earlier later : History (CallConfig Unit)),
      plainPort.recorded.Reach (portStart (fun _ _ => true) .plain .plain) c₀ ∧
      plainPort.recorded.Reach c₀ c ∧
      c₀.state.history = .call .worker (.execute .registrationStatus)
        (.error (.timeout (At.Cmd.text .registrationStatus))) s :: earlier ∧
      lastSelected earlier = some .keepalive ∧ c.state.history = later ++ c₀.state.history ∧
      (∀ x ∈ later, selects x = false) ∧ later.any entersFailed ∧
      c.threads .worker = .stopped (.run .failed) ∧
      ¬ Wrote resetLine c.state.state.outside.state.history ∧
      ∀ x ∈ c.state.state.outside.state.history, losesPort x = false := by
  have hplay : ∃ c₀ c s earlier later,
      plainPort.recorded.play (portStart (fun _ _ => true) .plain .plain)
        (keepaliveMoves ++ commandMove (timeoutMoves 8)
          (.error (.timeout (At.Cmd.text .registrationStatus)))) = some c₀ ∧
      plainPort.recorded.play c₀ (ownMoves 1 .active ++
        commandMove (endMoves ++ closedMoves) (.error .closed) ++ ownMoves 1 .active ++
        commandMove closedMoves (.error .closed) ++ failedMoves) = some c ∧
      c₀.state.history = .call .worker (.execute .registrationStatus)
        (.error (.timeout (At.Cmd.text .registrationStatus))) s :: earlier ∧
      lastSelected earlier = some .keepalive ∧ c.state.history = later ++ c₀.state.history ∧
      later.all (fun x => !selects x) ∧ later.any entersFailed ∧
      c.threads .worker = .stopped (.run .failed) ∧
      c.state.state.outside.state.history.all fun x => !losesPort x && !writesTo resetLine true x :=
    ⟨_, _, _, _, [_, _, _, _, _, _, _, _, _, _, _, _, _], rfl, rfl, rfl, rfl, rfl, rfl, rfl, rfl,
      rfl⟩
  obtain ⟨c₀, c, s, earlier, later, hplay₀, hplay, hquery, hkeepalive, hlater, hsame, hfailed,
    hstop, hport⟩ := hplay
  have hport := List.all_eq_true.mp hport
  refine ⟨c₀, c, s, earlier, later, System.reach_of_play hplay₀, System.reach_of_play hplay, hquery,
    hkeepalive, hlater, fun x hx => ?_, hfailed, hstop, ?_, fun x hx => ?_⟩
  · simpa using List.all_eq_true.mp hsame x hx
  · rintro ⟨t, w, hmem⟩
    have hx := hport _ hmem
    simp [writesTo] at hx
  · have hx := hport x hx
    rw [Bool.and_eq_true] at hx
    simpa using hx.1

end SmsGate.Modem
