import SmsGate.Modem.Equiv.Runs
import SmsGate.Modem.Supervisor

/-!
# Proofs about the workers of a supervisor

The blocks of `Run` are blocks of the supervisor, which runs one worker after the other.  What is
known of `Run` by a protocol is known of the supervisor: it keeps to the protocol worker by worker,
and `reset` says what a new worker finds (`RunProof.supervisorBlock_obeys`).
-/

namespace SmsGate.Modem

variable {Q : Type}

/-- Every worker keeps to the protocol. -/
def supervisedProtocol (P : Protocol Call Call.Ans Q) (reset : Q → Q) :
    Protocol SupervisorCall SupervisorCall.Ans Q where
  allows q e :=
    match e with
    | .work e => P.allows q e
    | _ => True
  next q e a :=
    match e, a with
    | .work e, a => P.next q e a
    | .newWorker, _ => reset q
    | _, _ => q

/-- The watchdogs make the calls of a watchdog. -/
def SupervisorCall.ofWatchdog : SupervisorCall → Bool
  | .work e => e.ofWatchdog
  | _ => false

/-- What each goroutine keeps to. -/
def supervisedProtocols (P : Protocol Call Call.Ans Q) (reset : Q → Q) :
    SupervisorThread → Protocol SupervisorCall SupervisorCall.Ans Q
  | .supervisor => supervisedProtocol P reset
  | .watchdog _ => .only fun e => e.ofWatchdog

namespace RunProof

variable {h : Host} {w : Worker} {P : Protocol Call Call.Ans Q}

/-- Where the blocks of the goroutines start. -/
def supervisedHead (X : RunProof h w P) (reset : Q → Q) :
    SupervisorThread → SupervisorLabel → Q → Prop
  | .supervisor, .attempt n, q => X.head .init (if n = 0 then q else reset q)
  | .supervisor, .run attempt l, q => attempt ≠ 0 ∧ X.head l q
  | .supervisor, .returned attempt finalState, q => attempt ≠ 0 ∧ X.final finalState q
  | .watchdog n, l, _ => l = .run n .watchdog

variable (X : RunProof h w P) (reset : Q → Q)

theorem startAttempt_obeys (n : ℕ) {q : Q} (hq : X.head .init (if n = 0 then q else reset q)) :
    (startAttempt n).Obeys (supervisedProtocol P reset) q
      (Sum.elim (X.supervisedHead reset .supervisor) fun _ _ => True) := by
  unfold startAttempt
  cases n with
  | zero => exact ⟨Nat.one_ne_zero, hq⟩
  | succ n =>
    dsimp only
    rw [if_pos (by omega)]
    exact Prog.perform_bind_obeys trivial fun _ => ⟨Nat.succ_ne_zero _, hq⟩

theorem afterRun_obeys (hreset : ∀ st q, X.final st q → X.head .init (reset q)) {attempt : ℕ}
    (hattempt : attempt ≠ 0) {finalState : State} {q : Q} (hq : X.final finalState q) :
    (afterRun attempt finalState).Obeys (supervisedProtocol P reset) q
      (Sum.elim (X.supervisedHead reset .supervisor) fun _ _ => True) := by
  refine Prog.perform_bind_obeys trivial fun canceled => ?_
  split_ifs
  · trivial
  · trivial
  · refine Prog.perform_bind_obeys trivial fun timer => ?_
    split_ifs
    · change X.head .init (if attempt = 0 then q else reset q)
      rw [if_neg hattempt]
      exact hreset finalState q hq
    · trivial

/-- A block of `Run` keeps to its protocol in the hands of the supervisor too. -/
theorem run_obeys {attempt : ℕ} (hattempt : attempt ≠ 0) {l : Label} {q : Q} (hq : X.head l q) :
    (supervisorBlock h w (.run attempt l)).Obeys (supervisedProtocol P reset) q
      (Sum.elim (X.supervisedHead reset .supervisor) fun _ _ => True) := by
  have hblock : (block h w l).Obeys P q (RunEnds X.head X.final) := by
    cases l with
    | init => exact X.init_obeys q hq
    | main id => exact X.main_obeys id q hq
    | drain => exact X.drain_obeys q hq
    | watchdog => exact absurd hq (X.not_watchdog q)
  have hembed : (supervised (block h w l)).Obeys (supervisedProtocol P reset) q
      (RunEnds X.head X.final) :=
    hblock.embed (fun _ _ hallow => hallow) fun _ _ _ => rfl
  refine hembed.bind fun res q hres => ?_
  cases res with
  | inl l => exact ⟨hattempt, hres⟩
  | inr r =>
    cases r with
    | run st => exact ⟨hattempt, hres⟩
    | watchdog => exact hres.elim

/-- The code of the supervisor and of the watchdogs keeps to the protocols. -/
theorem supervisorBlock_obeys (hreset : ∀ st q, X.final st q → X.head .init (reset q))
    (t : SupervisorThread) (l : SupervisorLabel) (q : Q) (hq : X.supervisedHead reset t l q) :
    (supervisorBlock h w l).Obeys (supervisedProtocols P reset t) q
      (Sum.elim (X.supervisedHead reset t) fun _ _ => True) := by
  cases t with
  | supervisor =>
    cases l with
    | attempt n => exact X.startAttempt_obeys reset n hq
    | run attempt l => exact X.run_obeys reset hq.1 hq.2
    | returned attempt finalState => exact X.afterRun_obeys reset hreset hq.1 hq.2
  | watchdog n =>
    obtain rfl : l = .run n .watchdog := hq
    have hembed : (supervised (watchdog w)).Obeys (supervisedProtocols P reset (.watchdog n)) q
        (Sum.elim (fun l _ => l = .watchdog) fun r _ => r = .watchdog) :=
      (watchdog_obeys_only w q).embed (fun _ _ hallow => hallow) fun _ _ _ => rfl
    refine hembed.bind fun res q hres => ?_
    cases res with
    | inl l =>
      obtain rfl : l = .watchdog := hres
      exact rfl
    | inr r =>
      obtain rfl : r = .watchdog := hres
      trivial

end RunProof

end SmsGate.Modem
