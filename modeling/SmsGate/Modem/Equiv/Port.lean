import SmsGate.At.Equiv.Attempt
import SmsGate.Modem.Equiv.Runs

/-!
# A worker on its serializer

A worker whose `Execute` and `ExecuteSend` are runs of its serializer (`onPort`): the reader, the
modem and the port take steps of their own during a call.  The watchdog and the rest of the gateway
do nothing to the serializer, so their steps can be taken before or after a call.

* `attempted_of_exec`: what a command of the worker does to the port;
* `sound_reach`: the serializer of every run is sound between two calls.
-/

namespace SmsGate.Modem

open At.Serializer (CallConfig Moves portSystem Sound crlf)

/-! ### Calls of the serializer -/

/-- What `Execute` returns. -/
def executeResult : At.Serializer.Exit → Option (Except At.Err (List At.Line))
  | .executed lines none => some (.ok lines)
  | .executed _ (some e) => some (.error e)
  | _ => none

/-- What `ExecuteSend` returns. -/
def sendResult : At.Serializer.Exit → Option (Except At.Err ℤ)
  | .sent res => some res
  | _ => none

/-- A serializer on a port that was just opened. -/
def openedPort : CallConfig Unit where
  state := ⟨At.Serializer.World.idle [] [], []⟩
  threads
    | .reader => .running (At.Serializer.block .reader)
    | .caller _ => .stopped .reader

section

variable (mayEmit : At.Serializer.World → List UInt8 → Bool)

/-- A call of the serializer that is the run `ms` and has this result. -/
def callPort {α : Type} [DecidableEq α] (result : At.Serializer.Exit → Option α)
    (l : At.Serializer.Label) (ms : Moves Unit) (o : CallConfig Unit) (a : α) :
    Option (CallConfig Unit) :=
  ((portSystem mayEmit).recorded.serve (.caller ()) l ms o).bind fun p =>
    if result p.1 = some a then some p.2 else none

/-- The calls of the worker on its serializer.  What the reader and the modem do between two of
them is the beginning of the second one. -/
def onPort (ms : Moves Unit) (o : CallConfig Unit) : (e : Call) → e.Ans → Option (CallConfig Unit)
  | .openPort, (opened : Bool) => some (if opened then openedPort else o)
  | .execute c, (res : Except At.Err (List At.Line)) =>
    callPort mayEmit executeResult (.execute c.text) ms o res
  | .executeSend hex n, (res : Except At.Err ℤ) =>
    callPort mayEmit sendResult (.executeSend hex n) ms o res
  | _, _ => some o

/-- A worker on its serializer. -/
def portWorker (h : Host) (w : Worker) :
    System Thread (World (CallConfig Unit)) Call Call.Ans Label Exit (Moves Unit) Outer :=
  workerSystem h w (onPort mayEmit)

end

section Effects

variable {mayEmit : At.Serializer.World → List UInt8 → Bool} {ms : Moves Unit}
  {s s' : World (CallConfig Unit)} {o o' : CallConfig Unit}

/-- What a call does to the serializer. -/
theorem onPort_of_exec {e : Call} {a : e.Ans} (h : s.exec (onPort mayEmit) ms e a = some s') :
    onPort mayEmit ms s.outside e a = some s'.outside := by
  have houtside := outside_of_exec h
  by_cases he : e.delegated
  · rw [if_pos he] at houtside
    exact houtside
  · rw [if_neg he] at houtside
    cases e with
    | openPort | execute | executeSend => exact absurd rfl he
    | _ => exact houtside

/-- The calls of the serializer. -/
def Call.onSerializer : Call → Bool
  | .openPort | .execute _ | .executeSend _ _ => true
  | _ => false

/-- The other calls leave it alone. -/
theorem outside_eq {e : Call} {a : e.Ans} (he : e.onSerializer = false)
    (h : s.exec (onPort mayEmit) ms e a = some s') : s'.outside = s.outside := by
  have hport := onPort_of_exec h
  cases e with
  | openPort | execute | executeSend => cases he
  | _ => exact (Option.some.inj hport).symm

/-- A call of `Execute` is a run of the serializer. -/
theorem attempted_of_exec {c : At.Cmd} {res : Except At.Err (List At.Line)}
    (hsound : Sound s.outside) (h : s.exec (onPort mayEmit) ms (.execute c) res = some s') :
    Sound s'.outside ∧ ∃ lines err new, executeResult (.executed lines err) = some res ∧
      At.Serializer.Attempted (c.text ++ crlf) err s.outside s'.outside new := by
  obtain ⟨⟨e, o⟩, hserve, hres⟩ := Option.bind_eq_some_iff.mp (onPort_of_exec h)
  obtain ⟨hexit, ho⟩ := Option.ite_none_right_eq_some.mp hres
  cases ho
  cases e with
  | executed lines err =>
    obtain ⟨hsound', new, hattempted⟩ := hsound.execute hserve
    exact ⟨hsound', lines, err, new, hexit, hattempted⟩
  | reader | sent => cases hexit

theorem sound_openedPort : Sound openedPort := by
  refine ⟨(.scanning, .outside), ?_, .start (At.Serializer.World.open_idle [] [])⟩
  exact At.Serializer.reader_goes_on rfl

theorem sound_of_exec {e : Call} {a : e.Ans} (hsound : Sound s.outside)
    (h : s.exec (onPort mayEmit) ms e a = some s') : Sound s'.outside := by
  cases e with
  | openPort =>
    have hport := Option.some.inj (onPort_of_exec h)
    rw [← hport]
    split_ifs
    · exact sound_openedPort
    · exact hsound
  | execute c => exact (attempted_of_exec hsound h).1
  | executeSend hex n =>
    obtain ⟨⟨e, o⟩, hserve, hres⟩ := Option.bind_eq_some_iff.mp (onPort_of_exec h)
    obtain ⟨-, ho⟩ := Option.ite_none_right_eq_some.mp hres
    cases ho
    exact hsound.executeSend hserve
  | _ =>
    rw [outside_eq rfl h]
    exact hsound

end Effects

/-! ### Runs -/

section

variable (mayEmit : At.Serializer.World → List UInt8 → Bool) (h : Host) (w : Worker)

/-- Before a worker has opened its port. -/
def portStart : RecordedConfig (CallConfig Unit) :=
  (portWorker mayEmit h w).recorded.start ⟨World.new openedPort, []⟩ entry

variable {mayEmit h w} {c : RecordedConfig (CallConfig Unit)}

theorem sound_reach (hreach : (portWorker mayEmit h w).recorded.Reach (portStart mayEmit h w) c) :
    Sound c.state.state.outside := by
  induction hreach with
  | refl => exact sound_openedPort
  | tail _ hstep ih =>
    cases hstep with
    | call t ms a hrun hexec =>
      obtain ⟨s₁, hcall, rfl⟩ := System.recorded_exec_iff.mp hexec
      exact sound_of_exec ih hcall
    | jump t hrun => exact ih
    | stop t hrun => exact ih
    | env v henv =>
      obtain ⟨s₁, hstep, rfl⟩ := System.recorded_env_iff.mp henv
      rw [(effect_of_outer hstep).outside]
      exact ih
    | crash t hcrash => cases hcrash

end

/-! ### Runs on fixed inputs -/

open At.Serializer in
/-- Command number `p` is written, and the modem answers it by these lines and a final result
code. -/
def answerMoves (p : ℕ) (lines : List At.Line) (final : At.Line) : Moves Unit :=
  beginMoves p () ++
    (lines.flatMap fun l => emitMoves (l ++ crlf) ++ routeMoves p l ++ takeMoves p () l 0) ++
    emitMoves (final ++ crlf) ++ routeMoves p final ++ takeMoves p () final 1

open At.Serializer in
/-- Command number `p` is not taken by the port. -/
def refuseMoves (p : ℕ) : Moves Unit :=
  callMoves 4 (.caller ()) fun
    | .write _ => false
    | c => runAnswer p none .timer c

open At.Serializer in
/-- Command number `p` is not answered. -/
def timeoutMoves (p : ℕ) : Moves Unit :=
  beginMoves p () ++ callMoves 3 (.caller ()) (runAnswer p none .timer)

open At.Serializer in
/-- The reader finds that the port has ended. -/
def endMoves : Moves Unit := .env .fillEnd :: callMoves 2 .reader (runAnswer 0 none .timer)

open At.Serializer in
/-- A command finds that `closed` is closed. -/
def closedMoves : Moves Unit := callMoves 1 (.caller ()) closedAnswer

/-- The moves of a worker on its serializer. -/
abbrev PortMoves := List (System.Move Thread Call Call.Ans (Moves Unit) Outer)

/-- The answers: what a command returns, and the state that is loaded. -/
def portAnswer (res : Except At.Err (List At.Line)) (st : State) : (e : Call) → e.Ans
  | .execute _ => res
  | .select => Selected.keepalive
  | .loadState => st
  | e => e.plainAns

/-- A command of the worker. -/
def commandMove (ms : Moves Unit) (res : Except At.Err (List At.Line)) : PortMoves :=
  [.call .worker ms (portAnswer res .active)]

/-- Calls of the worker that are no commands. -/
def ownMoves (n : ℕ) (st : State) : PortMoves :=
  List.replicate n (.call .worker [] (portAnswer (.ok []) st))

/-- A command that the modem answers by `ERROR`. -/
def errorMove (p : ℕ) (c : At.Cmd) : PortMoves :=
  commandMove (answerMoves p [] (Go.lit "ERROR")) (.error (.atError c.text (Go.lit "ERROR")))

/-- The init sequence succeeds, and the keepalive is selected. -/
def keepaliveMoves : PortMoves :=
  ownMoves 1 .active ++
    ([0, 1, 2, 3].flatMap fun p => commandMove (answerMoves p [] (Go.lit "OK")) (.ok [])) ++
    commandMove (refuseMoves 4) (.error .writeCommand) ++
    commandMove (answerMoves 5 [Go.lit "+CCID: 89490200000123456789"] (Go.lit "OK"))
      (.ok [Go.lit "+CCID: 89490200000123456789"]) ++
    ([6, 7].flatMap fun p => commandMove (refuseMoves p) (.error .writeCommand)) ++
    ownMoves 7 .active ++ [.jump .worker] ++ ownMoves 1 .active

/-- Any modem and any port. -/
abbrev plainPort : System Thread (World (CallConfig Unit)) Call Call.Ans Label Exit (Moves Unit)
    Outer :=
  portWorker (fun _ _ => true) .plain .plain

end SmsGate.Modem
