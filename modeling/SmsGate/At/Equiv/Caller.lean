import SmsGate.At.Equiv.Routing

/-!
# What a caller does, in which order

A call of `Execute` or `ExecuteSend` looks at `closed`, makes its command pending, writes it and
takes lines until one of them ends the call; `ExecuteSend` writes the PDU once it has taken the
prompt.  When the time is up the call closes the port.

* `CallPhase`: how far a call is, with what it has written and the lines that it has taken;
* `Request.Waits`, `Request.Exits`: the lines on which it waits on, and what it returns on another;
* `callProtocol`: what a goroutine may do when it is so far;
* `block_keeps`: every block keeps to the protocol, and a call that has returned has returned what
  `Request.Final` says.
-/

namespace SmsGate.At.Serializer

open Go Go.Strings

/-! ### Lines that end a call -/

/-- The final result codes. -/
def isFinal (line : Line) : Bool := line = lit "OK" || isFinalError line

/-- No line is a final result code. -/
def NoneFinal (lines : List Line) : Prop := ∀ l ∈ lines, isFinal l = false

/-- The error that `Execute` makes of a final result code. -/
def Reply.errOf (cmd : List UInt8) (final : Line) : Option Err :=
  if final = lit "OK" then none else some (.atError cmd final)

/-- The lines on which `ExecuteSend` returns before the prompt. -/
def rejects (l : Line) : Bool := l = lit "ERROR" || hasPrefix l (lit "+CME")

/-- The intermediate lines on which `ExecuteSend` returns. -/
def cutsShort (line : Line) : Bool :=
  hasPrefix line (lit "+CME") ||
    (hasPrefix line (lit "+CMGS:") &&
      (Strconv.scanSpaceInt (trimPrefix line (lit "+CMGS:"))).isNone)

example : cutsShort (lit "+CMGS: 5") = false ∧ cutsShort (lit "+CMGS:5") = true := by decide

/-- The end of a command line. -/
def crlf : List UInt8 := lit "\r\n"

section

variable {l : Line}

theorem isFinal_of_eq_ok (hok : l = lit "OK") : isFinal l := by
  rw [isFinal, decide_eq_true hok]
  rfl

theorem isFinal_of_isFinalError (herr : isFinalError l) : isFinal l := by
  rw [isFinal, herr, Bool.or_true]

theorem not_isFinal (hok : l ≠ lit "OK") (herr : ¬ isFinalError l = true) : isFinal l = false := by
  rw [isFinal, decide_eq_false hok, Bool.false_or]
  exact Bool.eq_false_iff.mpr herr

theorem rejects_iff_or : rejects l ↔ l = lit "ERROR" ∨ hasPrefix l (lit "+CME") := by
  rw [rejects, Bool.or_eq_true, decide_eq_true_iff]

/-- `ExecuteSend` is rejected on a final result code, or cut short. -/
theorem ends_of_rejects (h : rejects l) : isFinal l ∨ cutsShort l := by
  rcases rejects_iff_or.mp h with rfl | h
  · exact .inl (by decide)
  · exact .inr (by rw [cutsShort, h, Bool.true_or])

end

/-! ### How far a call is -/

/-- What a goroutine calls. -/
inductive Request where
  | execute (cmd : List UInt8)
  | send (pduHex : List UInt8) (pduLen : ℕ)

namespace Request

/-- Where the call starts. -/
def label : Request → Label
  | execute cmd => .execute cmd
  | send pduHex pduLen => .executeSend pduHex pduLen

/-- The command line that it writes. -/
def command : Request → List UInt8
  | execute cmd => cmd ++ crlf
  | send _ pduLen => cmgs pduLen

end Request

/-- Why a call returns without an answer. -/
inductive Failure where
  /-- `closed` was closed at the start. -/
  | refused
  /-- A write has failed. -/
  | unwritten
  /-- `closed` was closed while it waited. -/
  | abandoned
  /-- The time was up, and it has closed the port. -/
  | shut

/-- The error that `Execute` returns then. -/
def Failure.err (cmd : List UInt8) : Failure → Err
  | refused | abandoned => .closed
  | unwritten => .writeCommand
  | shut => .timeout cmd

/-- How far a call is. -/
inductive CallPhase where
  /-- Nothing was called so far. -/
  | outside
  /-- It has found `closed` open. -/
  | opened
  | installed (p : ℕ)
  /-- It has written this and taken these lines. -/
  | awaiting (p : ℕ) (said : List (List UInt8)) (taken : List Line)
  /-- It has waited too long. -/
  | expired
  | failed (why : Failure)
  /-- It has returned, on the last of the lines or without an answer. -/
  | returned (said : List (List UInt8)) (taken : List Line)
  | gone (why : Failure)

namespace CallPhase

/-- The command of a call is pending. -/
def inCall : CallPhase → Bool
  | installed _ | awaiting _ _ _ | expired | failed _ => true
  | outside | opened | returned _ _ | gone _ => false

/-- A call has returned. -/
def isOver : CallPhase → Bool
  | returned _ _ | gone _ => true
  | _ => false

/-- A call can begin; `again` says whether a goroutine calls again when a call has returned. -/
def Ready (again : Prop) (k : CallPhase) : Prop := k = outside ∨ again ∧ k.isOver

/-- A call after one of its steps. -/
def next (k : CallPhase) : (c : Call) → c.Ans → CallPhase
  | .pollClosed, (closed : Bool) => if closed then gone .refused else opened
  | .install, (p : ℕ) => installed p
  | .write data, (ok : Bool) =>
    if ok then
      match k with
      | installed p => awaiting p [data] []
      | awaiting p said taken => awaiting p (said ++ [data]) taken
      | _ => k
    else failed .unwritten
  | .recv _ _, (.line l : Received) =>
    match k with
    | awaiting p said taken => awaiting p said (taken ++ [l])
    | _ => k
  | .recv _ _, (.timer : Received) => expired
  | .recv _ _, (.closed : Received) => failed .abandoned
  | .close, _ => failed .shut
  | .clear, _ =>
    match k with
    | awaiting _ said taken => returned said taken
    | failed why => gone why
    | _ => k
  | _, _ => k

theorem inCall_of_ready {again : Prop} {k : CallPhase} (h : k.Ready again) : k.inCall = false := by
  rcases h with rfl | ⟨-, h⟩
  · rfl
  · cases k with
    | returned said taken | gone why => rfl
    | _ => cases h

end CallPhase

namespace Request

/-- A call that has written this waits on, with this timer, when it has taken these lines. -/
def Waits : Request → Timer → List (List UInt8) → List Line → Prop
  | execute cmd, .timeout, said, taken => said = [cmd ++ crlf] ∧ NoneFinal taken
  | send _ pduLen, .prompt, said, taken =>
    said = [cmgs pduLen] ∧ ∀ l ∈ taken, isPrompt l = false ∧ rejects l = false
  | send pduHex pduLen, .timeout, said, taken =>
    said = [cmgs pduLen, pduFrame pduHex] ∧ ∃ l ∈ taken, isPrompt l
  | execute _, .prompt, _, _ => False

/-- What it returns when it then takes another line. -/
def Exits : Request → Timer → List Line → Line → Exit → Prop
  | execute cmd, .timeout, taken, l, e => isFinal l ∧ e = .executed taken (Reply.errOf cmd l)
  | send _ _, .prompt, _, l, e =>
    isPrompt l = false ∧ rejects l ∧ e = .sent (.error (.rejected l))
  | send _ _, .timeout, _, l, e => (isFinal l ∨ cutsShort l) ∧ ∃ res, e = .sent res
  | execute _, .prompt, _, _, _ => False

/-- What it returns without an answer. -/
def Fails : Request → Failure → Exit → Prop
  | execute cmd, why, e => e = .executed [] (some (why.err cmd))
  | send _ _, _, e => ∃ err, e = .sent (.error err)

/-- What is known when it has returned. -/
def Final (r : Request) (k : CallPhase) (e : Exit) : Prop :=
  (∃ why, k = .gone why ∧ r.Fails why e) ∨
    ∃ timer said taken l, k = .returned said (taken ++ [l]) ∧ r.Waits timer said taken ∧
      r.Exits timer taken l e

theorem isOver_of_final {r : Request} {k : CallPhase} {e : Exit} (h : r.Final k e) : k.isOver := by
  rcases h with ⟨why, rfl, -⟩ | ⟨timer, said, taken, l, rfl, -, -⟩ <;> rfl

/-- The command is the first thing that a call writes. -/
theorem head?_of_waits {r : Request} {timer : Timer} {said : List (List UInt8)} {taken : List Line}
    (h : r.Waits timer said taken) : said.head? = some r.command := by
  cases r with
  | execute cmd =>
    cases timer with
    | timeout => rw [h.1]; rfl
    | prompt => exact h.elim
  | send pduHex pduLen => cases timer <;> rw [h.1] <;> rfl

end Request

/-! ### What a caller does -/

/-- What a goroutine may do when it is so far, if it makes these calls. -/
def callProtocol (calls : Request → Prop) (again : Prop) : Protocol Call Call.Ans CallPhase where
  allows k c :=
    match c with
    | .pollClosed => k.Ready again
    | .install => k = .opened
    | .write data =>
      (∃ r p, calls r ∧ k = .installed p ∧ data = r.command) ∨
        ∃ pduHex pduLen p taken l, calls (.send pduHex pduLen) ∧
          k = .awaiting p [cmgs pduLen] (taken ++ [l]) ∧ isPrompt l ∧ data = pduFrame pduHex
    | .recv timer p =>
      ∃ r said taken, calls r ∧ k = .awaiting p said taken ∧ r.Waits timer said taken
    | .close => k = .expired
    | .clear =>
      (∃ why, k = .failed why) ∨ ∃ r timer p said taken l e, calls r ∧
        k = .awaiting p said (taken ++ [l]) ∧ r.Waits timer said taken ∧ r.Exits timer taken l e
    | _ => False
  next := CallPhase.next

section

variable {calls : Request → Prop} {again : Prop} {k : CallPhase}

theorem ofCaller_of_allows {c : Call} (h : (callProtocol calls again).allows k c) :
    c.ofCaller := by
  cases c with
  | pollClosed | install | write data | recv timer p | close | clear => rfl
  | _ => exact h.elim

/-- A call that has returned does nothing more. -/
theorem not_isOver_of_allows {c : Call} (h : (callProtocol calls False).allows k c) :
    k.isOver = false := by
  cases c with
  | pollClosed =>
    rcases h with rfl | ⟨hfalse, -⟩
    · rfl
    · exact hfalse.elim
  | install | close =>
    obtain rfl := h
    rfl
  | write data =>
    rcases h with ⟨r, p, -, rfl, -⟩ | ⟨pduHex, pduLen, p, taken, l, -, rfl, -, -⟩ <;> rfl
  | recv timer p =>
    obtain ⟨r, said, taken, -, rfl, -⟩ := h
    rfl
  | clear =>
    rcases h with ⟨why, rfl⟩ | ⟨r, timer, p, said, taken, l, e, -, rfl, -, -⟩ <;> rfl
  | _ => exact h.elim

/-- Where a goroutine is at the start of each block. -/
def CallHead (calls : Request → Prop) (again : Prop) (k : CallPhase) : Label → Prop
  | .execute cmd => calls (.execute cmd) ∧ k.Ready again
  | .collect cmd p lines => calls (.execute cmd) ∧ k = .awaiting p [cmd ++ crlf] lines ∧
    NoneFinal lines
  | .executeSend pduHex pduLen => calls (.send pduHex pduLen) ∧ k.Ready again
  | .awaitPrompt pduHex p => ∃ pduLen taken, calls (.send pduHex pduLen) ∧
    k = .awaiting p [cmgs pduLen] taken ∧ ∀ l ∈ taken, isPrompt l = false ∧ rejects l = false
  | .awaitResult p _ => ∃ pduHex pduLen taken, calls (.send pduHex pduLen) ∧
    k = .awaiting p [cmgs pduLen, pduFrame pduHex] taken ∧ ∃ l ∈ taken, isPrompt l
  | .reader => False

/-- What holds when a block ends. -/
def CallEnd (calls : Request → Prop) (again : Prop) (res : Label ⊕ Exit) (k : CallPhase) : Prop :=
  res.elim (CallHead calls again k) fun e => ∃ r, calls r ∧ r.Final k e

theorem callHead_label {r : Request} (hr : calls r) (hk : k.Ready again) :
    CallHead calls again k r.label := by
  cases r <;> exact ⟨hr, hk⟩

theorem leave_failed {r : Request} {why : Failure} {e : Exit} (hr : calls r)
    (hfails : r.Fails why e) :
    (leave e).Obeys (callProtocol calls again) (.failed why) (CallEnd calls again) :=
  Prog.perform_bind_obeys (.inl ⟨why, rfl⟩) fun _ => ⟨r, hr, .inl ⟨why, rfl, hfails⟩⟩

/-- The time is up. -/
theorem expire {r : Request} {e : Exit} (hr : calls r) (hfails : r.Fails .shut e) :
    (ask .close >>= fun _ => leave e).Obeys (callProtocol calls again) .expired
      (CallEnd calls again) :=
  Prog.perform_bind_obeys rfl fun _ => leave_failed hr hfails

theorem leave_answered {r : Request} {timer : Timer} {p : ℕ} {said : List (List UInt8)}
    {taken : List Line} {l : Line} {e : Exit} (hr : calls r) (hwaits : r.Waits timer said taken)
    (hexits : r.Exits timer taken l e) :
    (leave e).Obeys (callProtocol calls again) (.awaiting p said (taken ++ [l]))
      (CallEnd calls again) :=
  Prog.perform_bind_obeys (.inr ⟨r, timer, p, said, taken, l, e, hr, rfl, hwaits, hexits⟩)
    fun _ => ⟨r, hr, .inr ⟨timer, said, taken, l, rfl, hwaits, hexits⟩⟩

theorem execute_keeps {cmd : List UInt8} (hr : calls (.execute cmd)) (hk : k.Ready again) :
    (execute cmd).Obeys (callProtocol calls again) k (CallEnd calls again) := by
  refine Prog.perform_bind_obeys hk fun (closed : Bool) => ?_
  cases closed with
  | true => exact ⟨_, hr, .inl ⟨.refused, rfl, rfl⟩⟩
  | false =>
    refine Prog.perform_bind_obeys rfl fun (p : ℕ) => ?_
    refine Prog.perform_bind_obeys (.inl ⟨_, p, hr, rfl, rfl⟩) fun (ok : Bool) => ?_
    cases ok with
    | true => exact ⟨hr, rfl, fun l hl => absurd hl List.not_mem_nil⟩
    | false => exact leave_failed hr rfl

theorem collect_keeps {cmd : List UInt8} {p : ℕ} {lines : List Line} (hr : calls (.execute cmd))
    (hlines : NoneFinal lines) :
    (collect cmd p lines).Obeys (callProtocol calls again) (.awaiting p [cmd ++ crlf] lines)
      (CallEnd calls again) := by
  have hwaits : (Request.execute cmd).Waits .timeout [cmd ++ crlf] lines := ⟨rfl, hlines⟩
  refine Prog.perform_bind_obeys ⟨_, _, lines, hr, rfl, hwaits⟩ fun (received : Received) => ?_
  cases received with
  | timer => exact expire hr rfl
  | closed => exact leave_failed hr rfl
  | line l =>
    dsimp only
    by_cases hok : l = lit "OK"
    · rw [if_pos hok]
      refine leave_answered hr hwaits ⟨isFinal_of_eq_ok hok, ?_⟩
      rw [Reply.errOf, if_pos hok]
    · rw [if_neg hok]
      by_cases herr : isFinalError l
      · rw [if_pos herr]
        refine leave_answered hr hwaits ⟨isFinal_of_isFinalError herr, ?_⟩
        rw [Reply.errOf, if_neg hok]
      · rw [if_neg herr]
        refine ⟨hr, rfl, fun x hx => ?_⟩
        rcases List.mem_append.mp hx with hx | hx
        · exact hlines x hx
        · rw [List.mem_singleton.mp hx]
          exact not_isFinal hok herr

variable {pduHex : List UInt8} {pduLen : ℕ}

theorem executeSend_keeps (hr : calls (.send pduHex pduLen)) (hk : k.Ready again) :
    (executeSend pduHex pduLen).Obeys (callProtocol calls again) k (CallEnd calls again) := by
  refine Prog.perform_bind_obeys hk fun (closed : Bool) => ?_
  cases closed with
  | true => exact ⟨_, hr, .inl ⟨.refused, rfl, _, rfl⟩⟩
  | false =>
    refine Prog.perform_bind_obeys rfl fun (p : ℕ) => ?_
    refine Prog.perform_bind_obeys (.inl ⟨_, p, hr, rfl, rfl⟩) fun (ok : Bool) => ?_
    cases ok with
    | true => exact ⟨pduLen, [], hr, rfl, fun l hl => absurd hl List.not_mem_nil⟩
    | false => exact leave_failed hr ⟨_, rfl⟩

theorem awaitPrompt_keeps {p : ℕ} {taken : List Line} (hr : calls (.send pduHex pduLen))
    (htaken : ∀ l ∈ taken, isPrompt l = false ∧ rejects l = false) :
    (awaitPrompt pduHex p).Obeys (callProtocol calls again) (.awaiting p [cmgs pduLen] taken)
      (CallEnd calls again) := by
  have hwaits : (Request.send pduHex pduLen).Waits .prompt [cmgs pduLen] taken := ⟨rfl, htaken⟩
  refine Prog.perform_bind_obeys ⟨_, _, taken, hr, rfl, hwaits⟩ fun (received : Received) => ?_
  cases received with
  | timer => exact expire hr ⟨_, rfl⟩
  | closed => exact leave_failed hr ⟨_, rfl⟩
  | line l =>
    dsimp only
    by_cases hprompt : isPrompt l
    · rw [if_pos hprompt]
      refine Prog.perform_bind_obeys
        (.inr ⟨pduHex, pduLen, p, taken, l, hr, rfl, hprompt, rfl⟩) fun (ok : Bool) => ?_
      cases ok with
      | true =>
        exact ⟨pduHex, pduLen, taken ++ [l], hr, rfl, l,
          List.mem_append_right _ List.mem_cons_self, hprompt⟩
      | false => exact leave_failed hr ⟨_, rfl⟩
    · rw [if_neg hprompt]
      have hprompt := Bool.eq_false_iff.mpr hprompt
      by_cases hrejects : rejects l
      · rw [if_pos (rejects_iff_or.mp hrejects)]
        exact leave_answered hr hwaits ⟨hprompt, hrejects, rfl⟩
      · rw [if_neg fun h => hrejects (rejects_iff_or.mpr h)]
        refine ⟨pduLen, taken ++ [l], hr, rfl, fun x hx => ?_⟩
        rcases List.mem_append.mp hx with hx | hx
        · exact htaken x hx
        · rw [List.mem_singleton.mp hx]
          exact ⟨hprompt, Bool.eq_false_iff.mpr hrejects⟩

theorem awaitResult_keeps {p : ℕ} {mr : ℤ} {taken : List Line} (hr : calls (.send pduHex pduLen))
    (hprompt : ∃ l ∈ taken, isPrompt l) :
    (awaitResult p mr).Obeys (callProtocol calls again)
      (.awaiting p [cmgs pduLen, pduFrame pduHex] taken) (CallEnd calls again) := by
  have hwaits : (Request.send pduHex pduLen).Waits .timeout [cmgs pduLen, pduFrame pduHex] taken :=
    ⟨rfl, hprompt⟩
  refine Prog.perform_bind_obeys ⟨_, _, taken, hr, rfl, hwaits⟩ fun (received : Received) => ?_
  cases received with
  | timer => exact expire hr ⟨_, rfl⟩
  | closed => exact leave_failed hr ⟨_, rfl⟩
  | line l =>
    have hmore : ∃ x ∈ taken ++ [l], isPrompt x := by
      obtain ⟨x, hx, hprompt⟩ := hprompt
      exact ⟨x, List.mem_append_left _ hx, hprompt⟩
    dsimp only
    by_cases hcmgs : hasPrefix l (lit "+CMGS:")
    · rw [if_pos hcmgs]
      cases hscan : Strconv.scanSpaceInt (trimPrefix l (lit "+CMGS:")) with
      | none =>
        refine leave_answered hr hwaits ⟨.inr ?_, _, rfl⟩
        rw [cutsShort, hcmgs, hscan]
        exact Bool.or_true _
      | some v => exact ⟨pduHex, pduLen, _, hr, rfl, hmore⟩
    · rw [if_neg hcmgs]
      by_cases hok : l = lit "OK"
      · rw [if_pos hok]
        exact leave_answered hr hwaits ⟨.inl (isFinal_of_eq_ok hok), _, rfl⟩
      · rw [if_neg hok]
        by_cases herr : isFinalError l
        · rw [if_pos herr]
          exact leave_answered hr hwaits ⟨.inl (isFinal_of_isFinalError herr), _, rfl⟩
        · rw [if_neg herr]
          exact ⟨pduHex, pduLen, _, hr, rfl, hmore⟩

/-- Every block of a goroutine keeps to the protocol. -/
theorem block_keeps {l : Label} (hhead : CallHead calls again k l) :
    (block l).Obeys (callProtocol calls again) k (CallEnd calls again) := by
  cases l with
  | reader => exact hhead.elim
  | execute cmd => exact execute_keeps hhead.1 hhead.2
  | collect cmd p lines =>
    obtain ⟨hr, rfl, hlines⟩ := hhead
    exact collect_keeps hr hlines
  | executeSend pduHex pduLen => exact executeSend_keeps hhead.1 hhead.2
  | awaitPrompt pduHex p =>
    obtain ⟨pduLen, taken, hr, rfl, htaken⟩ := hhead
    exact awaitPrompt_keeps hr htaken
  | awaitResult p mr =>
    obtain ⟨pduHex, pduLen, taken, hr, rfl, hprompt⟩ := hhead
    exact awaitResult_keeps hr hprompt

end

end SmsGate.At.Serializer
