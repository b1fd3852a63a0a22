import SmsGate.At.Equiv.Urc

/-!
# Who closes the port

The reader closes `closed` when `Scan` returns false: the port has ended, or a line was too long for
the buffer.  A port ends when it goes away, or when a caller closes it after a timeout.

`ExecuteSend` waits for the prompt, and returns on `ERROR` and on lines that start with `+CME`.
`+CMS ERROR:`, the final result code of a message command, is none of these, so it waits on, until
the timer of the prompt lets it close the port.

* `PortInv`: when a port has ended and `closed` is closed;
* `send_rejected_iff`: on which final result codes a send is rejected and leaves the port open.
-/

namespace SmsGate.At.Serializer

open Go Go.Strings

/-! ### The end of a port -/

/-- A port that has not ended, and a reader that has not closed `closed`. -/
structure World.Open (s : World) : Prop where
  ended : s.ended = false
  closed : s.closed = false
  eof : s.scanner.eof = false

theorem World.open_idle (buf incoming : List UInt8) : (World.idle buf incoming).Open :=
  ⟨rfl, rfl, rfl⟩

/-- `Scan` has returned false on a port that has not ended: the line is too long. -/
def tooLong (s : World) : (c : Call) → c.Ans → Bool
  | .scan, (none : Option (List UInt8)) => !s.scanner.eof
  | _, _ => false

/-- The end of the port, as the system, the scanner and the callers see it. -/
def World.port (s : World) : Bool × Bool × Bool := (s.ended, s.scanner.eof, s.closed)

/-- What has ended has ended because the port was `lost`. -/
structure PortInv (lost : Prop) (s : World) (r : ReaderStage) : Prop where
  ended : s.ended → lost
  eof : s.scanner.eof → s.ended
  closed : s.closed ∨ r = .ended → lost

namespace PortInv

variable {lost lost' : Prop} {s s' : World} {r : ReaderStage} {c : Call} {a : c.Ans}

theorem start (hopen : s.Open) : PortInv lost s .scanning := by
  refine ⟨fun h => ?_, fun h => ?_, fun h => ?_⟩
  · rw [hopen.ended] at h
    cases h
  · rw [hopen.eof] at h
    cases h
  · rcases h with h | h
    · rw [hopen.closed] at h
      cases h
    · cases h

theorem mono (hinv : PortInv lost s r) (hlost : lost → lost') : PortInv lost' s r :=
  ⟨fun h => hlost (hinv.ended h), hinv.eof, fun h => hlost (hinv.closed h)⟩

/-- What does nothing to the port. -/
theorem other {r' : ReaderStage} (hinv : PortInv lost s r) (hsame : s'.port = s.port)
    (hstage : r' = .ended → r = .ended) : PortInv lost s' r' := by
  simp only [World.port, Prod.mk.injEq] at hsame
  obtain ⟨hended, heof, hclosed⟩ := hsame
  refine ⟨?_, ?_, fun h => hinv.closed (h.imp ?_ hstage)⟩
  · rw [hended]
    exact hinv.ended
  · rw [heof, hended]
    exact hinv.eof
  · rw [hclosed]
    exact id

theorem scan {token : Option (List UInt8)} (hinv : PortInv lost s .scanning)
    (hlong : tooLong s .scan token → lost) (hexec : s.exec .scan token = some s') :
    PortInv lost s' (ReaderStage.next .scanning .scan token) := by
  obtain ⟨⟨token', sc⟩, hscan, hs⟩ := Option.bind_eq_some_iff.mp hexec
  obtain ⟨htoken, hs⟩ := Option.ite_none_right_eq_some.mp hs
  cases hs
  have heof := Bufio.Scanner.eof_of_scan hscan
  cases token with
  | some text =>
    refine hinv.other (by simp [World.port, heof]) fun h => ?_
    dsimp only [ReaderStage.next] at h
    split_ifs at h
  | none =>
    -- `Scan` returns false at the end of the port, or on a line that is too long
    have hlost : lost := by
      by_cases hend : s.scanner.eof = true
      · exact hinv.ended (hinv.eof hend)
      · refine hlong ?_
        rw [tooLong, Bool.eq_false_iff.mpr hend]
        rfl
    refine ⟨hinv.ended, ?_, fun _ => hlost⟩
    dsimp only
    rw [heof]
    exact hinv.eof

/-- Only a scan ends the reader. -/
theorem next_ne_ended (hallow : r.Allows c) (hscan : c ≠ .scan) (hclosed : c ≠ .closeClosed) :
    r.next c a ≠ .ended := by
  cases c with
  | scan => exact absurd rfl hscan
  | closeClosed => exact absurd rfl hclosed
  | trySendURC line => cases a <;> rcases hallow with rfl | rfl <;> nofun
  | tryRecvURC =>
    obtain ⟨line, rfl⟩ := hallow
    nofun
  | loadPending | trySendLine => cases a <;> nofun
  | _ => exact hallow.elim

/-- The reader keeps the invariant. -/
theorem reader (hinv : PortInv lost s r) (hlong : tooLong s c a → lost) (hallow : r.Allows c)
    (hexec : s.exec c a = some s') : PortInv lost s' (r.next c a) := by
  cases c with
  | scan =>
    obtain rfl : r = .scanning := hallow
    exact hinv.scan hlong hexec
  | trySendURC | tryRecvURC | loadPending | trySendLine =>
    refine hinv.other (view_of_exec (by simp [Call.Leaves, World.port]) hexec) fun h => ?_
    exact absurd h (next_ne_ended hallow (by simp) (by simp))
  | closeClosed =>
    obtain rfl : r = .ended := hallow
    cases hexec
    exact ⟨hinv.ended, hinv.eof, fun _ => hinv.closed (.inr rfl)⟩
  | _ => exact hallow.elim

/-- So do those who execute commands. -/
theorem caller (hinv : PortInv lost s r) (hclose : c = .close → lost) (hc : c.ofCaller)
    (hexec : s.exec c a = some s') : PortInv lost s' r := by
  cases c with
  | install | pollClosed | clear | write | recv =>
    exact hinv.other (view_of_exec (by simp [Call.Leaves, World.port]) hexec) id
  | close =>
    cases hexec
    exact ⟨fun _ => hclose rfl, fun _ => rfl, fun _ => hclose rfl⟩
  | _ => cases hc

theorem outer {mayEmit : World → List UInt8 → Bool} {v : Outer} (hinv : PortInv lost s r)
    (hunplug : v = .unplug → lost) (hstep : v.step mayEmit s = some s') : PortInv lost s' r := by
  cases v with
  | emit | takeURC =>
    exact hinv.other (view_of_outer (by simp [Outer.Leaves, World.port]) hstep) id
  | fill chunk =>
    obtain ⟨-, hs⟩ := Option.ite_none_right_eq_some.mp hstep
    obtain ⟨sc, hfill, rfl⟩ := Option.map_eq_some_iff.mp hs
    obtain ⟨-, hsc⟩ := Option.ite_none_right_eq_some.mp hfill
    cases hsc
    exact hinv.other rfl id
  | fillEnd =>
    obtain ⟨hended, hs⟩ := Option.ite_none_right_eq_some.mp hstep
    obtain ⟨sc, -, rfl⟩ := Option.map_eq_some_iff.mp hs
    exact ⟨hinv.ended, fun _ => hended, hinv.closed⟩
  | unplug =>
    cases hstep
    exact ⟨fun _ => hunplug rfl, fun _ => rfl, fun _ => hunplug rfl⟩

end PortInv

/-! ### A send and the next command -/

namespace CallPhase

/-- A call has not closed the port. -/
def calm : CallPhase → Bool
  | failed .shut | gone .shut => false
  | _ => true

/-- A call has found `closed` closed. -/
def foundClosed : CallPhase → Bool
  | failed .refused | failed .abandoned | gone .refused | gone .abandoned => true
  | _ => false

variable {calls : Request → Prop} {k : CallPhase} {c : Call} {a : c.Ans} {s s' : World}

/-- A call that has not closed the port has done nothing to it before. -/
theorem calm_of_next (hallow : (callProtocol calls False).allows k c) (hcalm : (k.next c a).calm) :
    k.calm ∧ c ≠ .close := by
  cases c with
  | pollClosed =>
    rcases hallow with rfl | ⟨hfalse, -⟩
    · exact ⟨rfl, nofun⟩
    · exact hfalse.elim
  | install =>
    obtain rfl : k = .opened := hallow
    exact ⟨rfl, nofun⟩
  | write data =>
    rcases hallow with ⟨r, p, -, rfl, -⟩ | ⟨pduHex, pduLen, p, taken, l, -, rfl, -, -⟩ <;>
      exact ⟨rfl, nofun⟩
  | recv timer p =>
    obtain ⟨r, said, taken, -, rfl, -⟩ := hallow
    exact ⟨rfl, nofun⟩
  | close => cases hcalm
  | clear =>
    rcases hallow with ⟨why, rfl⟩ | ⟨r, timer, p, said, taken, l, e, -, rfl, -, -⟩
    · cases why with
      | shut => cases hcalm
      | _ => exact ⟨rfl, nofun⟩
    · exact ⟨rfl, nofun⟩
  | _ => exact hallow.elim

/-- It finds `closed` closed only if it is. -/
theorem closed_of_foundClosed (hallow : (callProtocol calls False).allows k c)
    (hfound : (k.next c a).foundClosed) (hexec : s.exec c a = some s') :
    k.foundClosed ∨ (k.calm ∧ s.closed) := by
  cases c with
  | pollClosed =>
    rcases hallow with rfl | ⟨hfalse, -⟩
    · cases a with
      | true => exact .inr ⟨rfl, (Option.ite_none_right_eq_some.mp hexec).1.symm⟩
      | false => cases hfound
    · exact hfalse.elim
  | write data =>
    rcases hallow with ⟨r, p, -, rfl, -⟩ | ⟨pduHex, pduLen, p, taken, l, -, rfl, -, -⟩ <;>
      cases a <;> cases hfound
  | recv timer p =>
    obtain ⟨r, said, taken, -, rfl, -⟩ := hallow
    cases a with
    | closed => exact .inr ⟨rfl, (Option.ite_none_right_eq_some.mp hexec).1⟩
    | line l | timer => cases hfound
  | clear =>
    rcases hallow with ⟨why, rfl⟩ | ⟨r, timer, p, said, taken, l, e, -, rfl, -, -⟩
    · cases why with
      | refused | abandoned => exact .inl rfl
      | unwritten | shut => cases hfound
    · cases hfound
  | install | close => cases hfound
  | _ => exact hallow.elim

end CallPhase

section

variable (pduHex : List UInt8) (pduLen : ℕ) (cmd : List UInt8)

/-- The protocol of a goroutine that calls `ExecuteSend` and then `Execute`. -/
def sendThenProtocol : Protocol Call Call.Ans (CallPhase × CallPhase) :=
  (callProtocol (· = .send pduHex pduLen) False).andThen (callProtocol (· = .execute cmd) False)
    CallPhase.isOver

/-- How both calls have ended. -/
def BothEnded (k : CallPhase × CallPhase) (r r' : Exit) : Prop :=
  (Request.send pduHex pduLen).Final k.1 r ∧ (Request.execute cmd).Final k.2 r'

/-- What is still to be done when a block starts. -/
def TurnHead (k : CallPhase × CallPhase) (w : System.Turns Label Exit) : Prop :=
  (∃ l, w = ⟨[], [l, .execute cmd]⟩ ∧ CallHead (· = .send pduHex pduLen) False k.1 l ∧
      k.2 = .outside) ∨
    (∃ r l, w = ⟨[r], [l]⟩ ∧ (Request.send pduHex pduLen).Final k.1 r ∧
      CallHead (· = .execute cmd) False k.2 l) ∨
    ∃ r r', w = ⟨[r, r'], []⟩ ∧ BothEnded pduHex pduLen cmd k r r'

/-- The send has taken this line last. -/
def TookLast (l : Line) (k : CallPhase) : Prop :=
  ∃ taken, (∃ p, k = .awaiting p [cmgs pduLen] (taken ++ [l])) ∨
    k = .returned [cmgs pduLen] (taken ++ [l])

variable {pduHex pduLen cmd} {p : ℕ} {taken : List Line} {l : Line}

/-- A send that has taken a line on which it returns makes no call but the return. -/
theorem eq_clear_of_rejects {c : Call} (hprompt : isPrompt l = false) (hrejects : rejects l)
    (hallow : (callProtocol (· = .send pduHex pduLen) False).allows
      (.awaiting p [cmgs pduLen] (taken ++ [l])) c) : c = .clear := by
  cases c with
  | clear => rfl
  | pollClosed => rcases hallow with hk | ⟨hfalse, -⟩ <;> contradiction
  | install | close => cases hallow
  | write data =>
    rcases hallow with ⟨r, p', -, hk, -⟩ | ⟨hex, n, p', taken', l', -, hk, hl', -⟩
    · cases hk
    · obtain ⟨-, -, htaken⟩ := CallPhase.awaiting.inj hk
      obtain ⟨-, hl⟩ := List.append_inj' htaken rfl
      rw [← List.singleton_inj.mp hl, hprompt] at hl'
      cases hl'
  | recv timer p' =>
    obtain ⟨_, said, taken', rfl, hk, hwaits⟩ := hallow
    obtain ⟨-, rfl, rfl⟩ := CallPhase.awaiting.inj hk
    cases timer with
    | prompt =>
      rw [(hwaits.2 l (List.mem_append_right _ List.mem_cons_self)).2] at hrejects
      cases hrejects
    | timeout => cases hwaits.1
  | _ => exact hallow.elim

/-- It returns before the prompt only on such a line. -/
theorem rejects_of_clear (hallow : (callProtocol (· = .send pduHex pduLen) False).allows
    (.awaiting p [cmgs pduLen] (taken ++ [l])) .clear) : rejects l := by
  rcases hallow with ⟨why, hk⟩ | ⟨_, timer, p', said, taken', l', e, rfl, hk, hwaits, hexits⟩
  · cases hk
  · obtain ⟨-, rfl, htaken⟩ := CallPhase.awaiting.inj hk
    obtain ⟨-, hl⟩ := List.append_inj' htaken rfl
    cases timer with
    | prompt =>
      rw [List.singleton_inj.mp hl]
      exact hexits.2.1
    | timeout => cases hwaits.1

/-- What the send has taken last stays so, once it returns on it. -/
theorem TookLast.next {k : CallPhase} {c : Call} {a : c.Ans} (h : TookLast pduLen l k)
    (hprompt : isPrompt l = false) (hrejects : rejects l)
    (hallow : (callProtocol (· = .send pduHex pduLen) False).allows k c) :
    TookLast pduLen l (k.next c a) := by
  obtain ⟨taken, ⟨p, rfl⟩ | rfl⟩ := h
  · obtain rfl := eq_clear_of_rejects hprompt hrejects hallow
    exact ⟨taken, .inr rfl⟩
  · cases not_isOver_of_allows hallow

/-- A send that has returned on such a line was rejected. -/
theorem TookLast.rejected {k : CallPhase} {r : Exit} (h : TookLast pduLen l k)
    (hfinal : (Request.send pduHex pduLen).Final k r) :
    k.calm ∧ (rejects l → r = .sent (.error (.rejected l))) := by
  obtain ⟨taken, ⟨p, rfl⟩ | rfl⟩ := h
  · cases Request.isOver_of_final hfinal
  · refine ⟨rfl, fun hrejects => ?_⟩
    rcases hfinal with ⟨why, hk, -⟩ | ⟨timer, said, taken', l', hk, hwaits, hexits⟩
    · cases hk
    · obtain ⟨rfl, htaken⟩ := CallPhase.returned.inj hk
      obtain ⟨-, hl⟩ := List.append_inj' htaken rfl
      obtain rfl := List.singleton_inj.mp hl
      cases timer with
      | prompt => exact hexits.2.2
      | timeout => cases hwaits.1

end

/-! ### What a history tells of the port -/

section

variable {κ : Type}

/-- A caller has closed the port. -/
def isClose : Event κ → Bool
  | .call _ .close _ _ => true
  | _ => false

/-- The port goes away, or a line is too long for the reader. -/
def losesPort : Event κ → Bool
  | .env .unplug _ => true
  | .call _ c a s => tooLong s c a
  | _ => false

/-- The port was closed or lost. -/
def PortGone (past : History κ) : Prop := ∃ x ∈ past, isClose x ∨ losesPort x

theorem portGone_cons {x : Event κ} {past : History κ} (h : PortGone past) :
    PortGone (x :: past) := by
  obtain ⟨y, hy, hgone⟩ := h
  exact ⟨y, List.mem_cons_of_mem x hy, hgone⟩

end

section

variable {s s' : World} {past : History Unit} {r : ReaderStage} {k : CallPhase × CallPhase}
  {c : Call} {a : c.Ans} {pduHex : List UInt8} {pduLen : ℕ} {cmd : List UInt8}

/-- The invariant. -/
structure SendInv (pduLen : ℕ) (s : World) (past : History Unit) (r : ReaderStage)
    (k : CallPhase × CallPhase) : Prop where
  port : PortInv (PortGone past) s r
  first : k.1.isOver = false → k.2 = .outside
  calm : k.1.calm → k.2.calm → ∀ x ∈ past, isClose x = false
  lost : k.1.calm → k.2.foundClosed → ∃ x ∈ past, losesPort x
  /-- The line that the send has taken last, and those on which it returns. -/
  newest : ∀ t p l w past', past = .call t (.recv .prompt p) (.line l) w :: past' →
    ∃ taken, k.1 = .awaiting p [cmgs pduLen] (taken ++ [l])
  after : ∀ t p l w, .call t (.recv .prompt p) (.line l) w ∈ past → isPrompt l = false →
    rejects l → TookLast pduLen l k.1

namespace SendInv

theorem start (hopen : s.Open) : SendInv pduLen s [] .scanning (.outside, .outside) :=
  ⟨.start hopen, fun _ => rfl, fun _ _ _ hx => absurd hx List.not_mem_nil, nofun, nofun,
    fun _ _ _ _ hmem => absurd hmem List.not_mem_nil⟩

/-- What the goroutine has no part in. -/
theorem other {r' : ReaderStage} {x : Event Unit} (hinv : SendInv pduLen s past r k)
    (hport : PortInv (PortGone (x :: past)) s' r') (hclose : isClose x = false)
    (hrecv : ∀ t timer p l w, x ≠ .call t (.recv timer p) (.line l) w) :
    SendInv pduLen s' (x :: past) r' k := by
  refine ⟨hport, hinv.first, fun hcalm hcalm' y hy => ?_, fun hcalm hfound => ?_,
    fun t p l w past' h => ?_, fun t p l w hmem => ?_⟩
  · rcases List.mem_cons.mp hy with rfl | hy
    · exact hclose
    · exact hinv.calm hcalm hcalm' y hy
  · obtain ⟨y, hy, hloses⟩ := hinv.lost hcalm hfound
    exact ⟨y, List.mem_cons_of_mem x hy, hloses⟩
  · exact absurd (List.cons.inj h).1 (hrecv t .prompt p l w)
  · rcases List.mem_cons.mp hmem with h | hmem
    · exact absurd h.symm (hrecv t .prompt p l w)
    · exact hinv.after t p l w hmem

theorem reader (hinv : SendInv pduLen s past r k) (hallow : r.Allows c)
    (hexec : s.exec c a = some s') :
    SendInv pduLen s' (.call .reader c a s :: past) (r.next c a) k := by
  refine hinv.other ((hinv.port.mono portGone_cons).reader (fun hlong => ?_) hallow hexec) ?_ ?_
  · exact ⟨_, List.mem_cons_self, .inr hlong⟩
  · cases c with
    | close => exact hallow.elim
    | _ => rfl
  · rintro t timer p l w h
    cases h
    exact hallow

theorem outer {mayEmit : World → List UInt8 → Bool} {v : Outer} (hinv : SendInv pduLen s past r k)
    (hstep : v.step mayEmit s = some s') : SendInv pduLen s' (.env v s :: past) r k := by
  refine hinv.other ((hinv.port.mono portGone_cons).outer ?_ hstep) rfl nofun
  rintro rfl
  exact ⟨_, List.mem_cons_self, .inr rfl⟩

theorem port_caller (hinv : SendInv pduLen s past r k) (hc : c.ofCaller)
    (hexec : s.exec c a = some s') :
    PortInv (PortGone (.call (.caller ()) c a s :: past)) s' r := by
  refine (hinv.port.mono portGone_cons).caller ?_ hc hexec
  rintro rfl
  exact ⟨_, List.mem_cons_self, .inl rfl⟩

/-- Nobody has closed the port, so what is closed was lost. -/
theorem losesPort_of_closed (hinv : SendInv pduLen s past r k) (hcalm : k.1.calm)
    (hcalm' : k.2.calm) (hclosed : s.closed) : ∃ x ∈ past, losesPort x := by
  obtain ⟨y, hy, hgone | hloses⟩ := hinv.port.closed (.inl hclosed)
  · rw [hinv.calm hcalm hcalm' y hy] at hgone
    cases hgone
  · exact ⟨y, hy, hloses⟩

/-- No `Close` so far, and none now. -/
theorem calm_cons {t : Thread Unit} (hinv : SendInv pduLen s past r k) (hcalm : k.1.calm)
    (hcalm' : k.2.calm) (hc : c ≠ .close) : ∀ x ∈ .call t c a s :: past, isClose x = false := by
  intro y hy
  rcases List.mem_cons.mp hy with rfl | hy
  · cases c with
    | close => exact absurd rfl hc
    | _ => rfl
  · exact hinv.calm hcalm hcalm' y hy

/-- The send keeps the invariant. -/
theorem send (hinv : SendInv pduLen s past r k)
    (hallow : (callProtocol (· = .send pduHex pduLen) False).allows k.1 c)
    (hexec : s.exec c a = some s') :
    SendInv pduLen s' (.call (.caller ()) c a s :: past) r (k.1.next c a, k.2) := by
  have hnew : ∀ p l, (Sigma.mk c a : (c : Call) × c.Ans) = ⟨.recv .prompt p, .line l⟩ →
      ∃ taken, k.1.next c a = .awaiting p [cmgs pduLen] (taken ++ [l]) := by
    intro p l h
    cases h
    obtain ⟨_, said, taken, rfl, hk, hwaits⟩ := hallow
    rw [hk, hwaits.1]
    exact ⟨taken, rfl⟩
  refine ⟨hinv.port_caller (ofCaller_of_allows hallow) hexec,
    fun _ => hinv.first (not_isOver_of_allows hallow), fun hcalm hcalm' => ?_,
    fun hcalm hfound => ?_, fun t p l w past' h => ?_, fun t p l w hmem hprompt hrejects => ?_⟩
  · obtain ⟨hbefore, hc⟩ := CallPhase.calm_of_next hallow hcalm
    exact hinv.calm_cons hbefore hcalm' hc
  · obtain ⟨y, hy, hloses⟩ := hinv.lost (CallPhase.calm_of_next hallow hcalm).1 hfound
    exact ⟨y, List.mem_cons_of_mem _ hy, hloses⟩
  · cases (List.cons.inj h).1
    exact hnew p l rfl
  · rcases List.mem_cons.mp hmem with h | hmem
    · cases h
      obtain ⟨taken, hk⟩ := hnew p l rfl
      exact ⟨taken, .inl ⟨p, hk⟩⟩
    · exact (hinv.after t p l w hmem hprompt hrejects).next hprompt hrejects hallow

/-- So does the command after it. -/
theorem execute (hinv : SendInv pduLen s past r k) (hover : k.1.isOver)
    (hallow : (callProtocol (· = .execute cmd) False).allows k.2 c)
    (hexec : s.exec c a = some s') :
    SendInv pduLen s' (.call (.caller ()) c a s :: past) r (k.1, k.2.next c a) := by
  have hnew : ∀ t p l w, (.call (.caller ()) c a s : Event Unit) ≠
      .call t (.recv .prompt p) (.line l) w := by
    intro t p l w h
    cases h
    obtain ⟨_, said, taken, rfl, -, hwaits⟩ := hallow
    exact hwaits
  refine ⟨hinv.port_caller (ofCaller_of_allows hallow) hexec, fun h => ?_, fun hcalm hcalm' => ?_,
    fun hcalm hfound => ?_, fun t p l w past' h => ?_, fun t p l w hmem => ?_⟩
  · rw [hover] at h
    cases h
  · obtain ⟨hbefore, hc⟩ := CallPhase.calm_of_next hallow hcalm'
    exact hinv.calm_cons hcalm hbefore hc
  · have hlost : ∃ x ∈ past, losesPort x := by
      rcases CallPhase.closed_of_foundClosed hallow hfound hexec with hbefore | ⟨hcalm', hclosed⟩
      · exact hinv.lost hcalm hbefore
      · exact hinv.losesPort_of_closed hcalm hcalm' hclosed
    obtain ⟨y, hy, hloses⟩ := hlost
    exact ⟨y, List.mem_cons_of_mem _ hy, hloses⟩
  · exact absurd (List.cons.inj h).1 (hnew t p l w)
  · rcases List.mem_cons.mp hmem with h | hmem
    · exact absurd h.symm (hnew t p l w)
    · exact hinv.after t p l w hmem

/-- The goroutine keeps the invariant. -/
theorem caller (hinv : SendInv pduLen s past r k)
    (hallow : (sendThenProtocol pduHex pduLen cmd).allows k c) (hexec : s.exec c a = some s') :
    SendInv pduLen s' (.call (.caller ()) c a s :: past) r
      ((sendThenProtocol pduHex pduLen cmd).next k c a) := by
  unfold sendThenProtocol Protocol.andThen at hallow ⊢
  dsimp only at hallow ⊢
  split_ifs at hallow ⊢ with hover
  · exact hinv.execute hover hallow hexec
  · exact hinv.send hallow hexec

end SendInv

end

/-! ### Runs -/

/-- Before one goroutine makes these calls. -/
def requestsStart (mayEmit : World → List UInt8 → Bool) (s : World) (requests : List Request) :
    RequestConfig :=
  (system Unit mayEmit).inTurn.recorded.start ⟨s, []⟩ (requestEntry requests)

section

variable {mayEmit : World → List UInt8 → Bool} {pduHex : List UInt8} {pduLen : ℕ}
  {cmd : List UInt8}

/-- The protocols of the reader and the goroutine. -/
def sendThenProtocols (pduHex : List UInt8) (pduLen : ℕ) (cmd : List UInt8) :
    Thread Unit → Protocol Call Call.Ans (ReaderStage × CallPhase × CallPhase)
  | .reader => stageProtocol (CallPhase × CallPhase)
  | .caller _ => (sendThenProtocol pduHex pduLen cmd).onSnd ReaderStage

/-- The goroutine goes on with what is still to be done. -/
theorem turn_obeys {q : ReaderStage × CallPhase × CallPhase} {w : System.Turns Label Exit}
    (hhead : TurnHead pduHex pduLen cmd q.2 w) :
    ((system Unit mayEmit).inTurn.block (.caller ()) w).Obeys
      ((sendThenProtocol pduHex pduLen cmd).onSnd ReaderStage) q
      fun res q' => res.elim (TurnHead pduHex pduLen cmd q'.2) fun es =>
        ∃ e e', es = [e, e'] ∧ BothEnded pduHex pduLen cmd q'.2 e e' := by
  rcases hhead with ⟨l, rfl, hl, hk⟩ | ⟨e, l, rfl, hfinal, hl⟩ | ⟨e, e', rfl, hended⟩
  · refine ((block_keeps hl).andThen_left fun _ _ => not_isOver_of_allows).onSnd.bind
      fun res q' hres => ?_
    cases res with
    | inl l' => exact .inl ⟨l', rfl, hres.1, hres.2.trans hk⟩
    | inr e =>
      obtain ⟨⟨_, rfl, hfinal⟩, hk'⟩ := hres
      exact .inr (.inl ⟨e, .execute cmd, rfl, hfinal, rfl, .inl (hk'.trans hk)⟩)
  · refine ((block_keeps hl).andThen_right (Request.isOver_of_final hfinal)).onSnd.bind
      fun res q' hres => ?_
    obtain ⟨hk, hres⟩ := hres
    rw [← hk] at hfinal
    cases res with
    | inl l' => exact .inr (.inl ⟨e, l', rfl, hfinal, hres⟩)
    | inr e' =>
      obtain ⟨_, rfl, hfinal'⟩ := hres
      exact .inr (.inr ⟨e, e', rfl, hfinal, hfinal'⟩)
  · exact ⟨e, e', rfl, hended⟩

variable (mayEmit pduHex pduLen cmd) in
/-- The proof outline. -/
def sendThenOutline :
    System.Outline (system Unit mayEmit).inTurn.recorded
      (sendThenProtocols pduHex pduLen cmd) where
  head t w q :=
    match t with
    | .reader => (∃ done, w = ⟨done, [.reader]⟩ ∧ q.1 = .scanning) ∨ w.todo = []
    | .caller _ => TurnHead pduHex pduLen cmd q.2 w
  final t es q :=
    match t with
    | .reader => True
    | .caller _ => ∃ e e', es = [e, e'] ∧ BothEnded pduHex pduLen cmd q.2 e e'
  inv s q := SendInv pduLen s.state s.history (q .reader).1 (q (.caller ())).2
  block_obeys t w q hhead := by
    cases t with
    | reader =>
      rcases hhead with ⟨done, rfl, hq⟩ | htodo
      · refine (reader_stages hq).bind fun res q' hres => ?_
        cases res with
        | inl l =>
          obtain ⟨rfl, hq'⟩ := hres
          exact .inl ⟨done, rfl, hq'⟩
        | inr e => exact .inr rfl
      · obtain ⟨done, todo⟩ := w
        obtain rfl : todo = [] := htodo
        trivial
    | caller u =>
      refine (turn_obeys hhead).mono fun res q' hres => ?_
      cases res <;> exact hres
  call_inv t _ s q c a s' hinv hallow hexec := by
    obtain ⟨s₁, hcall, rfl⟩ := System.recorded_exec_iff.mp hexec
    cases t with
    | reader => exact hinv.reader hallow hcall
    | caller u => exact hinv.caller hallow hcall
  env_inv v s q s' hinv hstep := by
    obtain ⟨s₁, henv, rfl⟩ := System.recorded_env_iff.mp hstep
    exact hinv.outer henv
  crash_inv _ _ _ _ _ _ hcrash := by cases hcrash

theorem sendInv_reach {s₀ : World} (hopen : s₀.Open) {c : RequestConfig}
    (hreach : (system Unit mayEmit).inTurn.recorded.Reach
      (requestsStart mayEmit s₀ [.send pduHex pduLen, .execute cmd]) c) :
    (sendThenOutline mayEmit pduHex pduLen cmd).Holds c := by
  refine System.Outline.reach _ (System.Outline.holds_start _
    (q := fun _ => (.scanning, .outside, .outside))
    (show (sendThenOutline mayEmit pduHex pduLen cmd).inv ⟨s₀, []⟩ _ from .start hopen)
    fun t => ?_) hreach
  cases t with
  | reader => exact .inl ⟨[], rfl, rfl⟩
  | caller u => exact .inl ⟨.executeSend pduHex pduLen, rfl, ⟨rfl, .inl rfl⟩, rfl⟩

/-- Of the final result codes of an error, the send returns on those that are no `+CMS ERROR:`. -/
theorem rejects_iff {l : Line} (hl : isFinalError l) :
    isPrompt l = false ∧ (rejects l ↔ hasPrefix l (lit "+CMS ERROR:") = false) := by
  rw [isFinalError, Bool.or_eq_true, Bool.or_eq_true, decide_eq_true_iff] at hl
  rcases hl with (rfl | hcme) | hcms
  · decide
  · obtain ⟨t, rfl⟩ := List.isPrefixOf_iff_prefix.mp hcme
    exact ⟨rfl, fun _ => rfl, fun _ => rfl⟩
  · obtain ⟨t, rfl⟩ := List.isPrefixOf_iff_prefix.mp hcms
    exact ⟨rfl, nofun, nofun⟩

/-- A goroutine whose send waits, and has taken a line on which it returns, is about to return. -/
theorem exists_clear {q : ReaderStage × CallPhase × CallPhase} {p : ℕ} {taken : List Line}
    {l : Line} (hq : q.2.1 = .awaiting p [cmgs pduLen] (taken ++ [l]))
    (hprompt : isPrompt l = false) (hrejects : rejects l)
    {x : System.Local Call Call.Ans (System.Turns Label Exit) (List Exit)}
    (hx : (sendThenOutline mayEmit pduHex pduLen cmd).Follows (.caller ()) x q) :
    ∃ next, x = .running (.call .clear next) := by
  have hnotEnded : ∀ e, ¬ (Request.send pduHex pduLen).Final q.2.1 e := by
    intro e hfinal
    have hover := Request.isOver_of_final hfinal
    rw [hq] at hover
    cases hover
  have hnotHead : ∀ l', ¬ CallHead (· = .send pduHex pduLen) False q.2.1 l' := by
    intro l' hhead
    rw [hq] at hhead
    cases l' with
    | reader => exact hhead
    | execute cmd' | collect cmd' p' lines => cases hhead.1
    | executeSend hex n => rcases hhead.2 with hk | ⟨hfalse, -⟩ <;> contradiction
    | awaitPrompt hex p' =>
      obtain ⟨n, taken', -, hk, htaken⟩ := hhead
      obtain ⟨-, -, rfl⟩ := CallPhase.awaiting.inj hk
      rw [(htaken l (List.mem_append_right _ List.mem_cons_self)).2] at hrejects
      cases hrejects
    | awaitResult p' mr =>
      obtain ⟨hex, n, taken', -, hk, -⟩ := hhead
      exact absurd (List.cons.inj (CallPhase.awaiting.inj hk).2.1).2 (List.cons_ne_nil _ _).symm
  cases x with
  | stopped es =>
    obtain ⟨e, e', -, hended⟩ := hx
    exact absurd hended.1 (hnotEnded e)
  | running prog =>
    cases prog with
    | ret res =>
      cases res with
      | inl w =>
        rcases hx with ⟨l', -, hhead, -⟩ | ⟨e, l', -, hfinal, -⟩ | ⟨e, e', -, hended⟩
        · exact absurd hhead (hnotHead l')
        · exact absurd hfinal (hnotEnded e)
        · exact absurd hended.1 (hnotEnded e)
      | inr es =>
        obtain ⟨e, e', -, hended⟩ := hx
        exact absurd hended.1 (hnotEnded e)
    | call c next =>
      have hallow : (sendThenProtocol pduHex pduLen cmd).allows q.2 c := hx.1
      unfold sendThenProtocol Protocol.andThen at hallow
      dsimp only at hallow
      rw [hq] at hallow
      obtain rfl := eq_clear_of_rejects hprompt hrejects hallow
      exact ⟨next, rfl⟩

/-- `Execute` returns `ErrClosed` only if it has found `closed` closed. -/
theorem foundClosed_of_final {k : CallPhase} {lines : List Line}
    (h : (Request.execute cmd).Final k (.executed lines (some .closed))) : k.foundClosed := by
  rcases h with ⟨why, rfl, hfails⟩ | ⟨timer, said, taken, l, -, hwaits, hexits⟩
  · cases why with
    | refused | abandoned => rfl
    | unwritten | shut => cases hfails
  · cases timer with
    | prompt => exact hwaits.elim
    | timeout =>
      obtain ⟨-, herr⟩ := Exit.executed.inj hexits.2
      rw [Reply.errOf] at herr
      split_ifs at herr
      cases herr

/-- **A send that is rejected before the prompt.**  A goroutine calls `ExecuteSend` and then
`Execute`, on a port that is open; the modem sends any bytes at any time.  When `ExecuteSend` has
just taken the final result code of an error while it waited for the prompt, it returns at once, and
nobody has closed the port; it returns that error, and the next `Execute` returns `ErrClosed` only
if the port was lost otherwise.  This is so if and only if the code is not `+CMS ERROR:`. -/
theorem send_rejected_iff (mayEmit : World → List UInt8 → Bool) {s₀ : World} (hopen : s₀.Open)
    (pduHex : List UInt8) (pduLen : ℕ) (cmd : List UInt8) {c : RequestConfig}
    (hreach : (system Unit mayEmit).inTurn.recorded.Reach
      (requestsStart mayEmit s₀ [.send pduHex pduLen, .execute cmd]) c)
    {p : ℕ} {l : Line} {s : World} {past : History Unit}
    (hhistory : c.state.history = .call (.caller ()) (.recv .prompt p) (.line l) s :: past)
    (hl : isFinalError l) :
    ((∃ c' s', (system Unit mayEmit).inTurn.recorded.Reach c c' ∧
        c'.state.history = .call (.caller ()) .clear () s' :: c.state.history ∧
        ∀ x ∈ c'.state.history, isClose x = false) ∧
      ∀ c' r r', (system Unit mayEmit).inTurn.recorded.Reach c c' →
        c'.threads (.caller ()) = .stopped [r, r'] →
        r = .sent (.error (.rejected l)) ∧ ∀ lines, r' = .executed lines (some .closed) →
          ∃ x ∈ c'.state.history, losesPort x) ↔
      hasPrefix l (lit "+CMS ERROR:") = false := by
  obtain ⟨hprompt, hrejects⟩ := rejects_iff hl
  refine ⟨fun h => ?_, fun hcms => ?_⟩
  · -- a goroutine that waits on does not return
    obtain ⟨⟨c', s', hreach', hclear, -⟩, -⟩ := h
    obtain ⟨c₁, hreach₁, hstate, next, ch, s₁, hrun, -⟩ := System.exists_reach_of_history
      (hreach.trans hreach') rfl (show c'.state.history = [] ++ _ :: c.state.history from hclear)
    obtain ⟨q, hinv, hfollows⟩ := sendInv_reach hopen hreach₁
    have hinv : SendInv pduLen c₁.state.state c₁.state.history (q .reader).1
      (q (.caller ())).2 := hinv
    rw [hstate] at hinv
    have hcaller := hfollows (.caller ())
    rw [hrun] at hcaller
    have hallow : (sendThenProtocol pduHex pduLen cmd).allows (q (.caller ())).2 .clear := hcaller.1
    obtain ⟨taken, hk⟩ := hinv.newest _ p l s past hhistory
    unfold sendThenProtocol Protocol.andThen at hallow
    dsimp only at hallow
    rw [hk] at hallow
    exact hrejects.mp (rejects_of_clear hallow)
  · have hrej : rejects l := hrejects.mpr hcms
    obtain ⟨q, hinv, hfollows⟩ := sendInv_reach hopen hreach
    have hinv : SendInv pduLen c.state.state c.state.history (q .reader).1 (q (.caller ())).2 :=
      hinv
    obtain ⟨taken, hk⟩ := hinv.newest _ p l s past hhistory
    refine ⟨?_, fun c' r r' hreach' hstop => ?_⟩
    · obtain ⟨next, hrun⟩ := exists_clear hk hprompt hrej (hfollows (.caller ()))
      obtain ⟨c', hstep, hstate, -⟩ := System.exists_step_call
        (S := (system Unit mayEmit).inTurn.recorded) () (a := ()) hrun
        (System.recorded_exec_iff.mpr ⟨_, rfl, rfl⟩)
      refine ⟨c', c.state.state, .single hstep, by rw [hstate], fun x hx => ?_⟩
      rw [hstate] at hx
      rcases List.mem_cons.mp hx with rfl | hx
      · rfl
      · refine hinv.calm (by rw [hk]; rfl) ?_ x hx
        rw [hinv.first (by rw [hk]; rfl)]
        rfl
    · obtain ⟨q', hinv', hfollows'⟩ := sendInv_reach hopen (hreach.trans hreach')
      have hinv' : SendInv pduLen c'.state.state c'.state.history (q' .reader).1
        (q' (.caller ())).2 := hinv'
      obtain ⟨later, hlater⟩ := System.exists_append_of_reach hreach'
      have hmem : .call (.caller ()) (.recv .prompt p) (.line l) s ∈ c'.state.history := by
        rw [hlater, hhistory]
        exact List.mem_append_right later List.mem_cons_self
      have hlast := hinv'.after _ p l s hmem hprompt hrej
      have hcaller := hfollows' (.caller ())
      rw [hstop] at hcaller
      obtain ⟨r₁, r₁', hres, hended⟩ := hcaller
      cases hres
      obtain ⟨hcalm, hrejected⟩ := hlast.rejected hended.1
      refine ⟨hrejected hrej, ?_⟩
      rintro lines rfl
      exact hinv'.lost hcalm (foundClosed_of_final hended.2)

end

/-- The moves up to the moment at which `ExecuteSend` has taken this line. -/
def rejectMoves (line : Line) : Moves Unit :=
  beginMoves 0 () ++ emitMoves (line ++ crlf) ++ routeMoves 0 line ++
    [.call (.caller ()) () (runAnswer 0 none (.line line))]

/-- The answers on a serializer that is closed. -/
def closedAnswer : (c : Call) → c.Ans
  | .pollClosed => true
  | c => runAnswer 0 none .timer c

/-- A send that is answered by `ERROR` returns at once. -/
theorem send_rejected_iff_error :
    ∃ c c' : RequestConfig, ∃ s', (system Unit fun _ _ => true).inTurn.recorded.Reach
        (requestsStart (fun _ _ => true) (World.idle [] []) [.send (lit "00") 1,
          .execute (lit "AT")]) c ∧
      (system Unit fun _ _ => true).inTurn.recorded.Reach c c' ∧
      c'.state.history = .call (.caller ()) .clear () s' :: c.state.history ∧
      ∀ x ∈ c'.state.history, isClose x = false := by
  have hplay : ∃ c s past, (system Unit fun _ _ => true).inTurn.recorded.play
      (requestsStart (fun _ _ => true) (World.idle [] []) [.send (lit "00") 1,
        .execute (lit "AT")]) (rejectMoves (lit "ERROR")) = some c ∧
      c.state.history =
        .call (.caller ()) (.recv .prompt 0) (.line (lit "ERROR")) s :: past :=
    ⟨_, _, _, rfl, rfl⟩
  obtain ⟨c, s, past, hplay, hhistory⟩ := hplay
  have hreach := System.reach_of_play hplay
  obtain ⟨⟨c', s', hreach', hclear, hcalm⟩, -⟩ :=
    (send_rejected_iff _ (World.open_idle [] []) (lit "00") 1 (lit "AT") hreach hhistory
      (by decide)).mpr (by decide)
  exact ⟨c, c', s', hreach, hreach', hclear, hcalm⟩

/-- A send that is answered by `+CMS ERROR: 38`: it waits on, until the timer of the prompt lets it
close the port.  It ends in `ErrSendPrompt`, and the next command in `ErrClosed`. -/
theorem not_send_rejected :
    ∃ c c' : RequestConfig, (system Unit fun _ _ => true).inTurn.recorded.Reach
        (requestsStart (fun _ _ => true) (World.idle [] []) [.send (lit "00") 1,
          .execute (lit "AT")]) c ∧
      (∃ s past, c.state.history =
        .call (.caller ()) (.recv .prompt 0) (.line (lit "+CMS ERROR: 38")) s :: past) ∧
      (system Unit fun _ _ => true).inTurn.recorded.Reach c c' ∧
      c'.threads (.caller ()) =
        .stopped [.sent (.error .sendPrompt), .executed [] (some .closed)] ∧
      (∃ x ∈ c'.state.history, isClose x) ∧ ∀ x ∈ c'.state.history, losesPort x = false := by
  have hplay : ∃ c c', (system Unit fun _ _ => true).inTurn.recorded.play
      (requestsStart (fun _ _ => true) (World.idle [] []) [.send (lit "00") 1,
        .execute (lit "AT")]) (rejectMoves (lit "+CMS ERROR: 38")) = some c ∧
      (∃ s past, c.state.history =
        .call (.caller ()) (.recv .prompt 0) (.line (lit "+CMS ERROR: 38")) s :: past) ∧
      (system Unit fun _ _ => true).inTurn.recorded.play c
        ([.jump (.caller ())] ++ callMoves 3 (.caller ()) (runAnswer 0 none .timer) ++
          [.env .fillEnd] ++ callMoves 2 .reader (runAnswer 0 none .timer) ++
          callMoves 1 (.caller ()) closedAnswer ++ [.jump (.caller ())]) = some c' ∧
      c'.threads (.caller ()) =
        .stopped [.sent (.error .sendPrompt), .executed [] (some .closed)] ∧
      c'.state.history.any isClose ∧ c'.state.history.all fun x => !losesPort x :=
    ⟨_, _, rfl, ⟨_, _, rfl⟩, rfl, rfl, rfl, rfl⟩
  obtain ⟨c, c', hplay, hread, hplay', hstop, hclose, hloses⟩ := hplay
  refine ⟨c, c', System.reach_of_play hplay, hread, System.reach_of_play hplay', hstop,
    List.any_eq_true.mp hclose, fun x hx => ?_⟩
  simpa using List.all_eq_true.mp hloses x hx

end SmsGate.At.Serializer
