import SmsGate.At.Equiv.Calls
import SmsGate.Prog.InTurn

/-!
# Calls and their replies

Callers of `Execute` and `ExecuteSend` next to the reader, with a modem that answers their commands
one by one.  As long as calls do not overlap, a call that has returned has taken its reply to the
end, or has left a port behind that takes no more commands (`CallsInv.quiet`).  There are
exceptions: the intermediate lines on which `ExecuteSend` returns (`cutsShort`), and a PDU that
could not be written to a port that is still there (`Lossless`).

* `execute_serialized`: calls of `Execute` that do not overlap return what the modem answers to
  them; `not_execute_serialized` is a run in which two of them overlap;
* `taken_from_own_reply`: what a goroutine takes in one call after the other are the lines of the
  reply to this call; `not_taken_from_own_reply` is a run in which the modem sends a `+CMGS:` line
  without a number.
-/

namespace SmsGate.At.Serializer

open Go Go.Strings

/-! ### What holds along the way -/

section Invariant

variable {κ : Type} [DecidableEq κ] (reply : ℕ → List UInt8 → Reply)

/-- What the modem has sent, and what it had sent when the last command was written. -/
structure ModemInv (s : World) : Prop where
  emitted : answers s.emitted <+: expected reply (commands s.written)
  eof : s.scanner.eof = true → s.ended = true
  before : (expected reply (commands s.written).dropLast).length ≤ (answers s.emitted).length

/-- No line is to come that answers a command of the past, or no command can be written any more. -/
def Settled (s : World) : Prop :=
  s.ended ∨ (expected reply (commands s.written)).length ≤ s.loaded.length

/-- The same, or the reader has stopped. -/
def Quiet (s : World) : Prop := s.closed ∨ Settled reply s

/-- What is known of a caller in each phase; `own` is the number of its last command. -/
def CallOk (s : World) (own : Option ℕ) : CallPhase → Prop
  | .outside | .opened | .expired | .gone _ => True
  | .returned said taken => s.overflow = false → s.scanner.eof = false →
    ∃ n cmd, own = some n ∧ said.head? = some cmd ∧ taken = (reply n cmd).lines
  | .installed p => s.pending = some p ∧ s.routed p = s.linesCh p ∧
    (s.ended ∨ (expected reply (commands s.written)).length ≤ s.since p)
  | .awaiting p said taken => s.pending = some p ∧ s.routed p = taken ++ s.linesCh p ∧
    ∃ cmds cmd, said.head? = some cmd ∧ commands s.written = cmds ++ [cmd] ∧
      s.since p = (expected reply cmds).length ∧ own = some cmds.length
  | .failed _ => Quiet reply s

/-- The invariant of the callers, as long as their calls do not overlap. -/
structure CallsInv (s : World) (past : History κ) (phase : κ → CallPhase) : Prop where
  modem : ModemInv reply s
  busy : ∀ k, busy k past = (phase k).inCall
  alone : ∀ k k', (phase k).inCall → (phase k').inCall → k = k'
  quiet : (∀ k, (phase k).inCall = false) → Quiet reply s
  settled : (∀ k, (phase k).inCall = false) → ∀ k, phase k = .opened → overtaken k past = false →
    Settled reply s
  call : ∀ k, CallOk reply s (ownCommand k past) (phase k)

variable {reply} {s s' : World} {past past' : History κ} {phase : κ → CallPhase}

theorem Settled.grow (h : Settled reply s) (hgrows : s.Grows s') : Settled reply s' := by
  refine h.imp hgrows.ended fun hloaded => ?_
  rw [hgrows.written]
  exact hloaded.trans hgrows.loaded

theorem Quiet.grow (h : Quiet reply s) (hgrows : s.Grows s') : Quiet reply s' :=
  h.imp hgrows.closed fun hsettled => Settled.grow hsettled hgrows

theorem CallOk.grow {own : Option ℕ} {k : CallPhase} (h : CallOk reply s own k)
    (hgrows : s.Grows s') : CallOk reply s' own k := by
  cases k with
  | outside | opened | expired | gone why => trivial
  | returned said taken => exact fun hover heof => h (hgrows.overflow hover) (hgrows.eof heof)
  | installed p =>
    obtain ⟨hpending, hrouted, hsince⟩ := h
    obtain ⟨lines, hch, hrouted'⟩ := hgrows.channels p
    refine ⟨hgrows.pending.trans hpending, by rw [hch, hrouted', hrouted], ?_⟩
    rw [hgrows.written, hgrows.since]
    exact hsince.imp_left hgrows.ended
  | awaiting p said taken =>
    obtain ⟨hpending, hrouted, hown⟩ := h
    obtain ⟨lines, hch, hrouted'⟩ := hgrows.channels p
    refine ⟨hgrows.pending.trans hpending, ?_, ?_⟩
    · rw [hch, hrouted', hrouted, List.append_assoc]
    · rwa [hgrows.written, hgrows.since]
  | failed why => exact Quiet.grow h hgrows

/-- The reader and the modem keep the invariant. -/
theorem CallsInv.grow (hinv : CallsInv reply s past phase) (hgrows : s.Grows s')
    (hmodem : ModemInv reply s') (hbusy : ∀ k, Serializer.busy k past' = Serializer.busy k past)
    (hovertaken : ∀ k, overtaken k past' = overtaken k past)
    (hown : ∀ k, ownCommand k past' = ownCommand k past) : CallsInv reply s' past' phase where
  modem := hmodem
  busy k := (hbusy k).trans (hinv.busy k)
  alone := hinv.alone
  quiet hout := (hinv.quiet hout).grow hgrows
  settled hout k hk hnot := (hinv.settled hout k hk ((hovertaken k).symm.trans hnot)).grow hgrows
  call k := by
    rw [hown]
    exact (hinv.call k).grow hgrows

/-- A step of the one caller whose call is under way, or is the next. -/
theorem CallsInv.update {k : κ} {k' : CallPhase} (hinv : CallsInv reply s past phase)
    (halone : ∀ j, j ≠ k → (phase j).inCall = false) (hmodem : ModemInv reply s')
    (hover : s'.overflow = s.overflow) (heof : s'.scanner.eof = s.scanner.eof)
    (hbusy : ∀ j, Serializer.busy j past' = if j = k then k'.inCall else Serializer.busy j past)
    (hown : ∀ j, j ≠ k → ownCommand j past' = ownCommand j past)
    (hquiet : k'.inCall = false →
      Quiet reply s' ∧ k' ≠ .opened ∧ ∀ j, j ≠ k → overtaken j past' = true)
    (hcall : CallOk reply s' (ownCommand k past') k') :
    CallsInv reply s' past' (Function.update phase k k') := by
  have hother : ∀ j, j ≠ k → (Function.update phase k k' j).inCall = false := by
    intro j hj
    rw [Function.update_of_ne hj]
    exact halone j hj
  have hreturned : (∀ j, (Function.update phase k k' j).inCall = false) → k'.inCall = false := by
    intro hout
    have hk := hout k
    rwa [Function.update_self] at hk
  refine ⟨hmodem, fun j => ?_, fun i j hi hj => ?_, fun hout => (hquiet (hreturned hout)).1,
    fun hout j hphase hnot => ?_, fun j => ?_⟩
  · by_cases hj : j = k
    · subst hj
      rw [hbusy, if_pos rfl, Function.update_self]
    · rw [hbusy, if_neg hj, Function.update_of_ne hj, hinv.busy]
  · have hmine : ∀ j, (Function.update phase k k' j).inCall = true → j = k := by
      intro j hj
      by_contra hne
      rw [hother j hne] at hj
      cases hj
    rw [hmine i hi, hmine j hj]
  · obtain ⟨-, hopened, hovertaken⟩ := hquiet (hreturned hout)
    by_cases hj : j = k
    · subst hj
      rw [Function.update_self] at hphase
      exact absurd hphase hopened
    · rw [hovertaken j hj] at hnot
      cases hnot
  · by_cases hj : j = k
    · subst hj
      rwa [Function.update_self]
    · -- the others have returned, and what they have returned stays as it is
      rw [Function.update_of_ne hj, hown j hj]
      have hcallj := hinv.call j
      have hout := halone j hj
      cases hphase : phase j with
      | outside | opened | gone why => trivial
      | returned said taken =>
        rw [hphase] at hcallj
        intro hover' heof'
        exact hcallj (hover ▸ hover') (heof ▸ heof')
      | _ =>
        rw [hphase] at hout
        cases hout

theorem CallsInv.others {k : κ} (hinv : CallsInv reply s past phase)
    (hk : (phase k).inCall = true) : ∀ j, j ≠ k → (phase j).inCall = false := by
  intro j hj
  by_contra hcall
  exact hj (hinv.alone j k (eq_true_of_ne_false hcall) hk)

/-- A step of a caller within its call. -/
theorem CallsInv.within {k : κ} {k' : CallPhase} (hinv : CallsInv reply s past phase)
    (hk : (phase k).inCall = true) (hk' : k'.inCall = true) (hmodem : ModemInv reply s')
    (hover : s'.overflow = s.overflow) (heof : s'.scanner.eof = s.scanner.eof)
    (hbusy : ∀ j, Serializer.busy j past' = Serializer.busy j past)
    (hown : ∀ j, j ≠ k → ownCommand j past' = ownCommand j past)
    (hcall : CallOk reply s' (ownCommand k past') k') :
    CallsInv reply s' past' (Function.update phase k k') := by
  refine hinv.update (hinv.others hk) hmodem hover heof (fun j => ?_) hown (fun hout => ?_) hcall
  · rw [hbusy]
    split_ifs with hj
    · rw [hj, hinv.busy, hk, hk']
    · rfl
  · rw [hk'] at hout
    cases hout

section Steps

variable {calls : Request → Prop} {k : κ} {r : ReaderStage}

/-- A caller looks at `closed`: no call has begun, whoever else is in one. -/
theorem callsInv_pollClosed {closed : Bool} (hinv : CallsInv reply s past phase)
    (hk : (phase k).inCall = false) (hexec : s.exec .pollClosed closed = some s') :
    CallsInv reply s' (.call (.caller k) .pollClosed closed s :: past)
      (Function.update phase k ((phase k).next .pollClosed closed)) := by
  obtain ⟨hclosed, hs⟩ := Option.ite_none_right_eq_some.mp hexec
  cases hs
  have hsame : ∀ j, (Function.update phase k ((phase k).next .pollClosed closed) j).inCall =
      (phase j).inCall := by
    intro j
    by_cases hj : j = k
    · subst hj
      rw [Function.update_self, hk]
      cases closed <;> rfl
    · rw [Function.update_of_ne hj]
  refine ⟨hinv.modem, fun j => (hinv.busy j).trans (hsame j).symm, fun i j hi hj => ?_,
    fun hout => hinv.quiet fun j => (hsame j).symm.trans (hout j), fun hout j hphase hnot => ?_,
    fun j => ?_⟩
  · exact hinv.alone i j ((hsame i).symm.trans hi) ((hsame j).symm.trans hj)
  · have hbefore : ∀ j, (phase j).inCall = false := fun j => (hsame j).symm.trans (hout j)
    by_cases hj : j = k
    · subst hj
      rw [Function.update_self] at hphase
      cases closed with
      | true => cases hphase
      | false =>
        refine (hinv.quiet hbefore).resolve_left ?_
        rw [← hclosed]
        exact Bool.false_ne_true
    · rw [Function.update_of_ne hj] at hphase
      refine hinv.settled hbefore j hphase ?_
      have hnot : (decide (k ≠ j) && overtaken j past) = false := hnot
      rwa [decide_eq_true (Ne.symm hj), Bool.true_and] at hnot
  · by_cases hj : j = k
    · subst hj
      rw [Function.update_self]
      cases closed <;> trivial
    · rw [Function.update_of_ne hj]
      exact hinv.call j

/-- A call begins: the replies to all commands before it have been heard out. -/
theorem callsInv_install {p : ℕ} (hrouting : RoutingInv [] s r)
    (hinv : CallsInv reply s past phase)
    (hserial : Serial (.call (.caller k) .install p s :: past)) (hk : phase k = .opened)
    (hexec : s.exec .install p = some s') :
    CallsInv reply s' (.call (.caller k) .install p s :: past)
      (Function.update phase k (.installed p)) := by
  obtain ⟨hp, hs⟩ := Option.ite_none_right_eq_some.mp hexec
  cases hs
  obtain ⟨hbusy, hovertaken, -⟩ := hserial
  have halone : ∀ j, j ≠ k → (phase j).inCall = false := fun j hj =>
    (hinv.busy j).symm.trans (hbusy j hj)
  have hout : ∀ j, (phase j).inCall = false := by
    intro j
    by_cases hj : j = k
    · rw [hj, hk]
      rfl
    · exact halone j hj
  have hsettled : Settled reply s :=
    (hinv.quiet hout).elim (fun hclosed => hinv.settled hout k hk (hovertaken hclosed)) id
  have hrouted := (hrouting.fresh p hp.ge).1
  refine hinv.update halone ⟨hinv.modem.emitted, hinv.modem.eof, hinv.modem.before⟩
    rfl rfl (fun j => ?_) (fun _ _ => rfl) nofun ⟨rfl, ?_, ?_⟩
  · change (decide (k = j) || Serializer.busy j past) = _
    by_cases hj : j = k
    · rw [if_pos hj, decide_eq_true hj.symm]
      rfl
    · rw [if_neg hj, decide_eq_false (Ne.symm hj), Bool.false_or]
  · have hqueued := hrouting.queued p
    rw [hrouted] at hqueued
    exact hrouted.trans (List.subset_nil.mp hqueued).symm
  · dsimp only
    rw [Function.update_self]
    exact hsettled

/-- A command is written. -/
theorem callsInv_write_command {p : ℕ} {data : List UInt8} (hrouting : RoutingInv [] s r)
    (hinv : CallsInv reply s past phase) (hdata : isCommand data) (hk : phase k = .installed p)
    (hended : s.ended = false) :
    CallsInv reply { s with written := s.written ++ [data] }
      (.call (.caller k) (.write data) true s :: past)
      (Function.update phase k (.awaiting p [data] [])) := by
  have hcall := hinv.call k
  rw [hk] at hcall
  obtain ⟨hpending, hrouted, hsince⟩ := hcall
  have heof : s.scanner.eof = false := by
    by_contra heof
    rw [hinv.modem.eof (eq_true_of_ne_false heof)] at hended
    cases hended
  have hsince : (expected reply (commands s.written)).length ≤ s.since p := by
    refine hsince.resolve_left ?_
    rw [hended]
    exact Bool.false_ne_true
  have hloaded := (hrouting.pending p hpending).1
  have hanswers := (hrouting.prefix_loaded heof).length_le
  have hemitted := hinv.modem.emitted.length_le
  rw [List.nil_append, List.length_append] at hanswers
  have hcommands : commands (s.written ++ [data]) = commands s.written ++ [data] :=
    commands_concat hdata
  have hown : ∀ j, ownCommand j (.call (.caller k) (.write data) true s :: past) =
      if k = j ∧ isCommand data then some (commands s.written).length else ownCommand j past :=
    fun _ => rfl
  refine hinv.within (by rw [hk]; rfl) rfl ⟨?_, hinv.modem.eof, ?_⟩ rfl rfl (fun _ => rfl)
    (fun j hj => ?_) ⟨hpending, hrouted, commands s.written, data, rfl, hcommands, ?_, ?_⟩
  · dsimp only
    rw [hcommands, expected_concat]
    exact hinv.modem.emitted.trans (List.prefix_append _ _)
  · dsimp only
    rw [hcommands, List.dropLast_concat]
    omega
  · rw [hown, if_neg fun h => hj h.1.symm]
  · dsimp only
    omega
  · rw [hown, if_pos ⟨rfl, hdata⟩]

/-- A PDU is written. -/
theorem callsInv_write_pdu {p : ℕ} {data cmd : List UInt8} {taken : List Line}
    (hinv : CallsInv reply s past phase) (hdata : isCommand data = false)
    (hk : phase k = .awaiting p [cmd] taken) :
    CallsInv reply { s with written := s.written ++ [data] }
      (.call (.caller k) (.write data) true s :: past)
      (Function.update phase k (.awaiting p [cmd, data] taken)) := by
  have hcall := hinv.call k
  rw [hk] at hcall
  have hcommands : commands (s.written ++ [data]) = commands s.written :=
    commands_concat_of_not hdata
  have hown : ∀ j, ownCommand j (.call (.caller k) (.write data) true s :: past) =
      ownCommand j past := by
    intro j
    change (if k = j ∧ isCommand data then _ else _) = _
    rw [if_neg]
    rintro ⟨-, hcmd⟩
    rw [hdata] at hcmd
    cases hcmd
  obtain ⟨hpending, hrouted, hcmds⟩ := hcall
  refine hinv.within (by rw [hk]; rfl) rfl ⟨?_, hinv.modem.eof, ?_⟩ rfl rfl (fun _ => rfl)
    (fun j _ => hown j) ⟨hpending, hrouted, ?_⟩
  · dsimp only
    rw [hcommands]
    exact hinv.modem.emitted
  · dsimp only
    rw [hcommands]
    exact hinv.modem.before
  · dsimp only
    rwa [hcommands, hown]

/-- A write fails: nothing was owed yet, or the port is gone. -/
theorem callsInv_write_failed {data : List UInt8} (hrouting : RoutingInv [] s r)
    (hinv : CallsInv reply s past phase)
    (hlossless : Sends calls → Lossless (.call (.caller k) (.write data) false s :: past))
    (hallow : (callProtocol calls True).allows (phase k) (.write data)) :
    CallsInv reply s (.call (.caller k) (.write data) false s :: past)
      (Function.update phase k (.failed .unwritten)) := by
  have hcall := hinv.call k
  have hk : (phase k).inCall = true ∧ Quiet reply s := by
    rcases hallow with ⟨-, p, -, hphase, -⟩ | ⟨pduHex, pduLen, p, taken, l, hr, hphase, -, rfl⟩
    · rw [hphase] at hcall ⊢
      obtain ⟨hpending, -, hsince⟩ := hcall
      have hloaded := (hrouting.pending p hpending).1
      exact ⟨rfl, .inr (hsince.imp_right fun h => h.trans hloaded)⟩
    · rw [hphase]
      refine ⟨rfl, .inr (.inl ?_)⟩
      refine (hlossless ⟨pduHex, pduLen, hr⟩).1.resolve_left ?_
      rw [isCommand_pduFrame]
      exact Bool.false_ne_true
  exact hinv.within hk.1 rfl hinv.modem rfl rfl (fun _ => rfl) (fun _ _ => rfl) hk.2

theorem callsInv_recv {timer : Timer} {p : ℕ} {said : List (List UInt8)} {taken : List Line}
    {received : Received} (hinv : CallsInv reply s past phase)
    (hk : phase k = .awaiting p said taken)
    (hexec : s.exec (.recv timer p) received = some s') :
    CallsInv reply s' (.call (.caller k) (.recv timer p) received s :: past)
      (Function.update phase k ((phase k).next (.recv timer p) received)) := by
  have hcall := hinv.call k
  rw [hk] at hcall ⊢
  have hin : (phase k).inCall = true := by
    rw [hk]
    rfl
  cases received with
  | line l =>
    obtain ⟨hpending, hrouted, hcmds⟩ := hcall
    obtain ⟨rest, hch, rfl⟩ := exists_linesCh_of_recv hexec
    refine hinv.within hin rfl ⟨hinv.modem.emitted, hinv.modem.eof, hinv.modem.before⟩ rfl rfl
      (fun _ => rfl) (fun _ _ => rfl) ⟨hpending, ?_, hcmds⟩
    dsimp only
    rw [Function.update_self, hrouted, hch, List.append_assoc]
    rfl
  | timer =>
    cases hexec
    exact hinv.within hin rfl hinv.modem rfl rfl (fun _ => rfl) (fun _ _ => rfl) trivial
  | closed =>
    obtain ⟨hclosed, hs⟩ := Option.ite_none_right_eq_some.mp hexec
    cases hs
    exact hinv.within hin rfl hinv.modem rfl rfl (fun _ => rfl) (fun _ _ => rfl) (.inl hclosed)

theorem callsInv_close (hinv : CallsInv reply s past phase) (hk : phase k = .expired) :
    CallsInv reply { s with ended := true } (.call (.caller k) .close () s :: past)
      (Function.update phase k (.failed .shut)) := by
  refine hinv.within (by rw [hk]; rfl) rfl ⟨hinv.modem.emitted, fun _ => rfl, hinv.modem.before⟩
    rfl rfl (fun _ => rfl) (fun _ _ => rfl) (.inr (.inl rfl))

/-- What was read since a command is pending is the reply to it, as far as it has come. -/
theorem prefix_loaded_drop {p : ℕ} {cmd : List UInt8} {cmds : List (List UInt8)}
    (hrouting : RoutingInv [] s r) (hmodem : ModemInv reply s) (hpending : s.pending = some p)
    (hcmds : commands s.written = cmds ++ [cmd]) (hsince : s.since p = (expected reply cmds).length)
    (heof : s.scanner.eof = false) :
    s.loaded.drop (s.since p) <+: (reply cmds.length cmd).lines := by
  have hloaded : s.loaded <+: expected reply cmds ++ (reply cmds.length cmd).lines := by
    rw [← expected_concat, ← hcmds]
    exact (List.prefix_append _ _).trans ((hrouting.prefix_loaded heof).trans hmodem.emitted)
  obtain ⟨rest, hrest⟩ := hloaded
  have hdrop := congrArg (List.drop (s.since p)) hrest
  rw [List.drop_append_of_le_length (hrouting.pending p hpending).1] at hdrop
  nth_rewrite 2 [hsince] at hdrop
  rw [List.drop_left] at hdrop
  exact ⟨rest, hdrop⟩

/-- A call returns: it has taken the whole reply. -/
theorem callsInv_clear (hclean : Sends calls → Clean reply)
    (hrouting : RoutingInv [] s r) (horigin : OriginInv s past r)
    (hinv : CallsInv reply s past phase)
    (hallow : (callProtocol calls True).allows (phase k) .clear) :
    CallsInv reply { s with pending := none } (.call (.caller k) .clear () s :: past)
      (Function.update phase k ((phase k).next .clear ())) := by
  have hcall := hinv.call k
  have hmodem : ModemInv reply { s with pending := none } :=
    ⟨hinv.modem.emitted, hinv.modem.eof, hinv.modem.before⟩
  have hbusy : ∀ j, Serializer.busy j (.call (.caller k) .clear () s :: past) =
      if j = k then false else Serializer.busy j past := by
    intro j
    change (decide (k ≠ j) && Serializer.busy j past) = _
    by_cases hj : j = k
    · rw [if_pos hj, decide_eq_false (not_not.mpr hj.symm), Bool.false_and]
    · rw [if_neg hj, decide_eq_true (Ne.symm hj), Bool.true_and]
  have hovertaken : ∀ j, j ≠ k → overtaken j (.call (.caller k) .clear () s :: past) = true := by
    intro j hj
    change (decide (k ≠ j) || overtaken j past) = true
    rw [decide_eq_true (Ne.symm hj), Bool.true_or]
  rcases hallow with ⟨why, hphase⟩ | ⟨req, timer, p, said, taken, l, e, hr, hphase, hwaits, hexits⟩
  · rw [hphase] at hcall ⊢
    exact hinv.update (hinv.others (by rw [hphase]; rfl)) hmodem rfl rfl hbusy (fun _ _ => rfl)
      (fun _ => ⟨hcall, nofun, hovertaken⟩) trivial
  · rw [hphase] at hcall ⊢
    obtain ⟨hpending, hrouted, cmds, cmd, hsaid, hcmds, hsince, hown⟩ := hcall
    obtain rfl : req.command = cmd := Option.some.inj ((req.head?_of_waits hwaits).symm.trans hsaid)
    have htaken : l ∈ taken ++ [l] := List.mem_append_right _ List.mem_cons_self
    have hbody : l ∉ (reply cmds.length req.command).body :=
      notMem_body_of_exits (fun pduHex pduLen h => hclean ⟨pduHex, pduLen, h ▸ hr⟩) hexits
    have hsinceLe := (hrouting.pending p hpending).1
    refine hinv.update (hinv.others (by rw [hphase]; rfl)) hmodem rfl rfl hbusy (fun _ _ => rfl)
      (fun _ => ⟨?_, nofun, hovertaken⟩) fun hover heof =>
        ⟨cmds.length, req.command, hown, hsaid, ?_⟩
    · -- the line that ended the call was the last of the reply, so all of it has been read
      cases heof : s.scanner.eof with
      | true => exact .inr (.inl (hinv.modem.eof heof))
      | false =>
        have hmem : l ∈ s.loaded.drop (s.since p) := by
          refine horigin.mem_drop_of_routed ?_
          rw [hrouted]
          exact List.mem_append_left _ htaken
        have hwhole := Reply.eq_lines_of_mem
          (prefix_loaded_drop hrouting hinv.modem hpending hcmds hsince heof) hmem hbody
        have hlength := congrArg List.length hwhole
        rw [List.length_drop] at hlength
        right; right
        dsimp only
        rw [hcmds, expected_concat, List.length_append]
        omega
    · -- nothing was dropped, so what was taken is a front of the reply
      have hfront : taken ++ [l] <+: (reply cmds.length req.command).lines := by
        refine List.IsPrefix.trans ?_
          (prefix_loaded_drop hrouting hinv.modem hpending hcmds hsince heof)
        rw [← (hrouting.pending p hpending).2 hover, hrouted, List.append_assoc]
        exact List.prefix_append _ _
      exact Reply.eq_lines_of_mem hfront htaken hbody

/-- Every call of a caller keeps the invariant, as long as calls do not overlap. -/
theorem callsInv_caller {c : Call} {a : c.Ans} (hclean : Sends calls → Clean reply)
    (hrouting : RoutingInv [] s r) (horigin : OriginInv s past r)
    (hinv : CallsInv reply s past phase) (hserial : Serial (.call (.caller k) c a s :: past))
    (hlossless : Sends calls → Lossless (.call (.caller k) c a s :: past))
    (hallow : (callProtocol calls True).allows (phase k) c)
    (htakes : portTakes (.caller k) s c a) (hexec : s.exec c a = some s') :
    CallsInv reply s' (.call (.caller k) c a s :: past)
      (Function.update phase k ((phase k).next c a)) := by
  cases c with
  | pollClosed => exact callsInv_pollClosed hinv (CallPhase.inCall_of_ready hallow) hexec
  | install => exact callsInv_install hrouting hinv hserial hallow hexec
  | write data =>
    cases hexec
    cases a with
    | false => exact callsInv_write_failed hrouting hinv hlossless hallow
    | true =>
      have hended : s.ended = false := by
        simpa [portTakes] using htakes
      rcases hallow with ⟨req, p, -, hphase, rfl⟩ | ⟨pduHex, pduLen, p, taken, l, -, hphase, -, rfl⟩
      · have hstep := callsInv_write_command hrouting hinv (isCommand_command req) hphase hended
        rw [hphase]
        exact hstep
      · have hstep := callsInv_write_pdu hinv (isCommand_pduFrame pduHex) hphase
        rw [hphase]
        exact hstep
  | recv timer p =>
    obtain ⟨req, said, taken, -, hphase, -⟩ := hallow
    exact callsInv_recv hinv hphase hexec
  | close =>
    cases hexec
    exact callsInv_close hinv hallow
  | clear =>
    cases hexec
    exact callsInv_clear hclean hrouting horigin hinv hallow
  | _ => exact hallow.elim

end Steps

/-- What the reader does keeps the invariant. -/
theorem callsInv_reader {c : Call} {a : c.Ans} {r : ReaderStage}
    (hinv : CallsInv reply s past phase) (hc : r.Allows c) (hexec : s.exec c a = some s') :
    CallsInv reply s' (.call .reader c a s :: past) phase := by
  obtain ⟨hgrows, hemitted, hended, heof⟩ := grows_reader hc hexec
  refine hinv.grow hgrows ⟨?_, ?_, ?_⟩ (fun _ => busy_reader)
    (fun _ => overtaken_reader) fun _ => ownCommand_reader
  · rw [hemitted, hgrows.written]
    exact hinv.modem.emitted
  · rw [heof, hended]
    exact hinv.modem.eof
  · rw [hemitted, hgrows.written]
    exact hinv.modem.before

/-- So does what happens beside the goroutines. -/
theorem callsInv_outer {v : Outer} (hinv : CallsInv reply s past phase)
    (hstep : v.step (replying reply) s = some s') :
    CallsInv reply s' (.env v s :: past) phase := by
  obtain ⟨hgrows, heof, hemitted⟩ := grows_outer hstep
  have hmore : answers s'.emitted <+: expected reply (commands s.written) ∧
      (answers s.emitted).length ≤ (answers s'.emitted).length := by
    rcases hemitted with hemitted | ⟨bytes, hemitted, hmay⟩
    · rw [hemitted]
      exact ⟨hinv.modem.emitted, le_rfl⟩
    · rw [hemitted]
      exact ⟨List.isPrefixOf_iff_prefix.mp hmay, (answers_prefix_append _ _).length_le⟩
  refine hinv.grow hgrows ⟨?_, fun h => ?_, ?_⟩ (fun _ => rfl) (fun _ => rfl) fun _ => rfl
  · rw [hgrows.written]
    exact hmore.1
  · exact hgrows.ended ((heof h).elim hinv.modem.eof id)
  · rw [hgrows.written]
    exact hinv.modem.before.trans hmore.2

end Invariant

/-! ### Whole runs -/

section Runs

variable {κ : Type} [DecidableEq κ] (reply : ℕ → List UInt8 → Reply) (calls : κ → Request → Prop)

/-- Some goroutine calls `ExecuteSend`. -/
def SomeSends : Prop := ∃ k, Sends (calls k)

/-- The protocol of each goroutine. -/
def callProtocols : Thread κ → Protocol Call Call.Ans (ReaderStage × CallPhase)
  | .reader => stageProtocol CallPhase
  | .caller k => (callProtocol (calls k) True).onSnd ReaderStage

/-- The invariant of the whole system. -/
structure SystemInv (s : System.Recorded (Thread κ) World Call Call.Ans Outer) (r : ReaderStage)
    (phase : κ → CallPhase) : Prop where
  routing : RoutingInv [] s.state r
  origin : OriginInv s.state s.history r
  calls : Serial s.history → (SomeSends calls → Lossless s.history) →
    CallsInv reply s.state s.history phase

variable {reply calls}

theorem serial_of_cons {x : System.Occurrence (Thread κ) World Call Call.Ans Outer}
    {past : History κ} (h : Serial (x :: past)) : Serial past := by
  cases x with
  | call t c a s =>
    cases t with
    | reader => cases c <;> exact h
    | caller k =>
      cases c with
      | install => exact h.2.2
      | _ => exact h
  | env v s => exact h
  | crash t s => exact h

omit [DecidableEq κ] in
theorem lossless_of_cons {x : System.Occurrence (Thread κ) World Call Call.Ans Outer}
    {past : History κ} (h : Lossless (x :: past)) : Lossless past := by
  cases x with
  | call t c a s =>
    cases c with
    | write data =>
      cases a with
      | true => exact h
      | false => exact h.2
    | _ => exact h
  | env v s => exact h
  | crash t s => exact h

omit [DecidableEq κ] in
theorem lossless_of_append {later past : History κ} (h : Lossless (later ++ past)) :
    Lossless past := by
  induction later with
  | nil => exact h
  | cons x later ih => exact ih (lossless_of_cons h)

theorem phases_update (q : Thread κ → ReaderStage × CallPhase) (k : κ)
    (v : ReaderStage × CallPhase) :
    (fun j => (Function.update q (.caller k) v (.caller j)).2) =
      Function.update (fun j => (q (.caller j)).2) k v.2 := by
  funext j
  by_cases hj : j = k
  · subst hj
    rw [Function.update_self, Function.update_self]
  · rw [Function.update_of_ne hj, Function.update_of_ne (fun h => hj (Thread.caller.inj h))]

variable (reply calls) in
/-- The proof outline. -/
def callOutline (hclean : SomeSends calls → Clean reply) :
    System.Outline (callSystem reply κ).recorded (callProtocols calls) where
  head t l q :=
    match t with
    | .reader => l = .reader ∧ q.1 = .scanning
    | .caller k => CallHead (calls k) True q.2 l
  final t e q :=
    match t with
    | .reader => True
    | .caller k => ∃ r, calls k r ∧ r.Final q.2 e
  inv s q := SystemInv reply calls s (q .reader).1 fun k => (q (.caller k)).2
  block_obeys t l q hhead := by
    cases t with
    | reader =>
      obtain ⟨rfl, hq⟩ := hhead
      refine (reader_stages hq).mono fun res q' hres => ?_
      cases res <;> exact hres
    | caller k =>
      refine (block_keeps hhead).onSnd.mono fun res q' hres => ?_
      cases res <;> exact hres
  call_inv t _ s q c a s' hinv hallow hexec := by
    obtain ⟨s₁, hstep, rfl⟩ := System.recorded_exec_iff.mp hexec
    obtain ⟨htakes, hcall⟩ := exec_of_callSystem hstep
    cases t with
    | reader =>
      exact ⟨hinv.routing.reader hallow hcall, hinv.origin.reader hinv.routing hallow hcall,
        fun hserial hlossless => callsInv_reader (hinv.calls (serial_of_cons hserial)
          fun hsends => lossless_of_cons (hlossless hsends)) hallow hcall⟩
    | caller k =>
      have hc : c.ofCaller := ofCaller_of_allows hallow
      rw [phases_update]
      exact ⟨hinv.routing.caller hc hcall, hinv.origin.caller hinv.routing hc hcall,
        fun hserial hlossless => callsInv_caller (fun h => hclean ⟨k, h⟩) hinv.routing hinv.origin
          (hinv.calls (serial_of_cons hserial) fun hsends => lossless_of_cons (hlossless hsends))
          hserial (fun h => hlossless ⟨k, h⟩) hallow htakes hcall⟩
  env_inv v s q s' hinv hstep := by
    obtain ⟨s₁, henv, rfl⟩ := System.recorded_env_iff.mp hstep
    exact ⟨hinv.routing.outer henv, hinv.origin.outer henv, fun hserial hlossless =>
      callsInv_outer (hinv.calls (serial_of_cons hserial)
        fun hsends => lossless_of_cons (hlossless hsends)) henv⟩
  crash_inv _ _ _ _ _ _ hcrash := by cases hcrash

/-- Before any call. -/
theorem systemInv_start : SystemInv reply calls
    (⟨World.idle [] [], []⟩ : System.Recorded (Thread κ) World Call Call.Ans Outer) .scanning
    fun _ => .outside := by
  refine ⟨.idle [] [], .idle [] [], fun _ _ => ⟨⟨List.nil_prefix, nofun, le_rfl⟩, fun _ => rfl,
    nofun, fun _ => .inr (.inr le_rfl), nofun, fun _ => trivial⟩⟩

omit [DecidableEq κ] in
/-- Callers that execute one command each do not send. -/
theorem not_someSends (cmd : κ → List UInt8) : ¬ SomeSends fun k r => r = .execute (cmd k) := by
  rintro ⟨k, pduHex, pduLen, hr⟩
  cases hr

/-- What the invariant says of a run in which every caller executes one command. -/
theorem callInv_reach {cmd : κ → List UInt8}
    {c : CallConfig κ}
    (hreach : (callSystem reply κ).recorded.Reach (executeStart reply cmd) c) :
    (callOutline reply (fun k r => r = .execute (cmd k))
      fun h => absurd h (not_someSends cmd)).Holds c := by
  refine System.Outline.reach _ (System.Outline.holds_start _ (q := fun _ => (.scanning, .outside))
    systemInv_start fun t => ?_) hreach
  cases t with
  | reader => exact ⟨rfl, rfl⟩
  | caller k => exact ⟨rfl, .inl rfl⟩

end Runs

/-- The reply that has only these lines and `OK`. -/
def okReply (body : List Line) (hbody : ∀ l ∈ body, isFinal l = false) : Reply where
  body := body
  final := lit "OK"
  body_not_final := hbody
  isFinal_final := rfl

/-! ### One call after the other -/

section

variable {κ : Type} [DecidableEq κ] {reply : ℕ → List UInt8 → Reply}

theorem prefix_expected_dropLast (cmds : List (List UInt8)) :
    expected reply cmds.dropLast <+: expected reply cmds := by
  rcases List.eq_nil_or_concat' cmds with rfl | ⟨cmds, cmd, rfl⟩
  · exact List.prefix_rfl
  · rw [List.dropLast_concat, expected_concat]
    exact List.prefix_append _ _

/-- The modem has answered all commands but one. -/
theorem outstanding_le {s : World} (h : ModemInv reply s) :
    (commands s.written).length ≤ (answers s.emitted).countP isFinal + 1 := by
  have hfront : expected reply (commands s.written).dropLast <+: answers s.emitted :=
    List.prefix_of_prefix_length_le (prefix_expected_dropLast _) h.emitted h.before
  have hcount : _ ≤ (answers s.emitted).countP isFinal := hfront.sublist.countP_le
  rw [countP_expected, List.length_dropLast] at hcount
  omega

/-- A call of `Execute` that returns an answer has taken it. -/
theorem returned_of_answered {k : CallPhase} {cmd : List UInt8} {lines : List Line}
    {err : Option Err} (h : (Request.execute cmd).Final k (.executed lines err))
    (hanswered : answered err) :
    ∃ l, k = .returned [cmd ++ crlf] (lines ++ [l]) ∧ err = Reply.errOf cmd l := by
  rcases h with ⟨why, -, hfails⟩ | ⟨timer, said, taken, l, hk, hwaits, hexits⟩
  · cases hfails
    cases why <;> cases hanswered
  · cases timer with
    | prompt => exact hwaits.elim
    | timeout =>
      obtain ⟨rfl, -⟩ := hwaits
      obtain ⟨-, hexit⟩ := hexits
      cases hexit
      exact ⟨l, hk, rfl⟩

/-- A call that returns an answer returns that of its own command. -/
theorem answer_of_serial {cmd : κ → List UInt8}
    {c : CallConfig κ}
    (hreach : (callSystem reply κ).recorded.Reach (executeStart reply cmd) c)
    (hserial : Serial c.state.history) {k : κ} {lines : List Line} {err : Option Err}
    (hstop : c.threads (.caller k) = .stopped (.executed lines err)) (hanswered : answered err)
    (hover : c.state.state.overflow = false) (heof : c.state.state.scanner.eof = false) :
    ∃ n, ownCommand k c.state.history = some n ∧ lines = (reply n (cmd k ++ crlf)).body ∧
      err = Reply.errOf (cmd k) (reply n (cmd k ++ crlf)).final := by
  obtain ⟨q, hinv, hfollows⟩ := callInv_reach hreach
  have hfinal := hfollows (.caller k)
  rw [hstop] at hfinal
  obtain ⟨_, rfl, hfinal⟩ := hfinal
  obtain ⟨l, hphase, herr⟩ := returned_of_answered hfinal hanswered
  have hcall := (hinv.calls hserial fun h => absurd h (not_someSends cmd)).call k
  rw [hphase] at hcall
  obtain ⟨n, _, hown, hsaid, hlines⟩ := hcall hover heof
  cases hsaid
  obtain ⟨hbody, hl⟩ := List.append_inj' hlines rfl
  obtain rfl : l = _ := List.singleton_inj.mp hl
  exact ⟨n, hown, hbody, herr⟩

/-- **Calls of `Execute` that do not overlap.**  The modem answers each command by some lines and
one final result code.  In every run of any number of callers in which no call makes its command
pending while another one is under way (`Serial`):

* the modem has at most one command that it has not answered by a final result code;
* a call that returns an answer returns the lines and the result of its own command, as long as no
  line was dropped for lack of room and the port has not ended. -/
theorem execute_serialized (reply : ℕ → List UInt8 → Reply) (cmd : κ → List UInt8)
    {c : CallConfig κ}
    (hreach : (callSystem reply κ).recorded.Reach (executeStart reply cmd) c)
    (hserial : Serial c.state.history) :
    (commands c.state.state.written).length ≤
        (answers c.state.state.emitted).countP isFinal + 1 ∧
      ∀ k lines err, c.threads (.caller k) = .stopped (.executed lines err) → answered err →
        c.state.state.overflow = false → c.state.state.scanner.eof = false →
        ∃ n, ownCommand k c.state.history = some n ∧
          lines = (reply n (cmd k ++ crlf)).body ∧
          err = Reply.errOf (cmd k) (reply n (cmd k ++ crlf)).final := by
  obtain ⟨q, hinv, -⟩ := callInv_reach hreach
  refine ⟨outstanding_le (hinv.calls hserial fun h => absurd h (not_someSends cmd)).modem, ?_⟩
  intro k lines err hstop hanswered hover heof
  exact answer_of_serial hreach hserial hstop hanswered hover heof

end

/-- Two commands. -/
def queries (k : Bool) : List UInt8 := if k then lit "AT+CSQ" else lit "AT+COPS?"

/-- What the modem answers to them. -/
def queryReply (_ : ℕ) (cmd : List UInt8) : Reply :=
  if cmd = queries true ++ crlf then okReply [lit "+CSQ: 20,0"] (by decide)
  else okReply [lit "+COPS: 0"] (by decide)

/-- One command after the other: each call returns its own answer. -/
theorem execute_serialized_queries :
    ∃ c, (callSystem queryReply Bool).recorded.Reach (executeStart queryReply queries) c ∧
      Serial c.state.history ∧
      c.threads (.caller true) = .stopped (.executed [lit "+CSQ: 20,0"] none) ∧
      c.threads (.caller false) = .stopped (.executed [lit "+COPS: 0"] none) ∧
      ∃ n, ownCommand false c.state.history = some n ∧
        [lit "+COPS: 0"] = (queryReply n (queries false ++ crlf)).body := by
  have hplay : ∃ c, (callSystem queryReply Bool).recorded.play (executeStart queryReply queries)
      (beginMoves 0 true ++ emitMoves (lit "+CSQ: 20,0\r\nOK\r\n") ++
        routeMoves 0 (lit "+CSQ: 20,0") ++ routeMoves 0 (lit "OK") ++
        takeMoves 0 true (lit "+CSQ: 20,0") 0 ++ takeMoves 0 true (lit "OK") 1 ++
        beginMoves 1 false ++ emitMoves (lit "+COPS: 0\r\nOK\r\n") ++
        routeMoves 1 (lit "+COPS: 0") ++ routeMoves 1 (lit "OK") ++
        takeMoves 1 false (lit "+COPS: 0") 0 ++ takeMoves 1 false (lit "OK") 1) = some c ∧
      Serial c.state.history ∧
      c.threads (.caller true) = .stopped (.executed [lit "+CSQ: 20,0"] none) ∧
      c.threads (.caller false) = .stopped (.executed [lit "+COPS: 0"] none) ∧
      c.state.state.overflow = false ∧ c.state.state.scanner.eof = false :=
    ⟨_, rfl, ⟨by decide, by decide, by decide, by decide, trivial⟩, rfl, rfl, rfl, rfl⟩
  obtain ⟨c, hplay, hserial, htrue, hfalse, hover, heof⟩ := hplay
  have hreach := System.reach_of_play hplay
  obtain ⟨n, hown, hbody, -⟩ := (execute_serialized queryReply queries hreach hserial).2 false _ _
    hfalse rfl hover heof
  exact ⟨c, hreach, hserial, htrue, hfalse, n, hown, hbody⟩

/-- Two calls overlap.  Both commands are written before the modem answers, and the answer to the
first one is routed to the second call, which returns it as its own. -/
theorem not_execute_serialized :
    ∃ c c', (callSystem queryReply Bool).recorded.Reach (executeStart queryReply queries) c ∧
      (answers c.state.state.emitted).countP isFinal + 1 <
        (commands c.state.state.written).length ∧
      (callSystem queryReply Bool).recorded.Reach c c' ∧
      c'.threads (.caller false) = .stopped (.executed [lit "+CSQ: 20,0"] none) ∧
      ownCommand false c'.state.history = some 1 ∧
      (queryReply 1 (queries false ++ crlf)).body = [lit "+COPS: 0"] := by
  have hplay : ∃ c c', (callSystem queryReply Bool).recorded.play (executeStart queryReply queries)
      (beginMoves 0 true ++ beginMoves 1 false) = some c ∧
      (answers c.state.state.emitted).countP isFinal + 1 <
        (commands c.state.state.written).length ∧
      (callSystem queryReply Bool).recorded.play c
        (emitMoves (lit "+CSQ: 20,0\r\nOK\r\n") ++ routeMoves 1 (lit "+CSQ: 20,0") ++
          routeMoves 1 (lit "OK") ++ takeMoves 1 false (lit "+CSQ: 20,0") 0 ++
          takeMoves 1 false (lit "OK") 1) = some c' ∧
      c'.threads (.caller false) = .stopped (.executed [lit "+CSQ: 20,0"] none) ∧
      ownCommand false c'.state.history = some 1 :=
    ⟨_, _, rfl, by decide, rfl, rfl, rfl⟩
  obtain ⟨c, c', hplay, hcount, hplay', hstop, hown⟩ := hplay
  exact ⟨c, c', System.reach_of_play hplay, hcount, System.reach_of_play hplay', hstop, hown,
    by decide⟩

/-- Before these calls. -/
def requestStart (reply : ℕ → List UInt8 → Reply) (requests : List Request) : RequestConfig :=
  (callSystem reply Unit).inTurn.recorded.start ⟨World.idle [] [], []⟩ (requestEntry requests)

/-- One goroutine is not overtaken. -/
theorem overtaken_unit (past : History Unit) : overtaken () past = false := by
  induction past with
  | nil => rfl
  | cons x past ih =>
    cases x with
    | call t c a s =>
      cases t with
      | reader => exact overtaken_reader.trans ih
      | caller k =>
        cases c with
        | pollClosed => rfl
        | _ => exact ih
    | env v s => exact ih
    | crash t s => exact ih

/-- One goroutine does not overlap with itself. -/
theorem serial_unit (past : History Unit) : Serial past := by
  induction past with
  | nil => trivial
  | cons x past ih =>
    cases x with
    | call t c a s =>
      cases t with
      | reader => cases c <;> exact ih
      | caller k =>
        cases c with
        | install => exact ⟨fun k' hk' => absurd rfl hk', fun _ => overtaken_unit past, ih⟩
        | _ => exact ih
    | env v s => exact ih
    | crash t s => exact ih

section

variable (reply : ℕ → List UInt8 → Reply)
  (hclean : Clean reply)

/-- The proof outline for one goroutine. -/
def requestOutline :
    System.Outline (callSystem reply Unit).inTurn.recorded (callProtocols fun _ _ => True) :=
  (callOutline reply (fun _ _ => True) fun _ => hclean).inTurn

variable {reply}

theorem requestInv_reach {requests : List Request}
    {c : RequestConfig}
    (hreach : (callSystem reply Unit).inTurn.recorded.Reach (requestStart reply requests) c) :
    (requestOutline reply hclean).Holds c := by
  have hhead : ∀ (r : Request) (k : CallPhase), k.Ready True →
      CallHead (fun _ => True) True k r.label := fun _ _ hk => callHead_label trivial hk
  refine System.Outline.reach _ (System.Outline.holds_start _ (q := fun _ => (.scanning, .outside))
    systemInv_start fun t => ?_) hreach
  cases t with
  | reader => exact ⟨⟨rfl, rfl⟩, fun l hl => absurd hl List.not_mem_nil⟩
  | caller u =>
    cases requests with
    | nil => trivial
    | cons r rest =>
      refine ⟨hhead r _ (.inl rfl), fun l hl e q hfinal => ?_⟩
      obtain ⟨r', -, rfl⟩ := List.mem_map.mp hl
      obtain ⟨r₁, -, hfinal⟩ := hfinal
      exact hhead r' _ (.inr ⟨trivial, r₁.isOver_of_final hfinal⟩)

end

/-- **No line of an earlier reply.**  One goroutine makes any calls of `Execute` and `ExecuteSend`,
one after the other; the modem answers each command by some lines and one final result code, after
any delay.  No intermediate line of the reply to a send starts with `+CME` or is a `+CMGS:` line
that does not go on with a blank and a number, and no PDU is lost on a port that is there.  Then a
line that a call takes is none of those that answer the commands before its own. -/
theorem taken_from_own_reply (reply : ℕ → List UInt8 → Reply)
    (hclean : Clean reply)
    (requests : List Request)
    {c : RequestConfig}
    (hreach : (callSystem reply Unit).inTurn.recorded.Reach (requestStart reply requests) c)
    (hlossless : Lossless c.state.history) {later past : History Unit} {timer : Timer} {p : ℕ}
    {l : Line} {s : World}
    (hhistory : c.state.history =
      later ++ .call (.caller ()) (.recv timer p) (.line l) s :: past) :
    ∃ j, (origins p past)[takenFrom p past]? = some j ∧ s.loaded[j]? = some l ∧
      (expected reply (commands s.written).dropLast).length ≤ j := by
  obtain ⟨c', hreach', hstate, k, ch, s', hrun, hexec⟩ :=
    System.exists_reach_of_history hreach rfl hhistory
  obtain ⟨q, hinv, hfollows⟩ := requestInv_reach hclean hreach'
  have hinv : SystemInv reply (fun _ _ => True) c'.state (q .reader).1 fun k => (q (.caller k)).2 :=
    hinv
  rw [hstate] at hinv
  -- the goroutine was about to take a line, so it awaits the reply to the last command
  have hcaller := hfollows (.caller ())
  rw [hrun] at hcaller
  obtain ⟨r, said, taken, -, hphase, -⟩ := hcaller.1
  have hpast : Lossless past := by
    rw [hhistory] at hlossless
    exact lossless_of_cons (lossless_of_append hlossless)
  have hcall := (hinv.calls (serial_unit past) fun _ => hpast).call ()
  rw [hphase] at hcall
  obtain ⟨-, -, cmds, cmd, -, hcmds, hsince, -⟩ := hcall
  have hexec : (callSystem reply Unit).exec (.caller ()) ch s (.recv timer p) (.line l) = some s' :=
    hexec
  obtain ⟨rest, hch, -⟩ := exists_linesCh_of_recv (exec_of_callSystem hexec).2
  obtain ⟨j, horigin, hj, hl⟩ := hinv.origin.exists_origin hch
  refine ⟨j, horigin, hl, ?_⟩
  have hs : s.since p ≤ j := hj
  have hwritten : commands s.written = cmds ++ [cmd] := hcmds
  have hsince : s.since p = (expected reply cmds).length := hsince
  rw [hwritten, List.dropLast_concat, ← hsince]
  exact hs

/-- A modem that answers the first command, a send, by the prompt, this line and `OK`, and others by
`OK`. -/
def sendReply (line : Line) (hline : isFinal line = false) (n : ℕ) (_ : List UInt8) : Reply :=
  if n = 0 then okReply [lit ">", line] (by simpa using ⟨by decide, hline⟩)
  else okReply [] nofun

/-- A send, and then `AT`. -/
def sendThenPing : List Request := [.send (lit "00") 1, .execute (lit "AT")]

/-- The `OK` that `AT` takes after a send that has succeeded is the fourth line. -/
theorem taken_from_own_reply_ping :
    ∃ c past s, (callSystem (sendReply (lit "+CMGS: 5") rfl) Unit).inTurn.recorded.Reach
        (requestStart (sendReply (lit "+CMGS: 5") rfl) sendThenPing) c ∧
      c.state.history = .call (.caller ()) (.recv .timeout 1) (.line (lit "OK")) s :: past ∧
      ∃ j, (origins 1 past)[takenFrom 1 past]? = some j ∧ s.loaded[j]? = some (lit "OK") ∧
        3 ≤ j := by
  have hplay : ∃ c past s, (callSystem (sendReply (lit "+CMGS: 5") rfl) Unit).inTurn.recorded.play
      (requestStart (sendReply (lit "+CMGS: 5") rfl) sendThenPing)
      (beginMoves 0 () ++ emitMoves (lit ">\r\n+CMGS: 5\r\nOK\r\n") ++ routeMoves 0 (lit ">") ++
        takeMoves 0 () (lit ">") 1 ++ routeMoves 0 (lit "+CMGS: 5") ++
        takeMoves 0 () (lit "+CMGS: 5") 0 ++ routeMoves 0 (lit "OK") ++
        takeMoves 0 () (lit "OK") 1 ++ beginMoves 1 () ++ emitMoves (lit "OK\r\n") ++
        routeMoves 1 (lit "OK") ++
        [.call (.caller ()) () (runAnswer 1 none (.line (lit "OK")))]) = some c ∧
      Lossless c.state.history ∧
      c.state.history = .call (.caller ()) (.recv .timeout 1) (.line (lit "OK")) s :: past ∧
      (expected (sendReply (lit "+CMGS: 5") rfl) (commands s.written).dropLast).length = 3 :=
    ⟨_, _, _, rfl, trivial, rfl, by decide⟩
  obtain ⟨c, past, s, hplay, hlossless, hhistory, hlength⟩ := hplay
  have hreach := System.reach_of_play hplay
  have hclean : Clean (sendReply (lit "+CMGS: 5") rfl) := by
    intro n _ l hl
    unfold sendReply at hl
    split_ifs at hl
    · rcases List.mem_cons.mp hl with rfl | hl
      · decide
      · rw [List.mem_singleton.mp hl]
        decide
    · exact absurd hl List.not_mem_nil
  obtain ⟨j, horigin, hl, hj⟩ := taken_from_own_reply _ hclean sendThenPing hreach hlossless
    (show c.state.history = [] ++ _ :: past from hhistory)
  rw [hlength] at hj
  exact ⟨c, past, s, hreach, hhistory, j, horigin, hl, hj⟩

/-- The modem sends a `+CMGS:` line without a number, and `OK` a little later.  `ExecuteSend` has
returned by then, and `AT` takes this `OK`, the third line of the reply to the send, for its own. -/
theorem not_taken_from_own_reply :
    ∃ c past s, (callSystem (sendReply (lit "+CMGS: x") rfl) Unit).inTurn.recorded.Reach
        (requestStart (sendReply (lit "+CMGS: x") rfl) sendThenPing) c ∧ Lossless c.state.history ∧
      c.state.history = .call (.caller ()) (.recv .timeout 1) (.line (lit "OK")) s :: past ∧
      (origins 1 past)[takenFrom 1 past]? = some 2 ∧
      (expected (sendReply (lit "+CMGS: x") rfl) (commands s.written).dropLast).length = 3 := by
  have hplay : ∃ c past s, (callSystem (sendReply (lit "+CMGS: x") rfl) Unit).inTurn.recorded.play
      (requestStart (sendReply (lit "+CMGS: x") rfl) sendThenPing)
      (beginMoves 0 () ++ emitMoves (lit ">\r\n+CMGS: x\r\n") ++ routeMoves 0 (lit ">") ++
        takeMoves 0 () (lit ">") 1 ++ routeMoves 0 (lit "+CMGS: x") ++
        takeMoves 0 () (lit "+CMGS: x") 1 ++ beginMoves 1 () ++ emitMoves (lit "OK\r\n") ++
        routeMoves 1 (lit "OK") ++
        [.call (.caller ()) () (runAnswer 1 none (.line (lit "OK")))]) = some c ∧
      Lossless c.state.history ∧
      c.state.history = .call (.caller ()) (.recv .timeout 1) (.line (lit "OK")) s :: past ∧
      (origins 1 past)[takenFrom 1 past]? = some 2 ∧
      (expected (sendReply (lit "+CMGS: x") rfl) (commands s.written).dropLast).length = 3 :=
    ⟨_, _, _, rfl, trivial, rfl, rfl, by decide⟩
  obtain ⟨c, past, s, hplay, hrest⟩ := hplay
  exact ⟨c, past, s, System.reach_of_play hplay, hrest⟩

end SmsGate.At.Serializer
