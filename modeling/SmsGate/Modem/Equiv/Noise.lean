import SmsGate.At.Equiv.Replies
import SmsGate.Modem.Equiv.Receive

/-!
# Noise on the line

The reply to `AT+CMGR` with unsolicited lines between its own.  The reader keeps empty lines and the
URCs that it knows away from the command; all others are part of what `Execute` returns, and
`ReadSMS` takes every line behind the header for a piece of the PDU.

`receive_noisy_iff` puts the two halves together: what a run of the serializer returns for
`AT+CMGR`, and what `receiveSMS` does with it.  `not_receive_noisy` is a run with `^RSSI: 20` in
front of the PDU: it does not decode any more, and the message is deleted.
-/

namespace SmsGate.Modem

open Go Go.Strings

/-! ### What is on the wire -/

/-- A line that the modem sends while it answers. -/
structure WireLine where
  line : At.Line
  /-- It is no part of the reply. -/
  unsolicited : Bool

/-- The lines of the reply. -/
def replyLines (wire : List WireLine) : List At.Line :=
  (wire.filter fun x => !x.unsolicited).map WireLine.line

/-- The lines that reach the command: all but the empty ones and the URCs. -/
def routedLines (wire : List WireLine) : List At.Line :=
  (wire.map WireLine.line).filter At.Serializer.isAnswer

/-! ### `receiveSMS` on what `Execute` returns -/

/-- What the wrappers see of a return of `Execute`. -/
def executed (lines : List At.Line) : Option At.Err → Except At.Err (List At.Line)
  | none => .ok lines
  | some e => .error e

/-- The row that `receiveSMS` inserts. -/
def receivedMessage (id : Identity) (d : At.DecodedSMS) : Buffer.Message where
  iccid := id.iccid
  sender := d.sender
  body := d.body
  pduHash := d.pduHash
  smsc := d.smsc
  receivedAt := d.timestamp.unixMilli

/-- What `receiveSMS` has called, the newest first. -/
abbrev ReadHistory := List (System.Occurrence Unit Unit Call Call.Ans Empty)

/-- `receiveSMS` with what it has called. -/
abbrev ReadConfig :=
  System.Config Unit (System.Recorded Unit Unit Call Call.Ans Empty) Call Call.Ans Unit Unit

/-- `AT+CMGR` is answered by `res`, and everything else in any way. -/
def answersRead (res : Except At.Err (List At.Line)) : (e : Call) → e.Ans → Bool
  | .execute (.readSMS _), (a : Except At.Err (List At.Line)) => a = res
  | .panic, _ => false
  | _, _ => true

section

variable (h : Host) (w : Worker) (id : Identity) (i : ℤ) (res : Except At.Err (List At.Line))

/-- `receiveSMS`, with this answer to `AT+CMGR`. -/
def readSystem : System Unit Unit Call Call.Ans Unit Unit Unit Empty where
  block _ _ := do
    receiveSMS h w id i
    return .inr ()
  exec _ _ s e a := if answersRead res e a then some s else none
  env v _ := v.elim
  crash _ _ := none

/-- Before it is called. -/
def readStart : ReadConfig :=
  (readSystem h w id i res).recorded.start ⟨(), []⟩ fun _ => ()

end

/-- `AT+CMGD` was written for the slot only after an insert of the message had succeeded. -/
def InsertedFirst (m : Buffer.Message) (i : ℤ) : ReadHistory → Prop
  | [] => True
  | .call _ (.execute (.deleteSMS j)) _ _ :: past =>
    (j = i → ∃ p, .call () (.insert m) (.ok p : Except Buffer.InsertErr (ℤ × Bool)) () ∈ past) ∧
      InsertedFirst m i past
  | _ :: past => InsertedFirst m i past

/-- What `ReadSMS` makes of the lines is an error, makes `DecodePDU` panic, or is a PDU with the
same message. -/
def Harmless (h : Host) (id : Identity) (i : ℤ) (d : At.DecodedSMS) (lines : List At.Line) : Prop :=
  ∀ x, At.pduOf i lines = .ok x → At.decodePDU h.toHost x = .panic ∨
    ∃ d', At.decodePDU h.toHost x = .ok d' ∧ receivedMessage id d' = receivedMessage id d

/-! ### What `receiveSMS` does, in which order -/

/-- How far `receiveSMS` is. -/
inductive ReadStage where
  | fresh
  /-- The message was inserted. -/
  | stored
  /-- `AT+CMGR` was not answered as it is here. -/
  | astray
  deriving DecidableEq

/-- A message that was read as `res` is deleted once `m` is stored. -/
def readProtocol (m : Buffer.Message) (res : Except At.Err (List At.Line)) :
    Protocol Call Call.Ans ReadStage where
  allows q e :=
    match e with
    | .execute (.deleteSMS _) => q ≠ .fresh
    | _ => True
  next q e a :=
    match e, a with
    | .execute (.readSMS _), (a : Except At.Err (List At.Line)) => if a = res then q else .astray
    | .insert m', (.ok _ : Except Buffer.InsertErr (ℤ × Bool)) =>
      if m' = m ∧ q = .fresh then .stored else q
    | _, _ => q

section Obeys

variable {h : Host} {w : Worker} {id : Identity} {i : ℤ} {d : At.DecodedSMS}
  {m : Buffer.Message} {res : Except At.Err (List At.Line)}

theorem next_ne_fresh {q : ReadStage} (hq : q ≠ .fresh) (e : Call) (a : e.Ans) :
    (readProtocol m res).next q e a ≠ .fresh := by
  cases e with
  | execute c =>
    cases c with
    | readSMS j =>
      unfold readProtocol
      dsimp only
      split_ifs
      · exact hq
      · exact nofun
    | _ => exact hq
  | insert m' =>
    cases a with
    | ok p =>
      change (if m' = m ∧ q = .fresh then .stored else q) ≠ .fresh
      rwa [if_neg fun hm => hq hm.2]
    | error e => exact hq
  | _ => exact hq

/-- Once the message is stored, or in a run that there is not, anything may follow. -/
theorem obeys_of_ne_fresh {α : Type} (p : Work α) {q : ReadStage} (hq : q ≠ .fresh) :
    p.Obeys (readProtocol m res) q fun _ _ => True := by
  induction p generalizing q with
  | ret a => trivial
  | call e k ih =>
    refine ⟨?_, fun a => ih a (next_ne_fresh hq e a)⟩
    cases e with
    | execute c =>
      cases c with
      | deleteSMS j => exact hq
      | _ => trivial
    | _ => trivial

/-- `ReadSMS` returns what it makes of `res`. -/
theorem readSMS_fresh : (At.readSMS execute i).Obeys (readProtocol m res) .fresh
    fun read q => q ≠ .fresh ∨ q = .fresh ∧ read = res.bind (At.pduOf i) := by
  refine Prog.perform_bind_obeys trivial fun (a : Except At.Err (List At.Line)) => ?_
  by_cases ha : a = res
  · right
    exact ⟨if_pos ha, by rw [← ha]⟩
  · left
    have hnext : (readProtocol m res).next .fresh (.execute (.readSMS i)) a = .astray := if_neg ha
    rw [hnext]
    exact nofun

theorem receiveSMS_stores (w : Worker) (hres : ∀ lines, res = .ok lines → Harmless h id i d lines) :
    (receiveSMS h w id i).Obeys (readProtocol (receivedMessage id d) res) .fresh
      fun _ _ => True := by
  refine readSMS_fresh.bind fun read q hq => ?_
  rcases hq with hq | ⟨rfl, hread⟩
  · exact obeys_of_ne_fresh _ hq
  cases read with
  | error e => trivial
  | ok x =>
    obtain ⟨lines, rfl, hpdu⟩ : ∃ lines, res = .ok lines ∧ At.pduOf i lines = .ok x := by
      cases res with
      | error e => cases hread
      | ok lines => exact ⟨lines, rfl, hread.symm⟩
    dsimp only
    rcases hres lines rfl x hpdu with hpanic | ⟨d', hd', hm⟩
    · rw [hpanic]
      exact ⟨trivial, fun _ => trivial⟩
    · rw [hd']
      refine Prog.perform_bind_obeys trivial
        fun (inserted : Except Buffer.InsertErr (ℤ × Bool)) => ?_
      cases inserted with
      | error e => trivial
      | ok p =>
        have hnext : (readProtocol (receivedMessage id d) (.ok lines)).next .fresh
            (.insert (receivedMessage id d')) (.ok p) = .stored := if_pos ⟨hm, rfl⟩
        exact obeys_of_ne_fresh _ (by
          intro hfresh
          exact ReadStage.noConfusion (hnext.symm.trans hfresh))

end Obeys

/-! ### Whole runs of `receiveSMS` -/

section Runs

variable {h : Host} {w : Worker} {id : Identity} {i : ℤ} {d : At.DecodedSMS}
  {m : Buffer.Message} {res : Except At.Err (List At.Line)}

/-- The invariant. -/
structure ReadInv (m : Buffer.Message) (i : ℤ) (past : ReadHistory) (q : ReadStage) : Prop where
  here : q ≠ .astray
  stored : q = .stored →
    ∃ p, .call () (.insert m) (.ok p : Except Buffer.InsertErr (ℤ × Bool)) () ∈ past
  first : InsertedFirst m i past

/-- Calls that neither delete a message nor store one. -/
theorem ReadInv.other {past : ReadHistory} {q : ReadStage}
    {x : System.Occurrence Unit Unit Call Call.Ans Empty} (hinv : ReadInv m i past q)
    (hx : InsertedFirst m i past → InsertedFirst m i (x :: past)) : ReadInv m i (x :: past) q :=
  ⟨hinv.here, fun hq => (hinv.stored hq).imp fun _ => List.mem_cons_of_mem x, hx hinv.first⟩

theorem readInv_call {past : ReadHistory} {q : ReadStage}
    {e : Call} {a : e.Ans} (hinv : ReadInv m i past q) (hallow : (readProtocol m res).allows q e)
    (hanswer : answersRead res e a) :
    ReadInv m i (.call () e a () :: past) ((readProtocol m res).next q e a) := by
  cases e with
  | execute c =>
    cases c with
    | readSMS j =>
      have ha : (show Except At.Err (List At.Line) from a) = res := of_decide_eq_true hanswer
      have hnext : (readProtocol m res).next q (.execute (.readSMS j)) a = q := if_pos ha
      rw [hnext]
      exact hinv.other fun hfirst => hfirst
    | deleteSMS j =>
      refine hinv.other fun hfirst => ⟨fun _ => hinv.stored ?_, hfirst⟩
      have hhere := hinv.here
      have hallow : q ≠ .fresh := hallow
      cases q with
      | fresh => exact absurd rfl hallow
      | stored => rfl
      | astray => exact absurd rfl hhere
    | _ => exact hinv.other fun hfirst => hfirst
  | insert m' =>
    cases a with
    | error e => exact hinv.other fun hfirst => hfirst
    | ok p =>
      have hnext : (readProtocol m res).next q (.insert m') (.ok p) =
          if m' = m ∧ q = .fresh then .stored else q := rfl
      rw [hnext]
      split_ifs with hm
      · obtain ⟨rfl, -⟩ := hm
        exact ⟨nofun, fun _ => ⟨p, List.mem_cons_self⟩, hinv.first⟩
      · exact hinv.other fun hfirst => hfirst
  | _ => exact hinv.other fun hfirst => hfirst

/-- The proof outline. -/
def readOutline (w : Worker) (hres : ∀ lines, res = .ok lines → Harmless h id i d lines) :
    System.Outline (readSystem h w id i res).recorded
      fun _ => readProtocol (receivedMessage id d) res where
  head _ _ q := q = .fresh
  final _ _ _ := True
  inv s q := ReadInv (receivedMessage id d) i s.history (q ())
  block_obeys _ _ q hq := by
    obtain rfl : q = .fresh := hq
    exact (receiveSMS_stores w hres).bind fun _ _ _ => trivial
  call_inv _ _ s q e a s' hinv hallow hexec := by
    obtain ⟨s₁, hstep, rfl⟩ := System.recorded_exec_iff.mp hexec
    obtain ⟨hanswer, -⟩ := Option.ite_none_right_eq_some.mp hstep
    rw [Function.update_self]
    exact readInv_call hinv hallow hanswer
  env_inv v _ _ _ _ _ := v.elim
  crash_inv _ _ _ _ _ _ hcrash := by cases hcrash

theorem insertedFirst_of_harmless (hres : ∀ lines, res = .ok lines → Harmless h id i d lines)
    {c : ReadConfig}
    (hreach : (readSystem h w id i res).recorded.Reach (readStart h w id i res) c) :
    InsertedFirst (receivedMessage id d) i c.state.history := by
  have hstart : (readOutline w hres).Holds (readStart h w id i res) :=
    (readOutline w hres).holds_start (q := fun _ => .fresh) ⟨nofun, nofun, trivial⟩ fun _ => rfl
  obtain ⟨q, hinv, -⟩ := (readOutline w hres).reach hstart hreach
  exact hinv.first

/-- One more call of a run. -/
theorem reach_call {e : Call} {k : e.Ans → Work (Unit ⊕ Unit)}
    {c : ReadConfig}
    (hreach : (readSystem h w id i res).recorded.Reach (readStart h w id i res) c)
    (hrun : c.threads () = .running (.call e k)) (a : e.Ans) (hanswer : answersRead res e a) :
    ∃ c', (readSystem h w id i res).recorded.Reach (readStart h w id i res) c' ∧
      c'.state.history = .call () e a () :: c.state.history ∧ c'.threads () = .running (k a) := by
  have hexec : (readSystem h w id i res).recorded.exec () () c.state e a =
      some ⟨(), .call () e a () :: c.state.history⟩ :=
    System.recorded_exec_iff.mpr ⟨(), if_pos hanswer, rfl⟩
  refine ⟨_, hreach.tail (.call () () a hrun hexec), rfl, ?_⟩
  dsimp only
  rw [Function.update_self]

/-- `receiveSMS` is `ReadSMS` and what follows: a PDU that does not decode is deleted at once, and
one that decodes once it was inserted. -/
theorem receiveSMS_split (h : Host) (w : Worker) (id : Identity) (i : ℤ) :
    ∃ rest : Except At.Err (List UInt8) → Work Unit,
      receiveSMS h w id i = (At.readSMS execute i >>= rest) ∧
      (∀ x e, At.decodePDU h.toHost x = .err e →
        ∃ k, rest (.ok x) = .call (.execute (.deleteSMS i)) k) ∧
      ∀ x d', At.decodePDU h.toHost x = .ok d' →
        ∃ k k', rest (.ok x) = .call (.insert (receivedMessage id d')) k ∧
          k (.ok (1, false)) = .call (.execute (.deleteSMS i)) k' := by
  refine ⟨_, rfl, fun x e hdecode => ?_, fun x d' hdecode => ?_⟩
  · dsimp only
    rw [hdecode]
    exact ⟨_, rfl⟩
  · dsimp only
    rw [hdecode]
    exact ⟨_, _, rfl, rfl⟩

variable (h w id) in
/-- `receiveSMS` once it has read a PDU. -/
theorem exists_reach_read {lines : List At.Line} {x : List UInt8} (hx : At.pduOf i lines = .ok x) :
    ∃ c, (readSystem h w id i (.ok lines)).recorded.Reach (readStart h w id i (.ok lines)) c ∧
      c.state.history = [.call () (.execute (.readSMS i)) (.ok lines) ()] ∧
      (∀ e, At.decodePDU h.toHost x = .err e →
        ∃ k, c.threads () = .running (.call (.execute (.deleteSMS i)) k)) ∧
      ∀ d', At.decodePDU h.toHost x = .ok d' →
        ∃ k k', c.threads () = .running (.call (.insert (receivedMessage id d')) k) ∧
          k (.ok (1, false)) = .call (.execute (.deleteSMS i)) k' := by
  obtain ⟨rest, hsplit, herr, hok⟩ := receiveSMS_split h w id i
  have hstart : (readStart h w id i (.ok lines)).threads () =
      .running (.call (.execute (.readSMS i)) fun a : Except At.Err (List At.Line) =>
        rest (a.bind (At.pduOf i)) >>= fun _ => .ret (.inr ())) := by
    change System.Local.running (receiveSMS h w id i >>= fun _ => .ret (.inr ())) = _
    rw [hsplit]
    rfl
  obtain ⟨c, hreach, hhistory, hrun⟩ := reach_call .refl hstart (.ok lines) (decide_eq_true rfl)
  have hread : (Except.ok lines : Except At.Err (List At.Line)).bind (At.pduOf i) = .ok x := hx
  rw [hread] at hrun
  refine ⟨c, hreach, hhistory, fun e hdecode => ?_, fun d' hdecode => ?_⟩
  · obtain ⟨k, hk⟩ := herr x e hdecode
    rw [hrun, hk]
    exact ⟨_, rfl⟩
  · obtain ⟨k, k', hk, hk'⟩ := hok x d' hdecode
    rw [hrun, hk]
    have hnext : (k (.ok (1, false)) >>= fun _ => .ret (.inr ()) : Work (Unit ⊕ Unit)) =
        .call (.execute (.deleteSMS i)) fun a => k' a >>= fun _ => .ret (.inr ()) := by
      rw [hk']
      rfl
    exact ⟨_, _, rfl, hnext⟩

theorem harmless_of_insertedFirst {lines : List At.Line}
    (hsafe : ∀ c, (readSystem h w id i (.ok lines)).recorded.Reach
      (readStart h w id i (.ok lines)) c → InsertedFirst (receivedMessage id d) i c.state.history) :
    Harmless h id i d lines := by
  intro x hx
  obtain ⟨c, hreach, hhistory, herr, hok⟩ := exists_reach_read h w id hx
  cases hdecode : At.decodePDU h.toHost x with
  | panic => exact .inl rfl
  | err e =>
    -- the message is deleted, and nothing was inserted
    obtain ⟨k, hrun⟩ := herr e hdecode
    obtain ⟨c', hreach', hhistory', -⟩ := reach_call hreach hrun (.ok []) rfl
    have hfirst := hsafe c' hreach'
    rw [hhistory', hhistory] at hfirst
    obtain ⟨p, hp⟩ := hfirst.1 rfl
    cases List.mem_singleton.mp hp
  | ok d' =>
    -- another message is inserted, and this one is deleted
    obtain ⟨k, k', hrun, hk⟩ := hok d' hdecode
    obtain ⟨c₁, hreach₁, hhistory₁, hrun₁⟩ := reach_call hreach hrun (.ok (1, false)) rfl
    rw [hk] at hrun₁
    obtain ⟨c₂, hreach₂, hhistory₂, -⟩ := reach_call hreach₁ hrun₁ (.ok []) rfl
    have hfirst := hsafe c₂ hreach₂
    rw [hhistory₂, hhistory₁, hhistory] at hfirst
    obtain ⟨p, hp⟩ := hfirst.1 rfl
    refine .inr ⟨d', rfl, ?_⟩
    rcases List.mem_cons.mp hp with hp | hp
    · obtain ⟨-, hinsert, -⟩ := System.Occurrence.call.inj hp
      exact (Call.insert.inj hinsert).symm
    · cases List.mem_singleton.mp hp

end Runs

/-! ### What `ReadSMS` makes of a noisy reply -/

/-- The unsolicited lines in front of the header are no headers themselves, and those behind it are
URCs or blank. -/
def Benign (wire : List WireLine) : Prop :=
  ∃ front header back, wire = front ++ header :: back ∧
    (∀ x ∈ front, x.unsolicited ∧ ¬ hasPrefix x.line (lit "+CMGR:")) ∧
    hasPrefix header.line (lit "+CMGR:") ∧ header.unsolicited = false ∧
    ∀ x ∈ back, if x.unsolicited then At.Serializer.isAnswer x.line → trimSpace x.line = []
      else At.isURC x.line = false

theorem isAnswer_header {line : At.Line} (h : hasPrefix line (lit "+CMGR:")) :
    At.Serializer.isAnswer line := by
  obtain ⟨rest, rfl⟩ := List.isPrefixOf_iff_prefix.mp h
  rfl

theorem routedLines_append (wire wire' : List WireLine) :
    routedLines (wire ++ wire') = routedLines wire ++ routedLines wire' := by
  rw [routedLines, List.map_append, List.filter_append]
  rfl

/-- Lines that are not routed, or are blank, add nothing to the PDU. -/
theorem flatMap_routedLines {wire : List WireLine}
    (h : ∀ x ∈ wire, if x.unsolicited then At.Serializer.isAnswer x.line → trimSpace x.line = []
      else At.isURC x.line = false) :
    (routedLines wire).flatMap trimSpace = (replyLines wire).flatMap trimSpace := by
  induction wire with
  | nil => rfl
  | cons x wire ih =>
    have ih := ih fun y hy => h y (List.mem_cons_of_mem x hy)
    have hx := h x List.mem_cons_self
    have hrouted : routedLines (x :: wire) = if At.Serializer.isAnswer x.line then
        x.line :: routedLines wire else routedLines wire := List.filter_cons
    rw [hrouted]
    by_cases hunsolicited : x.unsolicited
    · have hreply : replyLines (x :: wire) = replyLines wire := by
        rw [replyLines, List.filter_cons_of_neg (by rw [hunsolicited]; decide)]
        rfl
      rw [if_pos hunsolicited] at hx
      rw [hreply]
      split_ifs with hanswer
      · rw [List.flatMap_cons, hx hanswer, ih, List.nil_append]
      · exact ih
    · have hreply : replyLines (x :: wire) = x.line :: replyLines wire := by
        rw [replyLines, List.filter_cons_of_pos (by rw [eq_false_of_ne_true hunsolicited]; rfl)]
        rfl
      rw [if_neg hunsolicited] at hx
      rw [hreply, List.flatMap_cons]
      split_ifs with hanswer
      · rw [List.flatMap_cons, ih]
      · -- a line of the reply that is not routed is empty
        have hempty : x.line = [] := by
          by_contra hne
          exact hanswer (by rw [At.Serializer.isAnswer, hx, decide_eq_true hne]; rfl)
        rw [hempty, ih]
        rfl

/-- `ReadSMS` passes over what stands in front of the header. -/
theorem pduOf_append {i : ℤ} {front parts : List At.Line} {header : At.Line}
    (hfront : ∀ l ∈ front, ¬ hasPrefix l (lit "+CMGR:")) :
    At.pduOf i (front ++ header :: parts) = At.pduOf i (header :: parts) := by
  have hdrop : (front ++ header :: parts).dropWhile (fun l => !hasPrefix l (lit "+CMGR:")) =
      (header :: parts).dropWhile fun l => !hasPrefix l (lit "+CMGR:") := by
    refine List.dropWhile_append_of_pos fun l hl => ?_
    rw [eq_false_of_ne_true (hfront l hl)]
    rfl
  unfold At.pduOf
  rw [hdrop, if_neg (List.append_ne_nil_of_right_ne_nil front (List.cons_ne_nil header parts)),
    if_neg (List.cons_ne_nil header parts)]

/-- Benign noise leaves the PDU as it is. -/
theorem harmless_of_benign {h : Host} {id : Identity} {i : ℤ} {pdu : List UInt8}
    {d : At.DecodedSMS} {wire : List WireLine} (hd : At.decodePDU h.toHost pdu = .ok d)
    (hslot : faithful (some pdu) (replyLines wire)) (hbenign : Benign wire) :
    Harmless h id i d (routedLines wire) := by
  obtain ⟨front, header, back, rfl, hfront, hheader, hsolicited, hback⟩ := hbenign
  have hrouted : routedLines (front ++ header :: back) =
      routedLines front ++ header.line :: routedLines back := by
    rw [routedLines_append]
    exact congrArg _ (List.filter_cons_of_pos (isAnswer_header hheader))
  have hreply : replyLines (front ++ header :: back) = header.line :: replyLines back := by
    have hnone : front.filter (fun x => !x.unsolicited) = [] :=
      List.filter_eq_nil_iff.mpr fun x hx => by rw [(hfront x hx).1]; decide
    rw [replyLines, List.filter_append, hnone, List.nil_append,
      List.filter_cons_of_pos (by rw [hsolicited]; rfl)]
    rfl
  intro x hx
  rw [hrouted, pduOf_append ?_] at hx
  · rw [hreply] at hslot
    simp only [faithful, Bool.and_eq_true, decide_eq_true_eq] at hslot
    have hsame : faithful (some pdu) (header.line :: routedLines back) := by
      simp only [faithful, Bool.and_eq_true, decide_eq_true_eq]
      exact ⟨hslot.1, (flatMap_routedLines hback).trans hslot.2⟩
    cases eq_of_faithful hsame hx
    exact .inr ⟨d, hd, rfl⟩
  · intro l hl
    obtain ⟨y, hy, rfl⟩ := List.mem_map.mp (List.mem_of_mem_filter hl)
    exact (hfront y hy).2

/-! ### The whole way -/

/-- **Noise and the slot.**  A slot of the SIM holds a PDU that `DecodePDU` accepts.  The modem
answers `AT+CMGR` by its header and the PDU, with unsolicited lines anywhere between them, and by
`OK`; in some run of the serializer, with any other callers, `Execute` returns.

* On what it returns, `receiveSMS` deletes the message only after it was inserted if and only if
  `Execute` failed, or what `ReadSMS` makes of the lines is an error or still decodes to the
  message.
* The lines are those that the reader routes, if calls do not overlap, no line was dropped for lack
  of room and the port has not ended.
* They do no harm if the unsolicited lines behind the header are URCs or blank, and those in front
  of it are no headers. -/
theorem receive_noisy_iff (h : Host) (w : Worker) (id : Identity) (i : ℤ) {pdu : List UInt8}
    {d : At.DecodedSMS} (hd : At.decodePDU h.toHost pdu = .ok d) {wire : List WireLine}
    (hslot : faithful (some pdu) (replyLines wire)) {κ : Type} [DecidableEq κ]
    {reply : ℕ → List UInt8 → At.Serializer.Reply} (cmd : κ → List UInt8) (k : κ)
    (hcmd : cmd k = (At.Cmd.readSMS i).text)
    (hreply : ∀ n, (reply n ((At.Cmd.readSMS i).text ++ At.Serializer.crlf)).lines =
      routedLines wire ++ [lit "OK"])
    {c : At.Serializer.CallConfig κ}
    (hreach : (At.Serializer.callSystem reply κ).recorded.Reach
      (At.Serializer.executeStart reply cmd) c)
    {lines : List At.Line} {err : Option At.Err}
    (hstop : c.threads (.caller k) = .stopped (.executed lines err)) :
    ((∀ c', (readSystem h w id i (executed lines err)).recorded.Reach
        (readStart h w id i (executed lines err)) c' →
        InsertedFirst (receivedMessage id d) i c'.state.history) ↔
      (err = none → Harmless h id i d lines)) ∧
      (err = none → At.Serializer.Serial c.state.history → c.state.state.overflow = false →
        c.state.state.scanner.eof = false → lines = routedLines wire) ∧
      (Benign wire → Harmless h id i d (routedLines wire)) := by
  refine ⟨?_, ?_, harmless_of_benign hd hslot⟩
  · cases err with
    | some e =>
      refine ⟨fun _ => nofun, fun _ c' hreach' => insertedFirst_of_harmless ?_ hreach'⟩
      rintro lines' ⟨⟩
    | none =>
      refine ⟨fun hsafe _ => harmless_of_insertedFirst hsafe, fun hharmless c' hreach' => ?_⟩
      refine insertedFirst_of_harmless (fun lines hlines => ?_) hreach'
      cases hlines
      exact hharmless rfl
  · rintro rfl hserial hover heof
    obtain ⟨n, -, hbody, -⟩ := At.Serializer.answer_of_serial hreach hserial hstop rfl hover heof
    rw [hcmd] at hbody
    exact hbody.trans (List.append_inj' (hreply n) rfl).1

/-! ### A URC and a line that is none -/

section

open At.Serializer

/-- The slot's reply, with a line that the modem sends by itself in front of the PDU. -/
def sampleWire (noise : At.Line) : List WireLine :=
  [⟨lit "+CMGR: 0,,16", false⟩, ⟨noise, true⟩, ⟨samplePDU, false⟩]

/-- What the reader routes of it, and `OK`. -/
def wireReply (noise : At.Line) (hnoise : isFinal noise = false) (_ : ℕ) (_ : List UInt8) : Reply :=
  okReply (routedLines (sampleWire noise)) (by
    intro l hl
    obtain ⟨x, hx, rfl⟩ := List.mem_map.mp (List.mem_of_mem_filter hl)
    simp only [sampleWire, List.mem_cons, List.not_mem_nil, or_false] at hx
    rcases hx with rfl | rfl | rfl
    · decide
    · exact hnoise
    · decide)

/-- Before `AT+CMGR=3` is executed. -/
def wireStart (noise : At.Line) (hnoise : isFinal noise = false) : CallConfig Unit :=
  executeStart (wireReply noise hnoise) fun _ => (At.Cmd.readSMS 3).text

/-- The modem sends the lines. -/
def wireMoves (noise : At.Line) : Moves Unit :=
  beginMoves 0 () ++ emitMoves (lit "+CMGR: 0,,16" ++ crlf ++ noise ++ crlf ++ samplePDU ++ crlf ++
    lit "OK" ++ crlf)

theorem sampleSMS_decodes : At.decodePDU Host.plain.toHost samplePDU = .ok sampleSMS := by
  decide +kernel

/-- A new message is announced in front of the PDU: it is kept away from the reply. -/
theorem receive_noisy_iff_cmti :
    ∃ c, (callSystem (wireReply (lit "+CMTI: \"SM\",4") rfl) Unit).recorded.Reach
        (wireStart (lit "+CMTI: \"SM\",4") rfl) c ∧
      c.threads (.caller ()) = .stopped (.executed [lit "+CMGR: 0,,16", samplePDU] none) ∧
      ∀ c', (readSystem .plain .plain sampleID 3
          (.ok [lit "+CMGR: 0,,16", samplePDU])).recorded.Reach
          (readStart .plain .plain sampleID 3 (.ok [lit "+CMGR: 0,,16", samplePDU])) c' →
        InsertedFirst (receivedMessage sampleID sampleSMS) 3 c'.state.history := by
  have hplay : ∃ c, (callSystem (wireReply (lit "+CMTI: \"SM\",4") rfl) Unit).recorded.play
      (wireStart (lit "+CMTI: \"SM\",4") rfl)
      (wireMoves (lit "+CMTI: \"SM\",4") ++ routeMoves 0 (lit "+CMGR: 0,,16") ++
        callMoves 2 .reader (runAnswer 0 (some (lit "+CMTI: \"SM\",4")) .timer) ++
        routeMoves 0 samplePDU ++ routeMoves 0 (lit "OK") ++
        takeMoves 0 () (lit "+CMGR: 0,,16") 0 ++ takeMoves 0 () samplePDU 0 ++
        takeMoves 0 () (lit "OK") 1) = some c ∧
      Serial c.state.history ∧ c.state.state.overflow = false ∧
      c.state.state.scanner.eof = false ∧
      c.threads (.caller ()) = .stopped (.executed [lit "+CMGR: 0,,16", samplePDU] none) :=
    ⟨_, rfl, serial_unit _, rfl, rfl, rfl⟩
  obtain ⟨c, hplay, hserial, hover, heof, hstop⟩ := hplay
  have hreach := System.reach_of_play hplay
  have hslot : faithful (some samplePDU) (replyLines (sampleWire (lit "+CMTI: \"SM\",4"))) := by
    decide +kernel
  have hnoisy := receive_noisy_iff .plain .plain sampleID 3 sampleSMS_decodes hslot
    (fun _ => (At.Cmd.readSMS 3).text) () rfl (fun _ => rfl) hreach hstop
  refine ⟨c, hreach, hstop, hnoisy.1.mpr fun _ => ?_⟩
  rw [hnoisy.2.1 rfl hserial hover heof]
  refine hnoisy.2.2 ?_
  refine ⟨[], _, _, rfl, nofun, by decide, rfl, fun x hx => ?_⟩
  rcases List.mem_cons.mp hx with rfl | hx
  · exact fun h => absurd h (by decide)
  · rw [List.mem_singleton.mp hx]
    decide

/-- The signal strength is reported in front of the PDU.  `Execute` returns this line as a part of
the reply, the PDU with it in front does not decode, and the message is deleted without having been
inserted. -/
theorem not_receive_noisy :
    ∃ c c', (callSystem (wireReply (lit "^RSSI: 20") rfl) Unit).recorded.Reach
        (wireStart (lit "^RSSI: 20") rfl) c ∧
      c.threads (.caller ()) =
        .stopped (.executed [lit "+CMGR: 0,,16", lit "^RSSI: 20", samplePDU] none) ∧
      faithful (some samplePDU) (replyLines (sampleWire (lit "^RSSI: 20"))) ∧
      At.decodePDU Host.plain.toHost samplePDU = .ok sampleSMS ∧
      (readSystem .plain .plain sampleID 3
          (.ok [lit "+CMGR: 0,,16", lit "^RSSI: 20", samplePDU])).recorded.Reach
        (readStart .plain .plain sampleID 3
          (.ok [lit "+CMGR: 0,,16", lit "^RSSI: 20", samplePDU])) c' ∧
      ¬ InsertedFirst (receivedMessage sampleID sampleSMS) 3 c'.state.history := by
  have hplay : ∃ c, (callSystem (wireReply (lit "^RSSI: 20") rfl) Unit).recorded.play
      (wireStart (lit "^RSSI: 20") rfl)
      (wireMoves (lit "^RSSI: 20") ++ routeMoves 0 (lit "+CMGR: 0,,16") ++
        routeMoves 0 (lit "^RSSI: 20") ++ routeMoves 0 samplePDU ++ routeMoves 0 (lit "OK") ++
        takeMoves 0 () (lit "+CMGR: 0,,16") 0 ++ takeMoves 0 () (lit "^RSSI: 20") 0 ++
        takeMoves 0 () samplePDU 0 ++ takeMoves 0 () (lit "OK") 1) = some c ∧
      c.threads (.caller ()) =
        .stopped (.executed [lit "+CMGR: 0,,16", lit "^RSSI: 20", samplePDU] none) :=
    ⟨_, rfl, rfl⟩
  obtain ⟨c, hplay, hstop⟩ := hplay
  -- what is read is `^RSSI: 20` and the PDU, which is no hexadecimal text
  have hx : At.pduOf 3 [lit "+CMGR: 0,,16", lit "^RSSI: 20", samplePDU] =
      .ok (lit "^RSSI: 20" ++ samplePDU) := by
    decide +kernel
  obtain ⟨c₁, hreach₁, hhistory₁, hdelete, -⟩ := exists_reach_read .plain .plain sampleID hx
  obtain ⟨k, hrun⟩ := hdelete (.invalidHex (.invalidByte 0x5E)) (by decide +kernel)
  obtain ⟨c₂, hreach₂, hhistory₂, -⟩ := reach_call hreach₁ hrun (.ok []) rfl
  refine ⟨c, c₂, System.reach_of_play hplay, hstop, by decide +kernel, sampleSMS_decodes, hreach₂,
    fun hfirst => ?_⟩
  rw [hhistory₂, hhistory₁] at hfirst
  obtain ⟨p, hp⟩ := hfirst.1 rfl
  cases List.mem_singleton.mp hp

end

end SmsGate.Modem
