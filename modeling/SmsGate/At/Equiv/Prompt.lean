import SmsGate.At.Equiv.Calls

/-!
# The send prompt

One call of `ExecuteSend` next to the reader.  The modem answers `AT+CMGS` by some bytes and the
prompt `\r\n> `, and is silent until it has received the PDU.  The bytes reach the scanner in chunks
of any size, and the goroutines take turns in any way.

The prompt does not end in a newline, so `Scan` keeps it and waits: the lines that reach
`ExecuteSend` are the complete lines in front of it.  `prompt_routed_iff` says when one of them is
taken for the prompt; `not_prompt_routed` is the run with the prompt alone, in which `ExecuteSend`
gives up.

`PromptInv` is the invariant of the reader with what `ExecuteSend` makes of the lines that are
routed to it.
-/

namespace SmsGate.At.Serializer

open Go Go.Strings

/-! ### The system -/

/-- What a modem sends for a prompt. -/
def promptBytes : List UInt8 := lit "\r\n> "

section

variable (reply pduHex : List UInt8) (pduLen : ℕ)

/-- A modem that answers `AT+CMGS` by `reply` and is silent until it has received the PDU. -/
def answering (s : World) (bytes : List UInt8) : Bool :=
  (s.written.contains (cmgs pduLen) && (s.emitted ++ bytes).isPrefixOf reply) ||
    s.written.contains (pduFrame pduHex)

/-- The reader and one `ExecuteSend`. -/
def sendSystem : System (Thread Unit) World Call Call.Ans Label Exit Unit Outer :=
  system Unit (answering reply pduHex pduLen)

/-- Before `ExecuteSend`: the scanner holds `buf`, and `incoming` waits in the port. -/
def sendStart (buf incoming : List UInt8) :
    System.Config (Thread Unit) World Call Call.Ans Label Exit :=
  (sendSystem reply pduHex pduLen).start (World.idle buf incoming)
    (entry fun _ => .executeSend pduHex pduLen)

end

/-- The reader has read all that the modem has answered, and waits for more. -/
structure AllRead (reply : List UInt8) (c : System.Config (Thread Unit) World Call Call.Ans Label
    Exit) : Prop where
  emitted : c.state.emitted = reply
  incoming : c.state.incoming = []
  atScan : ∃ k, c.threads .reader = .running (.call .scan k)
  waits : c.state.scanner.scan maxToken = none

/-! ### Where the bytes are -/

section Invariant

variable (pduHex stream : List UInt8)

/-- What is known of `ExecuteSend` in each phase: what was routed to it was taken or is there for it
to read, and what it has written is on the port. -/
def SendOk (s : World) : CallPhase → Prop
  | .installed p => s.routed p ⊆ s.linesCh p
  | .awaiting p said taken =>
    s.routed p ⊆ taken ++ s.linesCh p ∧ taken ⊆ s.routed p ∧ said ⊆ s.written
  | .returned said _ => said ⊆ s.written
  | _ => True

/-- The invariant of the reader, with what `ExecuteSend` makes of the lines that are routed to
it. -/
structure PromptInv (s : World) (r : ReaderStage) (k : CallPhase) : Prop
    extends RoutingInv stream s r where
  send : SendOk s k
  written : pduFrame pduHex ∈ s.written → ∃ p, ∃ l ∈ s.routed p, isPrompt l

variable {pduHex stream} {pduLen : ℕ} {s s' : World} {r : ReaderStage} {k : CallPhase}

/-- What `ExecuteSend` has to do with. -/
def World.sending (s : World) : (ℕ → List Line) × (ℕ → List Line) × List (List UInt8) :=
  (s.routed, s.linesCh, s.written)

/-- Only the channels, what was routed and what was written matter to `ExecuteSend`. -/
theorem PromptInv.of_same {r' : ReaderStage} (hinv : PromptInv pduHex stream s r k)
    (hrouting : RoutingInv stream s' r') (hsame : s'.sending = s.sending) :
    PromptInv pduHex stream s' r' k := by
  have hsend := hinv.send
  have hwritten := hinv.written
  simp only [World.sending, Prod.mk.injEq] at hsame
  unfold SendOk at hsend
  rw [← hsame.1, ← hsame.2.1, ← hsame.2.2] at hsend
  rw [← hsame.1, ← hsame.2.2] at hwritten
  exact ⟨hrouting, hsend, hwritten⟩

theorem subset_update_concat (f : ℕ → List Line) (p p' : ℕ) (line : Line) :
    f p' ⊆ Function.update f p (f p ++ [line]) p' := by
  rw [update_concat]
  exact List.subset_append_left _ _

/-- The PDU ends in Ctrl+Z, the command in a newline. -/
theorem pduFrame_ne_cmgs {pduLen : ℕ} : pduFrame pduHex ≠ cmgs pduLen := by
  intro h
  have hcmgs : cmgs pduLen = lit "AT+CMGS=" ++ Strconv.decimal pduLen ++ [0x0D] ++ [0x0A] := by
    rw [cmgs, List.append_assoc _ [0x0D]]
    rfl
  rw [pduFrame, hcmgs] at h
  exact absurd (List.append_inj_right' h rfl) (by decide)

/-- Routing a line keeps what is known of `ExecuteSend`. -/
theorem sendOk_route {p : ℕ} {line : Line} (h : SendOk s k) :
    SendOk
      { s with
        linesCh := Function.update s.linesCh p (s.linesCh p ++ [line])
        routed := Function.update s.routed p (s.routed p ++ [line]) } k := by
  have hboth : ∀ p' taken, s.routed p' ⊆ taken ++ s.linesCh p' →
      Function.update s.routed p (s.routed p ++ [line]) p' ⊆
        taken ++ Function.update s.linesCh p (s.linesCh p ++ [line]) p' := by
    intro p' taken h
    by_cases hp : p' = p
    · subst hp
      rw [Function.update_self, Function.update_self, ← List.append_assoc]
      exact List.append_subset.mpr
        ⟨List.Subset.trans h (List.subset_append_left _ _), List.subset_append_right _ _⟩
    · rw [Function.update_of_ne hp, Function.update_of_ne hp]
      exact h
  cases k with
  | installed p' => exact hboth p' [] h
  | awaiting p' said taken =>
    refine ⟨hboth p' taken h.1, ?_, h.2.2⟩
    exact List.Subset.trans h.2.1 (subset_update_concat s.routed p p' line)
  | _ => exact h

/-- The line in flight arrives, or is dropped. -/
theorem promptInv_sendLine {p : ℕ} {line : Line} {ok : Bool}
    (hinv : PromptInv pduHex stream s (.sending p line) k)
    (hexec : s.exec (.trySendLine p line) ok = some s') :
    PromptInv pduHex stream s' .scanning k := by
  have hrouting := hinv.toRoutingInv.sendLine hexec
  obtain ⟨hok, hs⟩ := Option.ite_none_left_eq_some.mp hexec
  cases ok with
  | false =>
    cases hs
    exact hinv.of_same hrouting rfl
  | true =>
    cases hs
    refine ⟨hrouting, sendOk_route hinv.send, fun hwritten => ?_⟩
    obtain ⟨p', l, hl, hprompt⟩ := hinv.written hwritten
    exact ⟨p', l, subset_update_concat s.routed p p' line hl, hprompt⟩

/-- `ExecuteSend` makes its command pending. -/
theorem promptInv_install {p : ℕ} (hinv : PromptInv pduHex stream s r k)
    (hexec : s.exec .install p = some s') : PromptInv pduHex stream s' r (.installed p) := by
  have hrouting := hinv.toRoutingInv.install hexec
  obtain ⟨hp, hs⟩ := Option.ite_none_right_eq_some.mp hexec
  cases hs
  refine ⟨hrouting, ?_, hinv.written⟩
  show s.routed p ⊆ s.linesCh p
  rw [(hinv.fresh p hp.ge).1]
  exact List.nil_subset _

/-- `ExecuteSend` writes the command, or the PDU after a prompt. -/
theorem promptInv_write {data : List UInt8} {ok : Bool} (hinv : PromptInv pduHex stream s r k)
    (hallow : (callProtocol (· = .send pduHex pduLen) False).allows k (.write data))
    (hexec : s.exec (.write data) ok = some s') :
    PromptInv pduHex stream s' r (k.next (.write data) ok) := by
  have hrouting := hinv.toRoutingInv.caller rfl hexec
  have hsend := hinv.send
  cases hexec
  cases ok with
  | false => exact ⟨hrouting, trivial, hinv.written⟩
  | true =>
    have hdata : data ∈ s.written ++ [data] := List.mem_append_right _ List.mem_cons_self
    rcases hallow with ⟨_, p, rfl, rfl, rfl⟩ | ⟨hex, n, p, taken, l, hr, rfl, hprompt, rfl⟩
    · refine ⟨hrouting, ⟨hsend, List.nil_subset _, ?_⟩, fun hmem => ?_⟩
      · exact List.cons_subset.mpr ⟨hdata, List.nil_subset _⟩
      · rcases List.mem_append.mp hmem with hmem | hmem
        · exact hinv.written hmem
        · exact absurd (List.mem_singleton.mp hmem) pduFrame_ne_cmgs
    · cases hr
      refine ⟨hrouting, ⟨hsend.1, hsend.2.1, ?_⟩, fun _ => ?_⟩
      · refine List.append_subset.mpr ⟨?_, List.cons_subset.mpr ⟨hdata, List.nil_subset _⟩⟩
        exact List.Subset.trans hsend.2.2 (List.subset_append_left _ _)
      · exact ⟨p, l, hsend.2.1 (List.mem_append_right _ List.mem_cons_self), hprompt⟩

/-- `ExecuteSend` takes a line from its channel. -/
theorem promptInv_recv {timer : Timer} {p : ℕ} {l : Line} {said : List (List UInt8)}
    {taken : List Line} (hinv : PromptInv pduHex stream s r (.awaiting p said taken))
    (hexec : s.exec (.recv timer p) (.line l) = some s') :
    PromptInv pduHex stream s' r (.awaiting p said (taken ++ [l])) := by
  have hrouting := hinv.toRoutingInv.recv hexec
  obtain ⟨hall, htaken, hsaid⟩ := hinv.send
  obtain ⟨rest, hch, rfl⟩ := exists_linesCh_of_recv hexec
  refine ⟨hrouting, ⟨?_, ?_, hsaid⟩, hinv.written⟩
  · dsimp only
    rw [hch] at hall
    rw [Function.update_self, List.append_assoc]
    exact hall
  · refine List.append_subset.mpr ⟨htaken, List.cons_subset.mpr ⟨?_, List.nil_subset _⟩⟩
    exact hinv.queued p (hch ▸ List.mem_cons_self)

/-- What happens beside the goroutines. -/
theorem promptInv_outer {mayEmit : World → List UInt8 → Bool} {v : Outer}
    (hinv : PromptInv pduHex stream s r k) (hstep : v.step mayEmit s = some s') :
    PromptInv pduHex stream s' r k := by
  refine hinv.of_same (hinv.toRoutingInv.outer hstep) (view_of_outer ?_ hstep)
  cases v <;> simp [Outer.Leaves, World.sending]

theorem promptInv_reader {c : Call} {a : c.Ans} (hinv : PromptInv pduHex stream s r k)
    (hallow : r.Allows c) (hexec : s.exec c a = some s') :
    PromptInv pduHex stream s' (r.next c a) k := by
  cases c with
  | trySendLine p line =>
    obtain rfl : r = .sending p line := hallow
    exact promptInv_sendLine hinv hexec
  | scan | loadPending | trySendURC | tryRecvURC | closeClosed =>
    exact hinv.of_same (hinv.toRoutingInv.reader hallow hexec)
      (view_of_exec (by simp [Call.Leaves, World.sending]) hexec)
  | _ => exact hallow.elim

theorem promptInv_caller {c : Call} {a : c.Ans} (hinv : PromptInv pduHex stream s r k)
    (hallow : (callProtocol (· = .send pduHex pduLen) False).allows k c)
    (hexec : s.exec c a = some s') : PromptInv pduHex stream s' r (k.next c a) := by
  have hrouting := hinv.toRoutingInv.caller (ofCaller_of_allows hallow) hexec
  have hsend := hinv.send
  cases c with
  | install => exact promptInv_install hinv hexec
  | write data => exact promptInv_write hinv hallow hexec
  | clear =>
    cases hexec
    rcases hallow with ⟨why, rfl⟩ | ⟨_, timer, p, said, taken, l, e, -, rfl, -, -⟩
    · exact ⟨hrouting, trivial, hinv.written⟩
    · exact ⟨hrouting, hsend.2.2, hinv.written⟩
  | recv timer p =>
    obtain ⟨_, said, taken, -, rfl, -⟩ := hallow
    cases a with
    | line l => exact promptInv_recv hinv hexec
    | timer =>
      cases hexec
      exact ⟨hrouting, trivial, hinv.written⟩
    | closed =>
      obtain ⟨-, hs⟩ := Option.ite_none_right_eq_some.mp hexec
      cases hs
      exact ⟨hrouting, trivial, hinv.written⟩
  | pollClosed =>
    obtain ⟨-, hs⟩ := Option.ite_none_right_eq_some.mp hexec
    cases hs
    refine ⟨hrouting, ?_, hinv.written⟩
    cases a <;> trivial
  | close =>
    cases hexec
    exact ⟨hrouting, trivial, hinv.written⟩
  | _ => exact hallow.elim

end Invariant

/-! ### Whole runs -/

section Runs

variable (reply pduHex : List UInt8) (pduLen : ℕ)

/-- The protocol of each goroutine. -/
def sendProtocol : Thread Unit → Protocol Call Call.Ans (ReaderStage × CallPhase)
  | .reader => stageProtocol CallPhase
  | .caller () => (callProtocol (· = .send pduHex pduLen) False).onSnd ReaderStage

/-- The proof outline, for a stream of which the reader had not taken any line at the start. -/
def sendOutline (stream : List UInt8) :
    System.Outline (sendSystem reply pduHex pduLen) (sendProtocol pduHex pduLen) where
  head t l q :=
    match t with
    | .reader => l = .reader ∧ q.1 = .scanning
    | .caller () => CallHead (· = .send pduHex pduLen) False q.2 l
  final t e q :=
    match t with
    | .reader => True
    | .caller () => (Request.send pduHex pduLen).Final q.2 e
  inv s q := PromptInv pduHex stream s (q .reader).1 (q (.caller ())).2
  block_obeys t l q hhead := by
    cases t with
    | reader =>
      obtain ⟨rfl, hq⟩ := hhead
      refine (reader_stages hq).mono fun res q' hres => ?_
      cases res <;> exact hres
    | caller u =>
      refine (block_keeps hhead).onSnd.mono fun res q' hres => ?_
      cases res with
      | inl l' => exact hres
      | inr e =>
        obtain ⟨_, rfl, hfinal⟩ := hres
        exact hfinal
  call_inv t _ s q c a s' hinv hallow hexec := by
    cases t with
    | reader => exact promptInv_reader hinv hallow hexec
    | caller u => exact promptInv_caller hinv hallow hexec
  env_inv v s q s' hinv hstep := promptInv_outer hinv hstep
  crash_inv _ _ _ _ _ _ hcrash := by cases hcrash

variable {reply pduHex pduLen}

/-- What the invariant says of a whole run. -/
theorem promptInv_reach {buf incoming : List UInt8}
    {c : System.Config (Thread Unit) World Call Call.Ans Label Exit}
    (hreach : (sendSystem reply pduHex pduLen).Reach (sendStart reply pduHex pduLen buf incoming)
      c) : (sendOutline reply pduHex pduLen (buf ++ incoming)).Holds c := by
  refine System.Outline.reach _ (System.Outline.holds_start _ (q := fun _ => (.scanning, .outside))
    ?_ fun t => ?_) hreach
  · exact ⟨.idle buf incoming, trivial, nofun⟩
  · cases t with
    | reader => exact ⟨rfl, rfl⟩
    | caller u => exact ⟨rfl, .inl rfl⟩

end Runs

/-- A send that succeeds has written the PDU. -/
theorem said_of_sent {pduHex : List UInt8} {pduLen : ℕ} {k : CallPhase} {mr : ℤ}
    (h : (Request.send pduHex pduLen).Final k (.sent (.ok mr))) :
    ∃ taken, k = .returned [cmgs pduLen, pduFrame pduHex] taken := by
  rcases h with ⟨why, -, err, hfails⟩ | ⟨timer, said, taken, l, rfl, hwaits, hexits⟩
  · cases hfails
  · cases timer with
    | prompt => cases hexits.2.2
    | timeout =>
      rw [hwaits.1]
      exact ⟨_, rfl⟩

/-- **When the prompt reaches `ExecuteSend`.**  The modem answers `AT+CMGS` by `u` and the prompt.
In every run:

* when the reader has read all of this while the command is pending, and no line was dropped, a
  line that starts with `>` was routed to the command if and only if one of the complete lines in
  front of the prompt, among those that the reader took since the command is pending, starts so;
* as long as `ExecuteSend` waits for the prompt, such a line is still there for it to read;
* it writes the PDU only if such a line was routed, and succeeds only if it has written the PDU. -/
theorem prompt_routed_iff (buf incoming u pduHex : List UInt8) (pduLen : ℕ)
    {c : System.Config (Thread Unit) World Call Call.Ans Label Exit}
    (hreach : (sendSystem (u ++ promptBytes) pduHex pduLen).Reach
      (sendStart (u ++ promptBytes) pduHex pduLen buf incoming) c) :
    (∀ p, AllRead (u ++ promptBytes) c → c.state.pending = some p → c.state.overflow = false →
      ((∃ l ∈ c.state.routed p, isPrompt l) ↔
        ∃ l ∈ (answers (buf ++ incoming ++ u ++ lit "\r\n")).drop (c.state.since p),
          isPrompt l)) ∧
      (∀ p k, c.threads (.caller ()) = .running (.call (.recv .prompt p) k) →
        ((∃ l ∈ c.state.routed p, isPrompt l) ↔ ∃ l ∈ c.state.linesCh p, isPrompt l)) ∧
      (pduFrame pduHex ∈ c.state.written → ∃ p, ∃ l ∈ c.state.routed p, isPrompt l) ∧
      ∀ mr, c.threads (.caller ()) = .stopped (.sent (.ok mr)) →
        pduFrame pduHex ∈ c.state.written := by
  obtain ⟨q, hinv, hfollows⟩ := promptInv_reach hreach
  have hreader := hfollows .reader
  have hcaller := hfollows (.caller ())
  have hsend := hinv.send
  refine ⟨fun p hread hp hover => ?_, fun p k hwait => ?_, hinv.written, fun mr hstop => ?_⟩
  · obtain ⟨hemitted, hincoming, ⟨k, hscan⟩, hwaits⟩ := hread
    -- the reader is between two lines, so no line is held or in flight
    rw [hscan] at hreader
    have hphase : (q .reader).1 = .scanning := hreader.1
    obtain ⟨hbuf, heof⟩ := Bufio.Scanner.scan_eq_none hwaits
    obtain ⟨tokens, hscanned, hloaded⟩ := hinv.lines heof
    rw [hincoming, List.append_nil, hemitted] at hscanned
    have hlines : Bufio.lines (buf ++ incoming ++ u ++ lit "\r\n") = tokens := by
      rw [← hscanned.lines_eq hbuf, ← Bufio.lines_append_tail _ (x := lit "> ") (by decide)]
      congr 1
      simp only [List.append_assoc]
      rfl
    have hrouted := (hinv.pending p hp).2 hover
    rw [hphase] at hrouted hloaded
    have hall : answersOf tokens = c.state.loaded := hloaded.trans (List.append_nil _)
    have hdrop : c.state.routed p = c.state.loaded.drop (c.state.since p) :=
      (List.append_nil _).symm.trans hrouted
    rw [answers, hlines, hall, ← hdrop]
  · rw [hwait] at hcaller
    obtain ⟨_, said, taken, rfl, hphase, hwaits⟩ := hcaller.1
    rw [hphase] at hsend
    refine ⟨?_, ?_⟩
    · -- no line that was taken is a prompt
      rintro ⟨l, hl, hprompt⟩
      rcases List.mem_append.mp (hsend.1 hl) with htaken | hch
      · rw [(hwaits.2 l htaken).1] at hprompt
        cases hprompt
      · exact ⟨l, hch, hprompt⟩
    · rintro ⟨l, hl, hprompt⟩
      exact ⟨l, hinv.queued p hl, hprompt⟩
  · rw [hstop] at hcaller
    obtain ⟨taken, hphase⟩ := said_of_sent hcaller
    rw [hphase] at hsend
    exact hsend (List.mem_cons_of_mem _ List.mem_cons_self)

/-! ### The prompt behind a line and the prompt alone -/

/-- `AT+CMGS` is written, and the modem's answer is read from the port. -/
def samplePrompt (reply : List UInt8) : Moves Unit := beginMoves 0 () ++ emitMoves reply

/-- A line `>` in front of the prompt is taken for it. -/
theorem prompt_routed_iff_line :
    ∃ c : System.Config (Thread Unit) World Call Call.Ans Label Exit,
      (sendSystem (lit ">" ++ promptBytes) (lit "00") 1).Reach
        (sendStart (lit ">" ++ promptBytes) (lit "00") 1 [] []) c ∧
      AllRead (lit ">" ++ promptBytes) c ∧ c.state.pending = some 0 ∧
      ∃ l ∈ c.state.routed 0, isPrompt l := by
  have hplay : ∃ c, (sendSystem (lit ">" ++ promptBytes) (lit "00") 1).play
      (sendStart (lit ">" ++ promptBytes) (lit "00") 1 [] [])
      (samplePrompt (lit ">" ++ promptBytes) ++ routeMoves 0 (lit ">")) = some c ∧
      AllRead (lit ">" ++ promptBytes) c ∧ c.state.pending = some 0 ∧
      c.state.overflow = false ∧ c.state.since 0 = 0 :=
    ⟨_, rfl, ⟨rfl, rfl, ⟨_, rfl⟩, rfl⟩, rfl, rfl, rfl⟩
  obtain ⟨c, hplay, hread, hpending, hover, hsince⟩ := hplay
  have hreach := System.reach_of_play hplay
  refine ⟨c, hreach, hread, hpending, ?_⟩
  apply ((prompt_routed_iff [] [] (lit ">") (lit "00") 1 hreach).1 0 hread hpending hover).mpr
  rw [hsince]
  exact ⟨lit ">", by decide, by decide⟩

/-- The prompt alone: the reader has read it, but nothing was routed to the command, and
`ExecuteSend` ends in `ErrSendPrompt` without having written the PDU. -/
theorem not_prompt_routed :
    ∃ c c' : System.Config (Thread Unit) World Call Call.Ans Label Exit,
      (sendSystem promptBytes (lit "00") 1).Reach (sendStart promptBytes (lit "00") 1 [] []) c ∧
      AllRead promptBytes c ∧ c.state.pending = some 0 ∧ c.state.routed 0 = [] ∧
      (sendSystem promptBytes (lit "00") 1).Reach c c' ∧
      c'.threads (.caller ()) = .stopped (.sent (.error .sendPrompt)) ∧
      pduFrame (lit "00") ∉ c'.state.written := by
  have hplay : ∃ c c', (sendSystem promptBytes (lit "00") 1).play
      (sendStart promptBytes (lit "00") 1 [] [])
      (samplePrompt promptBytes ++ callMoves 1 .reader (runAnswer 0 (some []) .timer)) = some c ∧
      AllRead promptBytes c ∧ c.state.pending = some 0 ∧ c.state.routed 0 = [] ∧
      (sendSystem promptBytes (lit "00") 1).play c
        (callMoves 3 (.caller ()) (runAnswer 0 none .timer)) = some c' ∧
      c'.threads (.caller ()) = .stopped (.sent (.error .sendPrompt)) ∧
      c'.state.written = [cmgs 1] :=
    ⟨_, _, rfl, ⟨rfl, rfl, ⟨_, rfl⟩, rfl⟩, rfl, rfl, rfl, rfl, rfl⟩
  obtain ⟨c, c', hplay, hread, hpending, hrouted, hplay', hstop, hwritten⟩ := hplay
  refine ⟨c, c', System.reach_of_play hplay, hread, hpending, hrouted, System.reach_of_play hplay',
    hstop, ?_⟩
  rw [hwritten]
  exact fun hmem => pduFrame_ne_cmgs (List.mem_singleton.mp hmem)

end SmsGate.At.Serializer
