import SmsGate.At.Equiv.Urc

/-!
# One command in flight: which line goes where

While a command is in flight, the reader scans lines of which some are URCs and some are not.
`flightLines` are these lines.  They are split in two, and both parts keep their order: the URCs go
to `URCCH`, and the others to the channel of the command, from which `Execute` takes them one by
one up to the first final result code.

* `FlightInv`: where the lines are.  Every step keeps it;
* `exists_return`: a call that has a final result code in its channel returns;
* `execute_demultiplexes`: the two parts.
-/

namespace SmsGate.At.Serializer

open Go Go.Strings

/-! ### What a history tells of the command in flight -/

section

variable {κ : Type}

/-- The lines since the last command became pending: the one that the reader had in hand, and those
that it has scanned since. -/
def flightLines : History κ → List Line
  | [] => []
  | .call _ .install _ _ :: past => hand past
  | x :: past => flightLines past ++ scanned x

/-- A URC was put into `URCCH`. -/
def delivered : Event κ → List Line
  | .call _ (.trySendURC line) (true : Bool) _ => [line]
  | _ => []

/-- What `URCCH` has received since the last command became pending. -/
def flightURCs : History κ → List Line
  | [] => []
  | .call _ .install _ _ :: _ => []
  | x :: past => flightURCs past ++ delivered x

/-- `URCCH` was not found full since the last command became pending. -/
def RoomForURCs : History κ → Prop
  | [] => True
  | .call _ .install _ _ :: _ => True
  | .call _ (.trySendURC _) (false : Bool) _ :: _ => False
  | _ :: past => RoomForURCs past

/-- A line that is no URC. -/
def isOther (line : Line) : Bool := !isURC line

/-- A call did not end by a line: `closed` was closed, a write failed, or the time was up. -/
def disturbs : Event κ → Bool
  | .call _ .pollClosed (closed : Bool) _ => closed
  | .call _ (.write _) (ok : Bool) _ => !ok
  | .call _ (.recv _ _) (.timer : Received) _ => true
  | .call _ (.recv _ _) (.closed : Received) _ => true
  | _ => false

/-- Whether an event makes a command pending. -/
def isInstall : Event κ → Bool
  | .call _ .install _ _ => true
  | _ => false

variable {past : History κ} {x : Event κ}

theorem disturbed_cons (h : ∃ y ∈ past, disturbs y) : ∃ y ∈ x :: past, disturbs y := by
  obtain ⟨y, hy, hdisturbs⟩ := h
  exact ⟨y, List.mem_cons_of_mem x hy, hdisturbs⟩

theorem flightLines_cons (h : isInstall x = false) :
    flightLines (x :: past) = flightLines past ++ scanned x := by
  cases x with
  | call t c a s =>
    cases c with
    | install => cases h
    | _ => rfl
  | _ => rfl

theorem flightURCs_cons (h : isInstall x = false) :
    flightURCs (x :: past) = flightURCs past ++ delivered x := by
  cases x with
  | call t c a s =>
    cases c with
    | install => cases h
    | _ => rfl
  | _ => rfl

theorem roomForURCs_of_cons (h : isInstall x = false) (hroom : RoomForURCs (x :: past)) :
    RoomForURCs past := by
  cases x with
  | call t c a s =>
    cases c with
    | install => cases h
    | trySendURC line =>
      cases a with
      | false => exact hroom.elim
      | true => exact hroom
    | _ => exact hroom
  | _ => exact hroom

end

/-! ### Where the lines are -/

section

variable {κ : Type}

/-- The commands and their channels. -/
def World.channels (s : World) : Option ℕ × ℕ × (ℕ → List Line) × (ℕ → List Line) × Bool :=
  (s.pending, s.made, s.routed, s.linesCh, s.overflow)

/-- Command `p` is in flight, and these lines were taken. -/
structure Flying (s : World) (past : History κ) (r : ReaderStage) (p : ℕ) (taken : List Line) :
    Prop where
  pending : s.pending = some p
  queue : s.routed p = taken ++ s.linesCh p
  lines : s.overflow = false →
    s.routed p ++ (r.inFlight p ++ r.hand.filter isOther) = (flightLines past).filter isOther

/-- Where the lines are when the call is so far. -/
def FlightOk (s : World) (past : History κ) (r : ReaderStage) : CallPhase → Prop
  | .installed p => Flying s past r p []
  | .awaiting p _ taken => Flying s past r p taken
  | .returned _ taken => s.overflow = false → taken <+: (flightLines past).filter isOther
  | .expired | .failed _ | .gone _ => ∃ x ∈ past, disturbs x
  | .outside | .opened => True

/-- The invariant. -/
structure FlightInv (s : World) (past : History κ) (r : ReaderStage) (k : CallPhase) : Prop where
  reader : ReaderInv s past r
  fresh : ∀ p, s.made ≤ p →
    s.routed p = [] ∧ s.linesCh p = [] ∧ r.inFlight p = [] ∧ s.pending ≠ some p
  call : FlightOk s past r k
  urcs : RoomForURCs past →
    flightURCs past ++ r.hand.filter isURC = (flightLines past).filter isURC

variable {s s' : World} {past : History κ} {r r' : ReaderStage} {k : CallPhase} {x : Event κ}
  {c : Call} {a : c.Ans}

/-- The lines that a history has added stay. -/
theorem filter_flightLines_cons (hx : isInstall x = false) (ok : Line → Bool) :
    (flightLines (x :: past)).filter ok =
      (flightLines past).filter ok ++ (scanned x).filter ok := by
  rw [flightLines_cons hx, List.filter_append]

namespace FlightInv

/-- What leaves the channels alone: a line that was scanned is in hand, and one that has left the
hand is on its way. -/
theorem other (hinv : FlightInv s past r k) (hx : isInstall x = false)
    (hreader : ReaderInv s' (x :: past) r') (hsame : s'.channels = s.channels)
    (hfresh : ∀ p, s.made ≤ p → r'.inFlight p = [])
    (hflight : ∀ p, s.pending = some p → r'.inFlight p ++ r'.hand.filter isOther =
      r.inFlight p ++ r.hand.filter isOther ++ (scanned x).filter isOther)
    (hurcs : RoomForURCs (x :: past) → delivered x ++ r'.hand.filter isURC =
      r.hand.filter isURC ++ (scanned x).filter isURC) :
    FlightInv s' (x :: past) r' k := by
  simp only [World.channels, Prod.mk.injEq] at hsame
  obtain ⟨hpending, hmade, hrouted, hlinesCh, hover⟩ := hsame
  have hflying : ∀ p taken, Flying s past r p taken → Flying s' (x :: past) r' p taken := by
    intro p taken h
    refine ⟨hpending.trans h.pending, by rw [hrouted, hlinesCh, h.queue], fun hover' => ?_⟩
    rw [hrouted, hflight p h.pending, filter_flightLines_cons hx, ← h.lines (hover ▸ hover')]
    simp only [List.append_assoc]
  refine ⟨hreader, fun p hp => ?_, ?_, fun hroom => ?_⟩
  · rw [hmade] at hp
    obtain ⟨hrouted', hlinesCh', -, hnot⟩ := hinv.fresh p hp
    rw [hrouted, hlinesCh, hpending]
    exact ⟨hrouted', hlinesCh', hfresh p hp, hnot⟩
  · have hcall := hinv.call
    cases k with
    | installed p => exact hflying p [] hcall
    | awaiting p said taken => exact hflying p taken hcall
    | returned said taken =>
      intro hover'
      rw [filter_flightLines_cons hx]
      exact (hcall (hover ▸ hover')).trans (List.prefix_append _ _)
    | expired | failed why | gone why => exact disturbed_cons hcall
    | outside | opened => trivial
  · rw [flightURCs_cons hx, filter_flightLines_cons hx, List.append_assoc, hurcs hroom,
      ← hinv.urcs (roomForURCs_of_cons hx hroom), List.append_assoc]

/-- The line in flight arrives, or is dropped. -/
theorem sendLine {t : Thread κ} {p : ℕ} {line : Line} {ok : Bool}
    (hinv : FlightInv s past (.sending p line) k)
    (hreader : ReaderInv s' (.call t (.trySendLine p line) ok s :: past) .scanning)
    (hexec : s.exec (.trySendLine p line) ok = some s') :
    FlightInv s' (.call t (.trySendLine p line) ok s :: past) .scanning k := by
  have hfresh := hinv.fresh
  have hcall := hinv.call
  have hurcs : RoomForURCs (.call t (.trySendLine p line) ok s :: past) →
      flightURCs (.call t (.trySendLine p line) ok s :: past) ++
        (ReaderStage.hand .scanning).filter isURC =
      (flightLines (.call t (.trySendLine p line) ok s :: past)).filter isURC := by
    intro hroom
    have hsame := hinv.urcs hroom
    rw [flightURCs_cons rfl, filter_flightLines_cons rfl, ← hsame]
    simp [delivered, scanned, ReaderStage.hand]
  obtain ⟨hok, hs⟩ := Option.ite_none_left_eq_some.mp hexec
  cases ok with
  | false =>
    cases hs
    have hfalse : true = false → False := Bool.noConfusion
    refine ⟨hreader, fun p' hp' => ?_, ?_, hurcs⟩
    · obtain ⟨hrouted, hlinesCh, -, hnot⟩ := hfresh p' hp'
      exact ⟨hrouted, hlinesCh, rfl, hnot⟩
    · cases k with
      | installed p' => exact ⟨hcall.pending, hcall.queue, fun h => (hfalse h).elim⟩
      | awaiting p' said taken => exact ⟨hcall.pending, hcall.queue, fun h => (hfalse h).elim⟩
      | returned said taken => exact fun h => (hfalse h).elim
      | expired | failed why | gone why => exact disturbed_cons hcall
      | outside | opened => trivial
  | true =>
    cases hs
    have hflying : ∀ p' taken, Flying s past (.sending p line) p' taken →
        Flying { s with
          linesCh := Function.update s.linesCh p (s.linesCh p ++ [line])
          routed := Function.update s.routed p (s.routed p ++ [line]) }
          (.call t (.trySendLine p line) true s :: past) .scanning p' taken := by
      intro p' taken h
      refine ⟨h.pending, ?_, fun hover => ?_⟩
      · dsimp only
        rw [update_concat, update_concat, h.queue, List.append_assoc]
      · dsimp only
        rw [filter_flightLines_cons rfl, ← h.lines hover, update_concat]
        simp [ReaderStage.hand, ReaderStage.inFlight, scanned]
    refine ⟨hreader, fun p' hp' => ?_, ?_, hurcs⟩
    · obtain ⟨hrouted, hlinesCh, hflight, hnot⟩ := hfresh p' hp'
      dsimp only
      rw [update_concat, update_concat, hrouted, hlinesCh, hflight]
      exact ⟨rfl, rfl, rfl, hnot⟩
    · cases k with
      | installed p' => exact hflying p' [] hcall
      | awaiting p' said taken => exact hflying p' taken hcall
      | returned said taken =>
        intro hover
        rw [filter_flightLines_cons rfl]
        exact (hcall hover).trans (List.prefix_append _ _)
      | expired | failed why | gone why => exact disturbed_cons hcall
      | outside | opened => trivial

/-- What was scanned is in hand. -/
theorem scan {line : Option Line} (hinv : FlightInv s past .scanning k)
    (hreader : ReaderInv s' (.call .reader .scan line s :: past)
      (ReaderStage.next .scanning .scan line))
    (hexec : s.exec .scan line = some s') :
    FlightInv s' (.call .reader .scan line s :: past)
      (ReaderStage.next .scanning .scan line) k := by
  have hhand : (ReaderStage.next .scanning .scan line).hand =
      scanned (κ := κ) (.call .reader .scan line s) := by
    cases line with
    | none => rfl
    | some text =>
      dsimp only [ReaderStage.next, scanned]
      split_ifs with hempty hurc <;> simp [ReaderStage.hand, hempty]
  have hflight := inFlight_scan line
  have hsame := view_of_exec (f := World.channels) (by simp [Call.Leaves, World.channels]) hexec
  refine hinv.other rfl hreader hsame (fun p _ => hflight p) (fun p _ => ?_) fun _ => ?_
  · rw [hflight, hhand]
    rfl
  · rw [hhand]
    rfl

/-- A URC goes into its channel, or finds it full. -/
theorem sendURC {line : Line} {ok : Bool} (hinv : FlightInv s past r k)
    (hallow : r.Allows (.trySendURC line))
    (hreader : ReaderInv s' (.call .reader (.trySendURC line) ok s :: past)
      (r.next (.trySendURC line) ok))
    (hexec : s.exec (.trySendURC line) ok = some s') :
    FlightInv s' (.call .reader (.trySendURC line) ok s :: past) (r.next (.trySendURC line) ok)
      k := by
  have hstage := hinv.reader.stage
  have hurc : isURC line ∧ r.hand = [line] ∧ ∀ p, r.inFlight p = [] := by
    rcases hallow with rfl | rfl
    · exact ⟨hstage, rfl, fun _ => rfl⟩
    · exact ⟨hstage.1, rfl, fun _ => rfl⟩
  obtain ⟨hurc, hhand, hflight⟩ := hurc
  have hother : [line].filter isOther = [] := by simp [isOther, hurc]
  rcases trySendURC_cases hexec with ⟨rfl, hlt, rfl⟩ | ⟨rfl, hle, rfl⟩
  · -- the line has left the hand
    have hnext : r.next (.trySendURC line) true = .scanning := by
      rcases hallow with rfl | rfl <;> rfl
    rw [hnext] at hreader ⊢
    refine hinv.other rfl hreader rfl (fun _ _ => rfl) (fun p _ => ?_) fun _ => ?_
    · rw [hflight, hhand, hother]
      rfl
    · rw [hhand, List.filter_cons_of_pos hurc]
      rfl
  · rcases hallow with rfl | rfl
    · exact hinv.other rfl hreader rfl (fun _ _ => rfl)
        (fun _ _ => (List.append_nil _).symm) fun hroom => False.elim hroom
    · exact absurd hle (not_le.mpr hstage.2)

/-- A line is put on its way to the command that is pending. -/
theorem loadPending {line : Line} {found : Option ℕ} (hinv : FlightInv s past (.holding line) k)
    (hreader : ReaderInv s' (.call .reader (.loadPending line) found s :: past)
      (ReaderStage.next (.holding line) (.loadPending line) found))
    (hexec : s.exec (.loadPending line) found = some s') :
    FlightInv s' (.call .reader (.loadPending line) found s :: past)
      (ReaderStage.next (.holding line) (.loadPending line) found) k := by
  obtain ⟨hpending, hs⟩ := Option.ite_none_right_eq_some.mp hexec
  cases hs
  have hurc := not_isURC_of_isAnswer hinv.reader.stage
  have hother : (ReaderStage.hand (.holding line)).filter isOther = [line] :=
    List.filter_cons_of_pos (by rw [isOther, hurc]; rfl)
  have hnone : (ReaderStage.hand (.holding line)).filter isURC = [] := by
    simp [ReaderStage.hand, hurc]
  have hhand : (ReaderStage.next (.holding line) (.loadPending line) found).hand = [] := by
    cases found <;> rfl
  refine hinv.other rfl hreader rfl (fun p hp => ?_) (fun p hp => ?_) fun _ => ?_
  · cases found with
    | none => rfl
    | some p' =>
      have hne : p' ≠ p := by
        rintro rfl
        exact (hinv.fresh p' hp).2.2.2 hpending.symm
      exact if_neg hne
  · -- a command that is pending is the one that was found
    rw [hhand, hother, hpending, hp]
    dsimp only [ReaderStage.next, ReaderStage.inFlight]
    rw [if_pos rfl]
    rfl
  · rw [hhand, hnone]
    rfl

/-- The reader keeps the invariant. -/
theorem step_reader (hinv : FlightInv s past r k) (hallow : r.Allows c)
    (hexec : s.exec c a = some s') :
    FlightInv s' (.call .reader c a s :: past) (r.next c a) k := by
  have hreader := hinv.reader.reader hallow hexec
  cases c with
  | scan =>
    obtain rfl : r = .scanning := hallow
    exact hinv.scan hreader hexec
  | trySendURC line => exact hinv.sendURC hallow hreader hexec
  | tryRecvURC =>
    obtain ⟨line, rfl⟩ : ∃ line, r = .refused line := hallow
    obtain ⟨-, hs⟩ := Option.ite_none_right_eq_some.mp hexec
    cases hs
    exact hinv.other rfl hreader rfl (fun _ _ => rfl)
      (fun _ _ => (List.append_nil _).symm) fun _ => (List.append_nil _).symm
  | loadPending line =>
    obtain rfl : r = .holding line := hallow
    exact hinv.loadPending hreader hexec
  | trySendLine p line =>
    obtain rfl : r = .sending p line := hallow
    exact hinv.sendLine hreader hexec
  | closeClosed =>
    cases hexec
    exact hinv.other rfl hreader rfl (fun p hp => (hinv.fresh p hp).2.2.1)
      (fun _ _ => (List.append_nil _).symm) fun _ => (List.append_nil _).symm
  | _ => exact hallow.elim

/-- What neither the reader nor the channels see. -/
theorem unseen (hinv : FlightInv s past r k) (hx : isInstall x = false) (hscanned : scanned x = [])
    (hdelivered : delivered x = []) (hreader : ReaderInv s' (x :: past) r)
    (hsame : s'.channels = s.channels) : FlightInv s' (x :: past) r k := by
  refine hinv.other hx hreader hsame
    (fun p hp => (hinv.fresh p hp).2.2.1) (fun p _ => ?_) fun _ => ?_
  · rw [hscanned, List.filter_nil, List.append_nil]
  · rw [hscanned, hdelivered, List.filter_nil, List.append_nil, List.nil_append]

theorem install {t : Thread κ} {p : ℕ} (hinv : FlightInv s past r k)
    (hreader : ReaderInv s' (.call t .install p s :: past) r)
    (hexec : s.exec .install p = some s') :
    FlightInv s' (.call t .install p s :: past) r (.installed p) := by
  obtain ⟨hp, hs⟩ := Option.ite_none_right_eq_some.mp hexec
  cases hs
  obtain ⟨hrouted, hlinesCh, hflight, -⟩ := hinv.fresh p hp.ge
  have hhand : hand past = r.hand := hinv.reader.hand_eq
  refine ⟨hreader, fun p' hp' => ?_, ⟨rfl, ?_, fun _ => ?_⟩, fun _ => ?_⟩
  · have hlt : s.made < p' := hp'
    obtain ⟨hrouted', hlinesCh', hflight', -⟩ := hinv.fresh p' hlt.le
    refine ⟨hrouted', hlinesCh', hflight', fun hsome => ?_⟩
    cases hsome
    omega
  · dsimp only
    rw [hrouted, hlinesCh]
    rfl
  · dsimp only
    rw [hrouted, hflight, flightLines, hhand]
    rfl
  · rw [flightLines, hhand]
    rfl

/-- A line is taken. -/
theorem recv {t : Thread κ} {timer : Timer} {p : ℕ} {l : Line} {said : List (List UInt8)}
    {taken : List Line} (hinv : FlightInv s past r (.awaiting p said taken))
    (hreader : ReaderInv s' (.call t (.recv timer p) (.line l) s :: past) r)
    (hexec : s.exec (.recv timer p) (.line l) = some s') :
    FlightInv s' (.call t (.recv timer p) (.line l) s :: past) r
      (.awaiting p said (taken ++ [l])) := by
  obtain ⟨rest, hch, rfl⟩ := exists_linesCh_of_recv hexec
  have hcall : Flying s past r p taken := hinv.call
  have hscanned : scanned (.call t (.recv timer p) (.line l) s) = [] := rfl
  have hdelivered : delivered (.call t (.recv timer p) (.line l) s) = [] := rfl
  refine ⟨hreader, fun p' hp' => ?_, ⟨hcall.pending, ?_, fun hover => ?_⟩, fun hroom => ?_⟩
  · obtain ⟨hrouted, hlinesCh, hflight, hnot⟩ := hinv.fresh p' hp'
    have hne : p' ≠ p := by
      rintro rfl
      exact hnot hcall.pending
    dsimp only
    rw [Function.update_of_ne hne]
    exact ⟨hrouted, hlinesCh, hflight, hnot⟩
  · dsimp only
    rw [Function.update_self, hcall.queue, hch, List.append_assoc]
    rfl
  · rw [filter_flightLines_cons rfl, hscanned, List.filter_nil, List.append_nil]
    exact hcall.lines hover
  · rw [filter_flightLines_cons rfl, flightURCs_cons rfl, hscanned, hdelivered, List.filter_nil,
      List.append_nil, List.append_nil]
    exact hinv.urcs hroom

/-- What else a caller sees of its call. -/
theorem of_phase {k' : CallPhase} (hinv : FlightInv s past r k) (hcall : FlightOk s past r k') :
    FlightInv s past r k' :=
  ⟨hinv.reader, hinv.fresh, hcall, hinv.urcs⟩

/-- The call returns. -/
theorem clear {t : Thread κ} {cmd : List UInt8} (hinv : FlightInv s past r k)
    (hreader : ReaderInv s' (.call t .clear () s :: past) r)
    (hallow : (callProtocol (· = .execute cmd) False).allows k .clear)
    (hexec : s.exec .clear () = some s') :
    FlightInv s' (.call t .clear () s :: past) r (k.next .clear ()) := by
  cases hexec
  have hscanned : scanned (.call t .clear () s) = [] := rfl
  have hdelivered : delivered (.call t .clear () s) = [] := rfl
  refine ⟨hreader, fun p hp => ?_, ?_, fun hroom => ?_⟩
  · obtain ⟨hrouted, hlinesCh, hflight, -⟩ := hinv.fresh p hp
    exact ⟨hrouted, hlinesCh, hflight, nofun⟩
  · rcases hallow with ⟨why, rfl⟩ | ⟨req, timer, p, said, taken, l, e, -, rfl, -, -⟩
    · exact disturbed_cons hinv.call
    · have hcall : Flying s past r p (taken ++ [l]) := hinv.call
      intro hover
      rw [filter_flightLines_cons rfl, hscanned, List.filter_nil, List.append_nil,
        ← hcall.lines hover, hcall.queue, List.append_assoc]
      exact List.prefix_append _ _
  · rw [filter_flightLines_cons rfl, flightURCs_cons rfl, hscanned, hdelivered, List.filter_nil,
      List.append_nil, List.append_nil]
    exact hinv.urcs hroom

/-- The caller keeps the invariant. -/
theorem step_caller {t : κ} {cmd : List UInt8} (hinv : FlightInv s past r k)
    (hallow : (callProtocol (· = .execute cmd) False).allows k c) (hexec : s.exec c a = some s') :
    FlightInv s' (.call (.caller t) c a s :: past) r (k.next c a) := by
  have hreader := hinv.reader.caller (k := t) (ofCaller_of_allows hallow) hexec
  cases c with
  | install => exact hinv.install hreader hexec
  | clear => exact hinv.clear hreader hallow hexec
  | write data =>
    obtain ⟨p, rfl⟩ : ∃ p, k = .installed p := by
      rcases hallow with ⟨req, p, -, hk, -⟩ | ⟨pduHex, pduLen, p, taken, l, hr, -, -, -⟩
      · exact ⟨p, hk⟩
      · cases hr
    have hsame := hinv.unseen (x := .call (.caller t) (.write data) a s) rfl rfl rfl hreader
      (view_of_exec (by simp [Call.Leaves, World.channels]) hexec)
    cases a with
    | true => exact hsame.of_phase hsame.call
    | false => exact hsame.of_phase ⟨_, List.mem_cons_self, rfl⟩
  | recv timer p =>
    obtain ⟨req, said, taken, -, rfl, -⟩ := hallow
    cases a with
    | line l => exact hinv.recv hreader hexec
    | timer =>
      cases hexec
      exact (hinv.unseen rfl rfl rfl hreader rfl).of_phase
        ⟨_, List.mem_cons_self, rfl⟩
    | closed =>
      obtain ⟨-, hs⟩ := Option.ite_none_right_eq_some.mp hexec
      cases hs
      exact (hinv.unseen rfl rfl rfl hreader rfl).of_phase
        ⟨_, List.mem_cons_self, rfl⟩
  | pollClosed =>
    obtain ⟨-, hs⟩ := Option.ite_none_right_eq_some.mp hexec
    cases hs
    have hsame := hinv.unseen (x := .call (.caller t) .pollClosed a s) rfl rfl rfl hreader rfl
    cases a with
    | true => exact hsame.of_phase ⟨_, List.mem_cons_self, rfl⟩
    | false => exact hsame.of_phase trivial
  | close =>
    obtain rfl : k = .expired := hallow
    cases hexec
    have hsame := hinv.unseen rfl rfl rfl hreader rfl
    exact hsame.of_phase hsame.call
  | _ => exact hallow.elim

theorem step_outer {mayEmit : World → List UInt8 → Bool} {v : Outer} (hinv : FlightInv s past r k)
    (hstep : v.step mayEmit s = some s') : FlightInv s' (.env v s :: past) r k := by
  refine hinv.unseen rfl rfl rfl (hinv.reader.outer hstep) (view_of_outer ?_ hstep)
  cases v <;> simp [Outer.Leaves, World.channels]

end FlightInv

end

/-! ### Runs -/

/-- A serializer on which no command is pending; commands get new channels. -/
structure World.Ready (s : World) : Prop where
  pending : s.pending = none
  room : s.urcCh.length ≤ chanCap
  fresh : ∀ p, s.made ≤ p → s.routed p = [] ∧ s.linesCh p = []

theorem World.ready_idle (buf incoming : List UInt8) : (World.idle buf incoming).Ready :=
  ⟨rfl, Nat.zero_le _, fun _ _ => ⟨rfl, rfl⟩⟩

/-- The protocols of the reader and of one call of `Execute`. -/
def flightProtocols (cmd : List UInt8) :
    Thread Unit → Protocol Call Call.Ans (ReaderStage × CallPhase)
  | .reader => stageProtocol CallPhase
  | .caller _ => (callProtocol (· = .execute cmd) False).onSnd ReaderStage

section

variable {mayEmit : World → List UInt8 → Bool} {cmd : List UInt8}

variable (mayEmit cmd) in
/-- The proof outline. -/
def flightOutline :
    System.Outline (system Unit mayEmit).recorded (flightProtocols cmd) where
  head t l q :=
    match t with
    | .reader => l = .reader ∧ q.1 = .scanning
    | .caller _ => CallHead (· = .execute cmd) False q.2 l
  final t e q :=
    match t with
    | .reader => True
    | .caller _ => ∃ r : Request, r = .execute cmd ∧ r.Final q.2 e
  inv s q := FlightInv s.state s.history (q .reader).1 (q (.caller ())).2
  block_obeys t l q hhead := by
    cases t with
    | reader =>
      obtain ⟨rfl, hq⟩ := hhead
      refine (reader_stages hq).mono fun res q' hres => ?_
      cases res <;> exact hres
    | caller u =>
      refine (block_keeps hhead).onSnd.mono fun res q' hres => ?_
      cases res <;> exact hres
  call_inv t _ s q c a s' hinv hallow hexec := by
    obtain ⟨s₁, hcall, rfl⟩ := System.recorded_exec_iff.mp hexec
    cases t with
    | reader => exact hinv.step_reader hallow hcall
    | caller u => exact hinv.step_caller hallow hcall
  env_inv v s q s' hinv hstep := by
    obtain ⟨s₁, henv, rfl⟩ := System.recorded_env_iff.mp hstep
    exact hinv.step_outer henv
  crash_inv _ _ _ _ _ _ hcrash := by cases hcrash

theorem flightInv_reach {s₀ : World} (hready : s₀.Ready) {c : CallConfig Unit}
    (hreach : (system Unit mayEmit).recorded.Reach
      (callsStart mayEmit s₀ fun _ => .execute cmd) c) :
    (flightOutline mayEmit cmd).Holds c := by
  have hstart : FlightInv s₀ ([] : History Unit) .scanning .outside := by
    refine ⟨.start hready.room, fun p hp => ?_, trivial, fun _ => rfl⟩
    obtain ⟨hrouted, hlinesCh⟩ := hready.fresh p hp
    refine ⟨hrouted, hlinesCh, rfl, ?_⟩
    rw [hready.pending]
    exact nofun
  refine System.Outline.reach _ (System.Outline.holds_start _ (q := fun _ => (.scanning, .outside))
    (show (flightOutline mayEmit cmd).inv ⟨s₀, []⟩ _ from hstart) fun t => ?_) hreach
  cases t with
  | reader => exact ⟨rfl, rfl⟩
  | caller u => exact ⟨rfl, .inl rfl⟩

/-- A call that waits for its lines has taken those that it would return. -/
theorem awaiting_of_collect {q : ReaderStage × CallPhase} {p : ℕ} {lines : List Line}
    (h : (collect cmd p lines).Obeys ((callProtocol (· = .execute cmd) False).onSnd ReaderStage) q
      fun res q' => CallEnd (· = .execute cmd) False res q'.2) :
    ∃ said, q.2 = .awaiting p said lines ∧ NoneFinal lines := by
  obtain ⟨r, k⟩ := q
  obtain ⟨⟨_, said, taken, rfl, hk, hwaits⟩, hnext⟩ := h
  obtain rfl : k = .awaiting p said taken := hk
  -- on `OK` it would return `lines`, having taken `taken` and this line
  have hok : (leave (.executed lines none)).Obeys
      ((callProtocol (· = .execute cmd) False).onSnd ReaderStage)
      (r, .awaiting p said (taken ++ [lit "OK"]))
      fun res q' => CallEnd (· = .execute cmd) False res q'.2 :=
    hnext (.line (lit "OK"))
  obtain ⟨_, rfl, ⟨why, hgone, -⟩ | ⟨timer, said', lines', l, hreturned, -, hexits⟩⟩ := hok.2 ()
  · cases hgone
  · obtain ⟨-, htaken⟩ := CallPhase.returned.inj hreturned
    obtain ⟨rfl, -⟩ := List.append_inj' htaken rfl
    cases timer with
    | prompt => exact hexits.elim
    | timeout =>
      obtain ⟨rfl, -⟩ := Exit.executed.inj hexits.2
      exact ⟨said, rfl, hwaits.2⟩

/-- What a call does with the line that it takes. -/
theorem exists_collect_eq (cmd : List UInt8) (p : ℕ) (lines : List Line) :
    ∃ next, collect cmd p lines = .call (.recv .timeout p) next ∧
      (∀ l, isFinal l → next (.line l) = leave (.executed lines (Reply.errOf cmd l))) ∧
      ∀ l, isFinal l = false → next (.line l) = .ret (.inl (.collect cmd p (lines ++ [l]))) := by
  refine ⟨_, rfl, fun l hl => ?_, fun l hl => ?_⟩
  · by_cases hok : l = lit "OK"
    · rw [Reply.errOf, if_pos hok]
      exact if_pos hok
    · rw [isFinal, decide_eq_false hok, Bool.false_or] at hl
      rw [Reply.errOf, if_neg hok]
      exact (if_neg hok).trans (if_pos hl)
  · rw [isFinal, Bool.or_eq_false_iff] at hl
    have herr : ¬ isFinalError l = true := Bool.eq_false_iff.mp hl.2
    exact (if_neg (of_decide_eq_false hl.1)).trans (if_neg herr)

variable (mayEmit) in
/-- A call takes the line in front of its channel. -/
theorem exists_step_recv {p : ℕ} {l : Line} {rest : List Line} {c : CallConfig Unit}
    {next : Received → Io (Label ⊕ Exit)}
    (hrun : c.threads (.caller ()) = .running (.call (.recv .timeout p) next))
    (hch : c.state.state.linesCh p = l :: rest) :
    ∃ c', (system Unit mayEmit).recorded.Step c c' ∧ c'.state.state.linesCh p = rest ∧
      c'.threads (.caller ()) = .running (next (.line l)) := by
  have hexec : c.state.state.exec (.recv .timeout p) (.line l) =
      some { c.state.state with linesCh := Function.update c.state.state.linesCh p rest } := by
    unfold World.exec
    dsimp only
    rw [hch]
    exact if_pos rfl
  have hexec' : (system Unit mayEmit).exec (.caller ()) () c.state.state (.recv .timeout p)
      (.line l) = _ := hexec
  obtain ⟨c', hstep, hstate, hrun'⟩ := System.exists_step_call
    (S := (system Unit mayEmit).recorded) () hrun (System.recorded_exec_iff.mpr ⟨_, hexec', rfl⟩)
  refine ⟨c', hstep, ?_, hrun'⟩
  rw [hstate]
  exact Function.update_self _ _ _

/-- **A call that has a final result code in its channel returns**, with the lines in front of it,
when it goes on. -/
theorem exists_return {p : ℕ} {pre rest : List Line} {l : Line} (hl : isFinal l)
    (hpre : NoneFinal pre) {lines : List Line} {c : CallConfig Unit}
    (hrun : c.threads (.caller ()) = .running (collect cmd p lines))
    (hch : c.state.state.linesCh p = pre ++ l :: rest) :
    ∃ c', (system Unit mayEmit).recorded.Reach c c' ∧
      c'.threads (.caller ()) = .stopped (.executed (lines ++ pre) (Reply.errOf cmd l)) := by
  induction pre generalizing lines c with
  | nil =>
    obtain ⟨next, hcollect, hfinal, -⟩ := exists_collect_eq cmd p lines
    rw [hcollect] at hrun
    obtain ⟨c₁, htake, -, hrun₁⟩ := exists_step_recv mayEmit hrun hch
    rw [hfinal l hl] at hrun₁
    -- the deferred function, and the return
    obtain ⟨c₂, hclear, -, hrun₂⟩ := System.exists_step_call (S := (system Unit mayEmit).recorded)
      () (a := ()) hrun₁ (System.recorded_exec_iff.mpr ⟨_, rfl, rfl⟩)
    obtain ⟨c₃, hreturn, -, hstop⟩ :=
      System.exists_step_stop (S := (system Unit mayEmit).recorded) hrun₂
    rw [List.append_nil]
    exact ⟨c₃, .head htake (.head hclear (.single hreturn)), hstop⟩
  | cons x pre ih =>
    obtain ⟨next, hcollect, -, hother⟩ := exists_collect_eq cmd p lines
    rw [hcollect] at hrun
    obtain ⟨c₁, htake, hch₁, hrun₁⟩ := exists_step_recv mayEmit hrun hch
    rw [hother x (hpre x List.mem_cons_self)] at hrun₁
    obtain ⟨c₂, hjump, hstate₂, hrun₂⟩ :=
      System.exists_step_jump (S := (system Unit mayEmit).recorded) hrun₁
    rw [← hstate₂] at hch₁
    obtain ⟨c', hreach, hstop⟩ := ih (fun y hy => hpre y (List.mem_cons_of_mem x hy)) hrun₂ hch₁
    rw [List.append_assoc] at hstop
    exact ⟨c', .head htake (.head hjump hreach), hstop⟩

/-- Lines that hold no final result code stand in front of the first one. -/
theorem exists_eq_append_of_noneFinal {taken rest pre rest' : List Line} {l : Line}
    (h : taken ++ rest = pre ++ l :: rest') (htaken : NoneFinal taken) (hl : isFinal l) :
    ∃ more, pre = taken ++ more ∧ rest = more ++ l :: rest' := by
  rcases List.append_eq_append_iff.mp h with ⟨more, hpre, hrest⟩ | ⟨more, rfl, hmore⟩
  · exact ⟨more, hpre, hrest⟩
  · cases more with
    | nil => exact ⟨[], by rw [List.append_nil, List.append_nil], hmore.symm⟩
    | cons x more =>
      obtain ⟨rfl, -⟩ := List.cons.inj hmore
      have hx := htaken l (List.mem_append_right pre List.mem_cons_self)
      rw [hl] at hx
      cases hx

/-- What the reader sends to a command is no URC, and what it sends to `URCCH` is one. -/
theorem isURC_of_mem {s₀ : World} (hready : s₀.Ready) {c : CallConfig Unit}
    (hreach : (system Unit mayEmit).recorded.Reach
      (callsStart mayEmit s₀ fun _ => .execute cmd) c) {t : Thread Unit} {line : Line} {s : World} :
    (∀ p ok, .call t (.trySendLine p line) ok s ∈ c.state.history → isURC line = false) ∧
      ∀ ok, .call t (.trySendURC line) ok s ∈ c.state.history → isURC line = true := by
  -- the stage of the reader where it has made a call
  have hstage : ∀ {e : Call} {a : e.Ans}, e.ofCaller = false → .call t e a s ∈ c.state.history →
      ∃ (r : ReaderStage) (w : World) (past : History Unit), r.Allows e ∧ r.Ok w past := by
    intro e a he hmem
    obtain ⟨later, past, hhistory⟩ := List.append_of_mem hmem
    obtain ⟨c', hreach', -, next, ch, s', hrun, -⟩ :=
      System.exists_reach_of_history hreach rfl hhistory
    obtain ⟨q, hinv, hfollows⟩ := flightInv_reach hready hreach'
    have ht := hfollows t
    rw [hrun] at ht
    cases t with
    | reader => exact ⟨_, _, _, ht.1, hinv.reader.stage⟩
    | caller u =>
      rw [ofCaller_of_allows ht.1] at he
      cases he
  refine ⟨fun p ok hmem => ?_, fun ok hmem => ?_⟩
  · obtain ⟨r, w, past, rfl, hok⟩ := hstage rfl hmem
    exact not_isURC_of_isAnswer hok
  · obtain ⟨r, w, past, hallow, hok⟩ := hstage rfl hmem
    rcases hallow with rfl | rfl
    · exact hok
    · exact hok.1

/-- **Each line goes to one place, in order.**  One call of `Execute` is in flight on a serializer
whose modem sends any bytes at any time, and neither channel was found full since the command became
pending.  `URCCH` has received the URCs among the lines that have come since, but for one that the
reader is about to put there.  A call that has returned, and that no closed port, no failed write
and no timeout has disturbed, has returned the lines that are no URCs up to the first final result
code, with the result of that code.  One that still waits when the reader has dealt with such a code
goes on to return just this.  No line is sent both ways. -/
theorem execute_demultiplexes (mayEmit : World → List UInt8 → Bool) {s₀ : World}
    (hready : s₀.Ready) (cmd : List UInt8) {c : CallConfig Unit}
    (hreach : (system Unit mayEmit).recorded.Reach
      (callsStart mayEmit s₀ fun _ => .execute cmd) c)
    (hover : c.state.state.overflow = false) (hroom : RoomForURCs c.state.history) :
    flightURCs c.state.history ++ (hand c.state.history).filter isURC =
        (flightLines c.state.history).filter isURC ∧
      (∀ e, c.threads (.caller ()) = .stopped e → (∀ x ∈ c.state.history, disturbs x = false) →
        ∃ lines l rest, (flightLines c.state.history).filter isOther = lines ++ l :: rest ∧
          NoneFinal lines ∧ isFinal l ∧ e = .executed lines (Reply.errOf cmd l)) ∧
      (∀ next, c.threads .reader = .running (.call .scan next) → hand c.state.history = [] ∧
        ∀ p lines before l rest, c.threads (.caller ()) = .running (collect cmd p lines) →
          (flightLines c.state.history).filter isOther = before ++ l :: rest →
          NoneFinal before → isFinal l →
            ∃ c', (system Unit mayEmit).recorded.Reach c c' ∧
              c'.threads (.caller ()) = .stopped (.executed before (Reply.errOf cmd l))) ∧
      ∀ t line s,
        (∀ p ok, .call t (.trySendLine p line) ok s ∈ c.state.history → isURC line = false) ∧
          ∀ ok, .call t (.trySendURC line) ok s ∈ c.state.history → isURC line = true := by
  obtain ⟨q, hinv, hfollows⟩ := flightInv_reach hready hreach
  have hinv : FlightInv c.state.state c.state.history (q .reader).1 (q (.caller ())).2 := hinv
  have hhand := hinv.reader.hand_eq
  have hcaller := hfollows (.caller ())
  refine ⟨?_, fun e hstop hcalm => ?_, fun next hscan => ?_, fun t line s => ?_⟩
  · rw [hhand]
    exact hinv.urcs hroom
  · rw [hstop] at hcaller
    have hcall := hinv.call
    obtain ⟨_, rfl, ⟨why, hgone, -⟩ | ⟨timer, said, lines, l, hreturned, hwaits, hexits⟩⟩ := hcaller
    · rw [hgone] at hcall
      obtain ⟨x, hx, hdisturbs⟩ := hcall
      rw [hcalm x hx] at hdisturbs
      cases hdisturbs
    · rw [hreturned] at hcall
      obtain ⟨rest, hrest⟩ := hcall hover
      cases timer with
      | prompt => exact hexits.elim
      | timeout =>
        refine ⟨lines, l, rest, ?_, hwaits.2, hexits.1, hexits.2⟩
        rw [← hrest, List.append_assoc]
        rfl
  · have hreader := hfollows .reader
    rw [hscan] at hreader
    have hstage : (q .reader).1 = .scanning := hreader.1
    refine ⟨?_, fun p lines before l rest hrun hlines hbefore hl => ?_⟩
    · rw [hhand, hstage]
      rfl
    · rw [hrun] at hcaller
      obtain ⟨said, hphase, htaken⟩ := awaiting_of_collect
        (hcaller.mono fun res q' hres => by cases res <;> exact hres)
      have hcall := hinv.call
      rw [hphase, hstage] at hcall
      -- everything that is no URC was routed, and what was not taken waits in the channel
      have hrouted : lines ++ c.state.state.linesCh p = before ++ l :: rest := by
        rw [← hcall.queue, ← hlines, ← hcall.lines hover]
        exact (List.append_nil _).symm
      obtain ⟨more, rfl, hch⟩ := exists_eq_append_of_noneFinal hrouted htaken hl
      exact exists_return hl (fun x hx => hbefore x (List.mem_append_right lines hx)) hrun hch
  · exact isURC_of_mem hready hreach

end

/-- A URC between a line and `OK`. -/
theorem execute_demultiplexes_ring :
    ∃ c c' : CallConfig Unit, (system Unit fun _ _ => true).recorded.Reach
        (callsStart (fun _ _ => true) (World.idle [] []) fun _ => .execute (lit "AT+CSQ")) c ∧
      flightURCs c.state.history = [lit "+RING"] ∧
      (system Unit fun _ _ => true).recorded.Reach c c' ∧
      c'.threads (.caller ()) = .stopped (.executed [lit "+CSQ: 20,0"] none) := by
  have hplay : ∃ c next, (system Unit fun _ _ => true).recorded.play
      (callsStart (fun _ _ => true) (World.idle [] []) fun _ => .execute (lit "AT+CSQ"))
      (beginMoves 0 () ++ emitMoves (lit "+CSQ: 20,0\r\n+RING\r\nOK\r\n") ++
        routeMoves 0 (lit "+CSQ: 20,0") ++
        callMoves 2 .reader (runAnswer 0 (some (lit "+RING")) .timer) ++
        routeMoves 0 (lit "OK")) = some c ∧
      c.threads .reader = .running (.call .scan next) ∧
      c.threads (.caller ()) = .running (collect (lit "AT+CSQ") 0 []) ∧
      c.state.state.overflow = false ∧ RoomForURCs c.state.history ∧
      flightLines c.state.history = [lit "+CSQ: 20,0", lit "+RING", lit "OK"] :=
    ⟨_, _, rfl, rfl, rfl, rfl, trivial, rfl⟩
  obtain ⟨c, next, hplay, hscan, hrun, hover, hroom, hlines⟩ := hplay
  have hreach := System.reach_of_play hplay
  obtain ⟨hurcs, -, hgoes, -⟩ :=
    execute_demultiplexes _ (World.ready_idle [] []) (lit "AT+CSQ") hreach hover hroom
  obtain ⟨hhand, hreturn⟩ := hgoes next hscan
  rw [hlines] at hurcs hreturn
  rw [hhand, List.filter_nil, List.append_nil] at hurcs
  obtain ⟨c', hreach', hstop⟩ := hreturn 0 [] [lit "+CSQ: 20,0"] (lit "OK") [] hrun (by decide)
    (by simpa [NoneFinal] using (by decide : isFinal (lit "+CSQ: 20,0") = false)) (by decide)
  exact ⟨c, c', hreach, hurcs, hreach', hstop⟩

end SmsGate.At.Serializer
