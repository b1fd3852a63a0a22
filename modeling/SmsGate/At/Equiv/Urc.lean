import SmsGate.At.Equiv.Calls
import SmsGate.Prog.DropOldest

/-!
# URCs and the channel that holds them

The reader takes one line at a time and deals with it before it scans the next one.  A URC goes to
`URCCH`; when the channel is full, the reader takes the oldest URC out and tries once more.  The
worker receives at any time, also between two of these operations.

* `ReaderInv`: the line in hand is the last one scanned, everything before it was dealt with, and
  the second attempt finds room.  Every step keeps it (`ReaderInv.reader`, `ReaderInv.caller`,
  `ReaderInv.outer`);
* `urcs_drop_oldest`: only the oldest URC is ever dropped, and only for a new one.
-/

namespace SmsGate.At.Serializer

open Go Go.Strings

/-- One entry of a history. -/
abbrev Event (κ : Type) := System.Occurrence (Thread κ) World Call Call.Ans Outer

section

variable {K : Type}

/-- A block of a goroutine that executes commands. -/
def Label.OfCaller (l : Label) : Prop := ∃ k, CallHead (fun _ => True) True k l

theorem Request.ofCaller_label (r : Request) : r.label.OfCaller :=
  ⟨.outside, callHead_label trivial (.inl rfl)⟩

/-- Those who execute commands do nothing that the reader does. -/
theorem block_ofCaller {l : Label} {k : K} (hl : l.OfCaller) :
    (block l).Obeys (.only fun c => c.ofCaller) k fun res _ =>
      res.elim (fun l' => l'.OfCaller) fun _ => True := by
  obtain ⟨k, hhead⟩ := hl
  refine ((block_keeps hhead).only fun _ _ => ofCaller_of_allows).mono ?_
  rintro (l' | e) _ ⟨k', hend⟩
  · exact ⟨k', hend⟩
  · trivial

end

/-! ### Where the lines are -/

section

variable {κ : Type}

/-- A line that is not empty was scanned. -/
def scanned : Event κ → List Line
  | .call _ .scan (some text : Option (List UInt8)) _ =>
    [trimRight text 0x0D].filter fun line => line ≠ []
  | _ => []

/-- The reader has got rid of a line: it is in `URCCH`, or `pending` was read for it. -/
def dealt : Event κ → List Line
  | .call _ (.trySendURC line) (true : Bool) _ => [line]
  | .call _ (.loadPending line) _ _ => [line]
  | _ => []

/-- The worker has received a URC. -/
def consumed : Event κ → List Line
  | .env .takeURC s => s.urcCh.take 1
  | _ => []

/-- The reader has taken a URC out of `URCCH`. -/
def discarded : Event κ → List Line
  | .call _ .tryRecvURC (some line : Option Line) _ => [line]
  | _ => []

theorem eq_call_of_mem_discarded {x : Event κ} {line : Line} (hline : line ∈ discarded x) :
    ∃ t s, x = .call t .tryRecvURC (some line) s := by
  unfold discarded at hline
  split at hline
  · cases List.mem_singleton.mp hline
    exact ⟨_, _, rfl⟩
  · cases hline

/-- The lines that the reader has scanned and not dealt with. -/
def hand (past : History κ) : List Line :=
  (System.collected scanned past).drop (System.collected dealt past).length

/-- The URCs that have arrived. -/
def arrivals (past : History κ) : List Line := (System.collected scanned past).filter isURC

/-- The last thing that the reader did was to find `URCCH` full. -/
def FoundFull : History κ → Prop
  | [] => False
  | .call .reader (.trySendURC _) (ok : Bool) s :: _ => ok = false ∧ s.urcCh.length = chanCap
  | .call .reader _ _ _ :: _ => False
  | _ :: past => FoundFull past

/-- The line that the reader has in hand. -/
def ReaderStage.hand : ReaderStage → List Line
  | arrived line | refused line | retrying line | holding line => [line]
  | _ => []

/-- What holds when the reader is so far. -/
def ReaderStage.Ok (s : World) (past : History κ) : ReaderStage → Prop
  | arrived line => isURC line
  | refused line => isURC line ∧ FoundFull past
  | retrying line => isURC line ∧ s.urcCh.length < chanCap
  | holding line | sending _ line => isAnswer line
  | scanning | ended => True

/-- The invariant. -/
structure ReaderInv (s : World) (past : History κ) (r : ReaderStage) : Prop where
  lines : System.collected scanned past = System.collected dealt past ++ r.hand
  stage : r.Ok s past
  room : s.urcCh.length ≤ chanCap

variable {s s' : World} {past : History κ} {r : ReaderStage} {t : Thread κ} {k : κ} {c : Call}
  {a : c.Ans}

theorem scanned_caller (hc : c.ofCaller) : scanned (.call t c a s) = [] := by
  cases c <;> first | rfl | cases hc

theorem dealt_caller (hc : c.ofCaller) : dealt (.call t c a s) = [] := by
  cases c <;> first | rfl | cases hc

theorem discarded_caller (hc : c.ofCaller) : discarded (.call t c a s) = [] := by
  cases c <;> first | rfl | cases hc

theorem urcCh_caller (hc : c.ofCaller) (hexec : s.exec c a = some s') : s'.urcCh = s.urcCh := by
  refine view_of_exec (f := World.urcCh) ?_ hexec
  cases c with
  | trySendURC | tryRecvURC => cases hc
  | _ => simp [Call.Leaves]

theorem foundFull_caller : FoundFull (.call (.caller k) c a s :: past) ↔ FoundFull past := by
  cases c <;> exact Iff.rfl

/-- Beside the goroutines, only the worker changes `URCCH`. -/
theorem urcCh_outer {mayEmit : World → List UInt8 → Bool} {v : Outer}
    (hstep : v.step mayEmit s = some s') :
    s'.urcCh = s.urcCh.drop (consumed (κ := κ) (.env v s)).length := by
  cases v with
  | takeURC =>
    cases hstep
    cases hch : s.urcCh with
    | nil => simp [consumed, hch]
    | cons l rest => simp [consumed, hch]
  | _ => exact view_of_outer (f := World.urcCh) (by simp [Outer.Leaves]) hstep

theorem trySendURC_cases {line : Line} {ok : Bool}
    (hexec : s.exec (.trySendURC line) ok = some s') :
    (ok = true ∧ s.urcCh.length < chanCap ∧ s' = { s with urcCh := s.urcCh ++ [line] }) ∨
      (ok = false ∧ chanCap ≤ s.urcCh.length ∧ s' = s) := by
  obtain ⟨hok, hs⟩ := Option.ite_none_left_eq_some.mp hexec
  have hok : ok = decide (s.urcCh.length < chanCap) := not_not.mp hok
  cases ok with
  | true =>
    cases hs
    exact .inl ⟨rfl, of_decide_eq_true hok.symm, rfl⟩
  | false =>
    cases hs
    exact .inr ⟨rfl, not_lt.mp (of_decide_eq_false hok.symm), rfl⟩

namespace ReaderInv

theorem start (hroom : s.urcCh.length ≤ chanCap) : ReaderInv s ([] : History κ) .scanning :=
  ⟨rfl, trivial, hroom⟩

theorem hand_eq (hinv : ReaderInv s past r) : Serializer.hand past = r.hand := by
  rw [Serializer.hand, hinv.lines, List.drop_left]

/-- What neither scans a line nor deals with one. -/
theorem other {r' : ReaderStage} {x : Event κ} (hinv : ReaderInv s past r)
    (hscanned : scanned x = []) (hdealt : dealt x = []) (hhand : r'.hand = r.hand)
    (hstage : r'.Ok s' (x :: past)) (hroom : s'.urcCh.length ≤ chanCap) :
    ReaderInv s' (x :: past) r' := by
  refine ⟨?_, hstage, hroom⟩
  rw [System.collected, System.collected, hscanned, hdealt, hhand, List.append_nil,
    List.append_nil]
  exact hinv.lines

/-- The line in hand is dealt with. -/
theorem deal {r' : ReaderStage} {x : Event κ} {line : Line} (hinv : ReaderInv s past r)
    (hscanned : scanned x = []) (hdealt : dealt x = [line]) (hhand : r.hand = [line])
    (hhand' : r'.hand = []) (hstage : r'.Ok s' (x :: past)) (hroom : s'.urcCh.length ≤ chanCap) :
    ReaderInv s' (x :: past) r' := by
  refine ⟨?_, hstage, hroom⟩
  rw [System.collected, System.collected, hscanned, hdealt, hhand', List.append_nil,
    List.append_nil, hinv.lines, hhand]

/-- A line is scanned. -/
theorem scan {token : Option (List UInt8)} (hinv : ReaderInv s past .scanning)
    (hexec : s.exec .scan token = some s') :
    ReaderInv s' (.call t .scan token s :: past) (ReaderStage.next .scanning .scan token) := by
  obtain ⟨p, -, hs⟩ := Option.bind_eq_some_iff.mp hexec
  obtain ⟨-, hs⟩ := Option.ite_none_right_eq_some.mp hs
  cases hs
  cases token with
  | none => exact hinv.other rfl rfl rfl trivial hinv.room
  | some text =>
    have hdealt : dealt (.call t .scan (some text) s) = [] := rfl
    refine ⟨?_, ?_, hinv.room⟩
    · rw [System.collected, System.collected, hinv.lines, hdealt, scanned]
      dsimp only [ReaderStage.next]
      split_ifs with hempty hurc <;> simp [ReaderStage.hand, hempty]
    · dsimp only [ReaderStage.next]
      split_ifs with hempty hurc
      · trivial
      · exact hurc
      · simp [ReaderStage.Ok, isAnswer, hempty, hurc]

/-- A URC is put into `URCCH`, or not: then the channel is full, and this was the first attempt. -/
theorem sendURC {line : Line} {ok : Bool} (hinv : ReaderInv s past r)
    (hallow : r.Allows (.trySendURC line)) (hexec : s.exec (.trySendURC line) ok = some s') :
    ReaderInv s' (.call .reader (.trySendURC line) ok s :: past)
      (r.next (.trySendURC line) ok) := by
  rcases trySendURC_cases hexec with ⟨rfl, hlt, rfl⟩ | ⟨rfl, hle, rfl⟩
  · have hroom : (s.urcCh ++ [line]).length ≤ chanCap := by
      rw [List.length_append, List.length_singleton]
      exact hlt
    rcases hallow with rfl | rfl
    · exact hinv.deal rfl rfl rfl rfl trivial hroom
    · exact hinv.deal rfl rfl rfl rfl trivial hroom
  · have hstage := hinv.stage
    rcases hallow with rfl | rfl
    · exact hinv.other rfl rfl rfl ⟨hstage, rfl, le_antisymm hinv.room hle⟩ hinv.room
    · exact absurd hle (not_le.mpr hstage.2)

/-- The reader keeps the invariant. -/
theorem reader (hinv : ReaderInv s past r) (hallow : r.Allows c) (hexec : s.exec c a = some s') :
    ReaderInv s' (.call .reader c a s :: past) (r.next c a) := by
  have hstage := hinv.stage
  cases c with
  | scan =>
    obtain rfl : r = .scanning := hallow
    exact hinv.scan hexec
  | trySendURC line => exact hinv.sendURC hallow hexec
  | tryRecvURC =>
    obtain ⟨line, rfl⟩ : ∃ line, r = .refused line := hallow
    obtain ⟨-, hs⟩ := Option.ite_none_right_eq_some.mp hexec
    cases hs
    have hlength : s.urcCh.tail.length < chanCap := by
      have hroom := hinv.room
      rw [List.length_tail]
      unfold chanCap at hroom ⊢
      omega
    exact hinv.other rfl rfl rfl ⟨hstage.1, hlength⟩ hlength.le
  | loadPending line =>
    obtain rfl : r = .holding line := hallow
    obtain ⟨-, hs⟩ := Option.ite_none_right_eq_some.mp hexec
    cases hs
    cases a with
    | none => exact hinv.deal rfl rfl rfl rfl trivial hinv.room
    | some p => exact hinv.deal rfl rfl rfl rfl hstage hinv.room
  | trySendLine p line =>
    obtain rfl : r = .sending p line := hallow
    obtain ⟨-, hs⟩ := Option.ite_none_left_eq_some.mp hexec
    split_ifs at hs <;> cases hs <;> exact hinv.other rfl rfl rfl trivial hinv.room
  | closeClosed =>
    obtain rfl : r = .ended := hallow
    cases hexec
    exact hinv.other rfl rfl rfl trivial hinv.room
  | _ => exact hallow.elim

/-- What holds of the reader's line does not change when `URCCH` gets no longer. -/
theorem stage_mono {x : Event κ} (hinv : ReaderInv s past r)
    (hfull : FoundFull past → FoundFull (x :: past)) (hle : s'.urcCh.length ≤ s.urcCh.length) :
    r.Ok s' (x :: past) := by
  have hstage := hinv.stage
  cases r with
  | refused line => exact ⟨hstage.1, hfull hstage.2⟩
  | retrying line => exact ⟨hstage.1, hle.trans_lt hstage.2⟩
  | _ => exact hstage

/-- So do those who execute commands. -/
theorem caller (hinv : ReaderInv s past r) (hc : c.ofCaller) (hexec : s.exec c a = some s') :
    ReaderInv s' (.call (.caller k) c a s :: past) r := by
  have hch := urcCh_caller hc hexec
  refine hinv.other (scanned_caller hc) (dealt_caller hc) rfl
    (hinv.stage_mono foundFull_caller.mpr ?_) ?_
  · rw [hch]
  · rw [hch]
    exact hinv.room

theorem outer {mayEmit : World → List UInt8 → Bool} {v : Outer} (hinv : ReaderInv s past r)
    (hstep : v.step mayEmit s = some s') : ReaderInv s' (.env v s :: past) r := by
  have hle : s'.urcCh.length ≤ s.urcCh.length := by
    rw [urcCh_outer (κ := κ) hstep, List.length_drop]
    exact Nat.sub_le _ _
  exact hinv.other rfl rfl rfl (hinv.stage_mono id hle) (hle.trans hinv.room)

end ReaderInv

/-! ### What becomes of the URCs -/

/-- The account of `URCCH`. -/
def UrcAccount (s : World) (past : History κ) (r : ReaderStage) : Prop :=
  DropOldest.Account (arrivals past) (System.collected discarded past)
    (System.collected consumed past) s.urcCh (r.hand.filter isURC)

theorem not_isURC_of_isAnswer {line : Line} (h : isAnswer line) : isURC line = false := by
  rw [isAnswer, Bool.and_eq_true, Bool.not_eq_true'] at h
  exact h.2

namespace UrcAccount

theorem idle (buf incoming : List UInt8) :
    UrcAccount (World.idle buf incoming) ([] : History κ) .scanning :=
  DropOldest.Account.empty

/-- The account after one more event. -/
theorem of_cons {x : Event κ}
    (h : DropOldest.Account (arrivals past ++ (scanned x).filter isURC)
      (System.collected discarded past ++ discarded x)
      (System.collected consumed past ++ consumed x) s.urcCh (r.hand.filter isURC)) :
    UrcAccount s (x :: past) r := by
  rw [UrcAccount, arrivals, System.collected, List.filter_append]
  exact h

/-- What does nothing to URCs. -/
theorem other {r' : ReaderStage} {x : Event κ} (hacc : UrcAccount s past r)
    (hscanned : (scanned x).filter isURC = []) (hdiscarded : discarded x = [])
    (hconsumed : consumed x = []) (hch : s'.urcCh = s.urcCh)
    (hhand : r'.hand.filter isURC = r.hand.filter isURC) : UrcAccount s' (x :: past) r' := by
  apply of_cons
  rw [hscanned, hdiscarded, hconsumed, hch, hhand, List.append_nil, List.append_nil,
    List.append_nil]
  exact hacc

theorem scan {token : Option (List UInt8)} (hacc : UrcAccount s past .scanning)
    (hexec : s.exec .scan token = some s') :
    UrcAccount s' (.call t .scan token s :: past) (ReaderStage.next .scanning .scan token) := by
  obtain ⟨p, -, hs⟩ := Option.bind_eq_some_iff.mp hexec
  obtain ⟨-, hs⟩ := Option.ite_none_right_eq_some.mp hs
  cases hs
  cases token with
  | none => exact hacc.other rfl rfl rfl rfl rfl
  | some text =>
    dsimp only [ReaderStage.next]
    split_ifs with hempty hurc
    · exact hacc.other (by simp [scanned, hempty]) rfl rfl rfl rfl
    · have hscanned : scanned (.call t .scan (some text) s) = [trimRight text 0x0D] := by
        simp [scanned, hempty]
      have hdiscarded : discarded (.call t .scan (some text) s) = [] := rfl
      have hconsumed : consumed (.call t .scan (some text) s) = [] := rfl
      apply of_cons
      rw [hscanned, hdiscarded, hconsumed, List.append_nil, List.append_nil, ReaderStage.hand,
        List.filter_cons_of_pos hurc]
      exact hacc.arrive
    · refine hacc.other ?_ rfl rfl rfl ?_
      · simp [scanned, hempty, hurc]
      · simp [ReaderStage.hand, hurc]

theorem sendURC {line : Line} {ok : Bool} (hinv : ReaderInv s past r) (hacc : UrcAccount s past r)
    (hallow : r.Allows (.trySendURC line)) (hexec : s.exec (.trySendURC line) ok = some s') :
    UrcAccount s' (.call t (.trySendURC line) ok s :: past) (r.next (.trySendURC line) ok) := by
  have hstage := hinv.stage
  rcases trySendURC_cases hexec with ⟨rfl, hlt, rfl⟩ | ⟨rfl, hle, rfl⟩
  · -- the line leaves the hand, at either attempt
    have hhand : r.hand.filter isURC = [line] ∧
        (r.next (.trySendURC line) true).hand.filter isURC = [] := by
      rcases hallow with rfl | rfl
      · exact ⟨List.filter_cons_of_pos hstage, rfl⟩
      · exact ⟨List.filter_cons_of_pos hstage.1, rfl⟩
    unfold UrcAccount at hacc
    rw [hhand.1] at hacc
    have hscanned : scanned (.call t (.trySendURC line) true s) = [] := rfl
    have hdiscarded : discarded (.call t (.trySendURC line) true s) = [] := rfl
    have hconsumed : consumed (.call t (.trySendURC line) true s) = [] := rfl
    apply of_cons
    rw [hscanned, hdiscarded, hconsumed, hhand.2, List.filter_nil, List.append_nil,
      List.append_nil, List.append_nil]
    exact hacc.push
  · rcases hallow with rfl | rfl
    · exact hacc.other rfl rfl rfl rfl rfl
    · exact absurd hle (not_le.mpr hstage.2)

/-- The oldest URC is taken out, unless the worker has taken them all. -/
theorem recvURC {line : Line} {oldest : Option Line} (hurc : isURC line)
    (hacc : UrcAccount s past (.refused line)) (hexec : s.exec .tryRecvURC oldest = some s') :
    UrcAccount s' (.call t .tryRecvURC oldest s :: past) (.retrying line) := by
  obtain ⟨rfl, hs⟩ := Option.ite_none_right_eq_some.mp hexec
  cases hs
  cases hch : s.urcCh with
  | nil =>
    refine hacc.other rfl rfl rfl ?_ rfl
    dsimp only
    rw [hch]
    rfl
  | cons l rest =>
    have hhand : (ReaderStage.hand (.refused line)).filter isURC = [line] :=
      List.filter_cons_of_pos hurc
    have hhand' : (ReaderStage.hand (.retrying line)).filter isURC = [line] := hhand
    have hscanned : scanned (.call t .tryRecvURC (some l) s) = [] := rfl
    have hdiscarded : discarded (.call t .tryRecvURC (some l) s) = [l] := rfl
    have hconsumed : consumed (.call t .tryRecvURC (some l) s) = [] := rfl
    unfold UrcAccount at hacc
    rw [hch, hhand] at hacc
    rw [List.head?_cons]
    apply of_cons
    rw [hscanned, hdiscarded, hconsumed, hhand', List.filter_nil, List.append_nil, List.append_nil]
    exact hacc.drop

theorem reader (hinv : ReaderInv s past r) (hacc : UrcAccount s past r) (hallow : r.Allows c)
    (hexec : s.exec c a = some s') : UrcAccount s' (.call t c a s :: past) (r.next c a) := by
  have hstage := hinv.stage
  cases c with
  | scan =>
    obtain rfl : r = .scanning := hallow
    exact hacc.scan hexec
  | trySendURC line => exact hacc.sendURC hinv hallow hexec
  | tryRecvURC =>
    obtain ⟨line, rfl⟩ : ∃ line, r = .refused line := hallow
    exact hacc.recvURC hstage.1 hexec
  | loadPending line =>
    obtain rfl : r = .holding line := hallow
    obtain ⟨-, hs⟩ := Option.ite_none_right_eq_some.mp hexec
    cases hs
    have hhand : (ReaderStage.hand (.holding line)).filter isURC = [] := by
      simp [ReaderStage.hand, not_isURC_of_isAnswer hstage]
    refine hacc.other rfl rfl rfl rfl ?_
    rw [hhand]
    cases a <;> rfl
  | trySendLine p line =>
    obtain rfl : r = .sending p line := hallow
    obtain ⟨-, hs⟩ := Option.ite_none_left_eq_some.mp hexec
    split_ifs at hs <;> cases hs <;> exact hacc.other rfl rfl rfl rfl rfl
  | closeClosed =>
    cases hexec
    exact hacc.other rfl rfl rfl rfl rfl
  | _ => exact hallow.elim

theorem caller (hacc : UrcAccount s past r) (hc : c.ofCaller) (hexec : s.exec c a = some s') :
    UrcAccount s' (.call t c a s :: past) r := by
  refine hacc.other ?_ (discarded_caller hc) rfl (urcCh_caller hc hexec) rfl
  rw [scanned_caller hc, List.filter_nil]

theorem outer {mayEmit : World → List UInt8 → Bool} {v : Outer} (hacc : UrcAccount s past r)
    (hstep : v.step mayEmit s = some s') : UrcAccount s' (.env v s :: past) r := by
  have hch := urcCh_outer (κ := κ) hstep
  cases hconsumed : consumed (κ := κ) (.env v s) with
  | nil =>
    rw [hconsumed] at hch
    exact hacc.other rfl rfl hconsumed hch rfl
  | cons l rest =>
    -- the worker has taken the front of the channel
    obtain ⟨rest', hurcCh, rfl⟩ : ∃ rest', s.urcCh = l :: rest' ∧ rest = [] := by
      cases v with
      | takeURC =>
        cases hs : s.urcCh with
        | nil => simp [consumed, hs] at hconsumed
        | cons l' rest' =>
          simp only [consumed, hs, List.take_succ_cons, List.take_zero, List.cons.injEq]
            at hconsumed
          exact ⟨rest', by rw [hconsumed.1], hconsumed.2.symm⟩
      | _ => cases hconsumed
    rw [hconsumed, hurcCh] at hch
    unfold UrcAccount at hacc
    rw [hurcCh] at hacc
    have hscanned : scanned (κ := κ) (.env v s) = [] := rfl
    have hdiscarded : discarded (κ := κ) (.env v s) = [] := rfl
    apply of_cons
    rw [hscanned, hdiscarded, hconsumed, hch, List.filter_nil, List.append_nil, List.append_nil]
    exact hacc.take

end UrcAccount

end

/-! ### The main result -/

section

variable {κ : Type}

/-- Before the goroutines make their calls. -/
def callsStart (mayEmit : World → List UInt8 → Bool) (s : World) (request : κ → Request) :
    CallConfig κ :=
  (system κ mayEmit).recorded.start ⟨s, []⟩ (entry fun k => (request k).label)

/-- The protocols: the reader deals with its lines, and the others leave `URCCH` alone. -/
def urcProtocols : Thread κ → Protocol Call Call.Ans (ReaderStage × Unit)
  | .reader => stageProtocol Unit
  | .caller _ => .only fun c => c.ofCaller

variable [DecidableEq κ] {mayEmit : World → List UInt8 → Bool}

/-- The proof outline. -/
def urcOutline (mayEmit : World → List UInt8 → Bool) :
    System.Outline (system κ mayEmit).recorded urcProtocols where
  head t l q :=
    match t with
    | .reader => l = .reader ∧ q.1 = .scanning
    | .caller _ => l.OfCaller
  final _ _ _ := True
  inv s q :=
    ReaderInv s.state s.history (q .reader).1 ∧ UrcAccount s.state s.history (q .reader).1
  block_obeys t l q hhead := by
    cases t with
    | reader =>
      obtain ⟨rfl, hq⟩ := hhead
      refine (reader_stages hq).mono fun res q' hres => ?_
      cases res <;> exact hres
    | caller k =>
      refine (block_ofCaller hhead).mono fun res q' hres => ?_
      cases res <;> exact hres
  call_inv t ch s q c a s' hinv hallow hexec := by
    obtain ⟨s₁, hcall, rfl⟩ := System.recorded_exec_iff.mp hexec
    obtain ⟨hreader, hacc⟩ := hinv
    cases t with
    | reader => exact ⟨hreader.reader hallow hcall, hacc.reader hreader hallow hcall⟩
    | caller k => exact ⟨hreader.caller hallow hcall, hacc.caller hallow hcall⟩
  env_inv v s q s' hinv hstep := by
    obtain ⟨s₁, henv, rfl⟩ := System.recorded_env_iff.mp hstep
    exact ⟨hinv.1.outer henv, hinv.2.outer henv⟩
  crash_inv _ _ _ _ _ _ hcrash := by cases hcrash

/-- The goroutines start as the outline asks. -/
theorem urcHead_entry (mayEmit : World → List UInt8 → Bool) (request : κ → Request)
    (t : Thread κ) :
    (urcOutline mayEmit).head t (entry (fun k => (request k).label) t) (.scanning, ()) := by
  cases t with
  | reader => exact ⟨rfl, rfl⟩
  | caller k => exact (request k).ofCaller_label

theorem urcInv_reach {buf incoming : List UInt8} {request : κ → Request} {c : CallConfig κ}
    (hreach : (system κ mayEmit).recorded.Reach
      (callsStart mayEmit (World.idle buf incoming) request) c) :
    (urcOutline mayEmit).Holds c := by
  refine System.Outline.reach _ (System.Outline.holds_start _ ?_
    (urcHead_entry mayEmit request)) hreach
  exact ⟨ReaderInv.start (Nat.zero_le _), UrcAccount.idle buf incoming⟩

/-- **Only the oldest URC is dropped.**  Any goroutines execute commands next to the reader, the
modem sends any bytes at any time, and the worker receives from `URCCH` at any time.  What the
worker has received and what is in `URCCH` are URCs that have arrived, in the order of their
arrival.  Whenever the reader is about to scan again, it has dealt with every line, and the newest
URC was put into `URCCH` as the last one.  Every URC that has arrived and is neither in the reader's
hand nor in `URCCH` nor received was discarded; and what the reader discards is the oldest URC in
`URCCH`, just after it has found the channel full. -/
theorem urcs_drop_oldest (mayEmit : World → List UInt8 → Bool) (buf incoming : List UInt8)
    (request : κ → Request) {c : CallConfig κ}
    (hreach : (system κ mayEmit).recorded.Reach
      (callsStart mayEmit (World.idle buf incoming) request) c) :
    (System.collected consumed c.state.history ++ c.state.state.urcCh).Sublist
        (arrivals c.state.history) ∧
      (∀ next, c.threads .reader = .running (.call .scan next) →
        hand c.state.history = [] ∧
          (System.collected consumed c.state.history ++ c.state.state.urcCh).getLast? =
            (arrivals c.state.history).getLast?) ∧
      (System.collected discarded c.state.history ++
        (System.collected consumed c.state.history ++
          (c.state.state.urcCh ++ (hand c.state.history).filter isURC))).Perm
        (arrivals c.state.history) ∧
      ∀ later t line s past,
        c.state.history = later ++ .call t .tryRecvURC (some line : Option Line) s :: past →
          s.urcCh.head? = some line ∧ FoundFull past := by
  obtain ⟨q, ⟨hinv, hacc⟩, hfollows⟩ := urcInv_reach hreach
  have hhand := hinv.hand_eq
  refine ⟨?_, fun next hscan => ?_, ?_, fun later t line s past hhistory => ?_⟩
  · refine List.Sublist.trans ?_ hacc.order
    exact (List.Sublist.refl _).append (List.sublist_append_left _ _)
  · have hreader := hfollows .reader
    rw [hscan] at hreader
    have hstage : (q .reader).1 = .scanning := hreader.1
    have hnone : (q .reader).1.hand = [] := by
      rw [hstage]
      rfl
    have hnewest := hacc.newest
    rw [hnone, List.filter_nil, List.append_nil] at hnewest
    exact ⟨hhand.trans hnone, hnewest⟩
  · rw [hhand]
    exact hacc.count
  · obtain ⟨c', hreach', hstate, next, ch, s', hrun, hexec⟩ :=
      System.exists_reach_of_history hreach rfl hhistory
    obtain ⟨q', ⟨hinv', -⟩, hfollows'⟩ := urcInv_reach hreach'
    have ht := hfollows' t
    rw [hrun] at ht
    have hallow := ht.1
    cases t with
    | caller k => exact absurd hallow Bool.false_ne_true
    | reader =>
      obtain ⟨line', hstage⟩ : ∃ line', (q' .reader).1 = .refused line' := hallow
      have hok := hinv'.stage
      rw [hstage, hstate] at hok
      have hexec : s.exec .tryRecvURC (some line) = some s' := hexec
      exact ⟨(Option.ite_none_right_eq_some.mp hexec).1.symm, hok.2⟩

end

/-! ### A channel that is full -/

/-- The URC of a message in slot 1. -/
def firstURC : Line := lit "+CMTI: \"SM\",1"

/-- The modem sends a URC, and the reader puts it into `URCCH`. -/
def urcMoves (line : Line) : Moves Unit :=
  emitMoves (line ++ lit "\r\n") ++ callMoves 2 .reader (runAnswer 0 (some line) .timer)

/-- The modem sends a URC, and the reader finds `URCCH` full, and makes room. -/
def fullMoves (line oldest : Line) : Moves Unit :=
  emitMoves (line ++ lit "\r\n") ++
    [.call .reader () (runAnswer 0 (some line) .timer),
      .call .reader () fun
        | .trySendURC _ => false
        | c => runAnswer 0 none .timer c,
      .call .reader () fun
        | .tryRecvURC => some oldest
        | c => runAnswer 0 none .timer c,
      .call .reader () (runAnswer 0 none .timer), .jump .reader]

/-- A message has arrived, and the modem rings 64 times: the URC of the message is discarded. -/
theorem urcs_drop_oldest_full :
    ∃ c : CallConfig Unit, (system Unit fun _ _ => true).recorded.Reach
        (callsStart (fun _ _ => true) (World.idle [] []) fun _ => .execute (lit "AT")) c ∧
      System.collected discarded c.state.history = [firstURC] ∧
      c.state.state.urcCh = List.replicate chanCap (lit "+RING") ∧
      (arrivals c.state.history).Perm (firstURC :: List.replicate chanCap (lit "+RING")) ∧
      ∃ later t s past,
        c.state.history = later ++ .call t .tryRecvURC (some firstURC : Option Line) s :: past ∧
          s.urcCh.head? = some firstURC ∧ FoundFull past := by
  have hplay : ((system Unit fun _ _ => true).recorded.play
      (callsStart (fun _ _ => true) (World.idle [] []) fun _ => .execute (lit "AT"))
      (urcMoves firstURC ++ (List.replicate 63 (urcMoves (lit "+RING"))).flatten ++
        fullMoves (lit "+RING") firstURC)).map (fun c =>
          (System.collected discarded c.state.history, System.collected consumed c.state.history,
            c.state.state.urcCh, hand c.state.history)) =
      some ([firstURC], [], List.replicate chanCap (lit "+RING"), []) := by
    decide +kernel
  obtain ⟨c, hc, hres⟩ := Option.map_eq_some_iff.mp hplay
  simp only [Prod.mk.injEq] at hres
  obtain ⟨hdiscarded, hconsumed, hch, hhand⟩ := hres
  have hreach := System.reach_of_play hc
  obtain ⟨-, -, hperm, hfull⟩ := urcs_drop_oldest _ [] [] _ hreach
  rw [hdiscarded, hconsumed, hch, hhand] at hperm
  refine ⟨c, hreach, hdiscarded, hch, ?_, ?_⟩
  · rw [List.filter_nil, List.append_nil, List.nil_append] at hperm
    exact hperm.symm
  · have hmem : firstURC ∈ System.collected discarded c.state.history := by
      rw [hdiscarded]
      exact List.mem_cons_self
    obtain ⟨x, hx, hline⟩ := System.mem_collected.mp hmem
    obtain ⟨t, s, rfl⟩ := eq_call_of_mem_discarded hline
    obtain ⟨later, past, hhistory⟩ := List.append_of_mem hx
    exact ⟨later, t, s, past, hhistory, hfull later t firstURC s past hhistory⟩

end SmsGate.At.Serializer
