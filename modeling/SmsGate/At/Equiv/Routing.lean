import SmsGate.At.Serializer

/-!
# How the reader routes lines

The reader takes the lines of the stream one by one; one that is neither empty nor a URC goes to the
command that is pending when the reader looks.  `RoutingInv` follows the bytes, whatever the callers
do: what the modem has sent is what the reader has handed out, what the scanner holds and what waits
in the port; what the reader has handed out since a command became pending is what was routed to it,
unless its channel was full.

* `ReaderStage`, `reader_stages`: how far the reader is with its line;
* `view_of_exec`: which fields of the world a call leaves alone;
* `RoutingInv.reader`, `RoutingInv.caller`, `RoutingInv.outer`: every step keeps the invariant.
-/

namespace SmsGate.At.Serializer

open Go Go.Strings

/-! ### The lines of a stream that are routed -/

/-- Neither empty nor a URC. -/
def isAnswer (line : Line) : Bool := line ≠ [] && !isURC line

/-- The lines among some tokens that are routed to a command. -/
def answersOf (tokens : List (List UInt8)) : List Line :=
  (tokens.map fun text => trimRight text 0x0D).filter isAnswer

/-- The complete lines of a stream that are routed to a command. -/
def answers (stream : List UInt8) : List Line := answersOf (Bufio.lines stream)

theorem answersOf_append (tokens tokens' : List (List UInt8)) :
    answersOf (tokens ++ tokens') = answersOf tokens ++ answersOf tokens' := by
  rw [answersOf, List.map_append, List.filter_append]
  rfl

theorem answersOf_concat (tokens : List (List UInt8)) (text : List UInt8) :
    answersOf (tokens ++ [text]) = answersOf tokens ++ [trimRight text 0x0D].filter isAnswer :=
  answersOf_append tokens [text]

theorem answers_prefix_append (stream bytes : List UInt8) :
    answers stream <+: answers (stream ++ bytes) :=
  ((Bufio.lines_prefix_append stream bytes).map _).filter _

/-! ### What the reader does with a line -/

/-- How far the reader is with a line. -/
inductive ReaderStage where
  | scanning
  /-- It has scanned a URC, has found `URCCH` full, has made room. -/
  | arrived (line : Line)
  | refused (line : Line)
  | retrying (line : Line)
  /-- It has scanned another line, and has found the command that it is for. -/
  | holding (line : Line)
  | sending (p : ℕ) (line : Line)
  | ended

/-- A line that waits for `pending` to be read. -/
def ReaderStage.held : ReaderStage → List Line
  | holding line => [line]
  | _ => []

/-- The line on its way to command `p`. -/
def ReaderStage.inFlight (p : ℕ) : ReaderStage → List Line
  | sending p' line => if p' = p then [line] else []
  | _ => []

/-- The reader after a call. -/
def ReaderStage.next (r : ReaderStage) : (c : Call) → c.Ans → ReaderStage
  | .scan, (some text : Option (List UInt8)) =>
    if trimRight text 0x0D = [] then scanning
    else if isURC (trimRight text 0x0D) then arrived (trimRight text 0x0D)
    else holding (trimRight text 0x0D)
  | .scan, (none : Option (List UInt8)) => ended
  | .trySendURC _, (ok : Bool) =>
    match r with
    | arrived line => if ok then scanning else refused line
    | _ => scanning
  | .tryRecvURC, _ =>
    match r with
    | refused line => retrying line
    | _ => r
  | .loadPending line, (some p : Option ℕ) => sending p line
  | .loadPending _, (none : Option ℕ) => scanning
  | .trySendLine _ _, _ => scanning
  | _, _ => r

/-- The calls that the reader may make when it is so far. -/
def ReaderStage.Allows (r : ReaderStage) : Call → Prop
  | .scan => r = scanning
  | .trySendURC line => r = arrived line ∨ r = retrying line
  | .tryRecvURC => ∃ line, r = refused line
  | .loadPending line => r = holding line
  | .trySendLine p line => r = sending p line
  | .closeClosed => r = ended
  | _ => False

/-- The protocol of the reader; `K` is what the protocols of the other goroutines follow. -/
def stageProtocol (K : Type) : Protocol Call Call.Ans (ReaderStage × K) where
  allows q c := q.1.Allows c
  next q c a := (q.1.next c a, q.2)

section

variable {K : Type} {q : ReaderStage × K} {line : Line}

theorem routeLine_stages (hq : q.1 = .holding line) :
    (routeLine line).Obeys (stageProtocol K) q fun _ q' => q'.1 = .scanning := by
  refine Prog.perform_bind_obeys hq fun (pending : Option ℕ) => ?_
  cases pending with
  | none => rfl
  | some p => exact Prog.perform_bind_obeys rfl fun _ => rfl

theorem routeURC_stages (hq : q.1 = .arrived line) :
    (routeURC line).Obeys (stageProtocol K) q fun _ q' => q'.1 = .scanning := by
  obtain ⟨r, k⟩ := q
  obtain rfl : r = .arrived line := hq
  refine Prog.perform_bind_obeys (.inl rfl) fun (ok : Bool) => ?_
  cases ok with
  | true => rfl
  | false =>
    refine Prog.perform_bind_obeys ⟨line, rfl⟩ fun _ => ?_
    exact Prog.perform_bind_obeys (.inr rfl) fun _ => rfl

theorem reader_stages (hq : q.1 = .scanning) :
    reader.Obeys (stageProtocol K) q fun res q' =>
      res.elim (fun l => l = .reader ∧ q'.1 = .scanning) fun _ => True := by
  refine Prog.perform_bind_obeys hq fun (token : Option (List UInt8)) => ?_
  cases token with
  | none => exact Prog.perform_bind_obeys rfl fun _ => trivial
  | some text =>
    -- the stage after the scan, by what the line is
    have hstage : ((stageProtocol K).next q .scan (some text)).1 =
        if trimRight text 0x0D = [] then .scanning
        else if isURC (trimRight text 0x0D) then .arrived (trimRight text 0x0D)
        else .holding (trimRight text 0x0D) := rfl
    dsimp only
    generalize trimRight text 0x0D = line at hstage ⊢
    generalize (stageProtocol K).next q .scan (some text) = q₁ at hstage ⊢
    split_ifs at hstage ⊢
    · exact ⟨rfl, hstage⟩
    · exact (routeURC_stages hstage).bind fun _ q' hq' => ⟨rfl, hq'⟩
    · exact (routeLine_stages hstage).bind fun _ q' hq' => ⟨rfl, hq'⟩

end

/-- A line joins the queue that it was on its way to. -/
theorem update_concat (f : ℕ → List Line) (p p' : ℕ) (line : Line) :
    Function.update f p (f p ++ [line]) p' = f p' ++ ReaderStage.inFlight p' (.sending p line) := by
  by_cases hp : p = p'
  · subst hp
    rw [Function.update_self, ReaderStage.inFlight, if_pos rfl]
  · rw [Function.update_of_ne (Ne.symm hp), ReaderStage.inFlight, if_neg hp, List.append_nil]

theorem inFlight_scan (token : Option (List UInt8)) (p : ℕ) :
    (ReaderStage.next .scanning .scan token).inFlight p = [] := by
  cases token with
  | none => rfl
  | some text =>
    dsimp only [ReaderStage.next]
    split_ifs <;> rfl

/-- The calls of the reader that are about no line for a command. -/
def Call.aside : Call → Bool
  | trySendURC _ | tryRecvURC | closeClosed => true
  | _ => false

/-- It has none while it deals with a URC, and when it ends. -/
theorem aside_of_allows {r : ReaderStage} {c : Call} {a : c.Ans} (hallow : r.Allows c)
    (hc : c.aside) : (r.held = [] ∧ ∀ p, r.inFlight p = []) ∧
      (r.next c a).held = [] ∧ ∀ p, (r.next c a).inFlight p = [] := by
  cases c with
  | trySendURC line =>
    cases a <;> rcases hallow with rfl | rfl <;> exact ⟨⟨rfl, fun _ => rfl⟩, rfl, fun _ => rfl⟩
  | tryRecvURC =>
    obtain ⟨line, rfl⟩ := hallow
    exact ⟨⟨rfl, fun _ => rfl⟩, rfl, fun _ => rfl⟩
  | closeClosed =>
    obtain rfl : r = .ended := hallow
    exact ⟨⟨rfl, fun _ => rfl⟩, rfl, fun _ => rfl⟩
  | _ => cases hc

/-! ### Where the bytes are -/

/-- The calls of those who execute commands. -/
def Call.ofCaller : Call → Bool
  | install | clear | write _ | recv _ _ | pollClosed | close => true
  | _ => false

/-- A line is taken from the front of a channel. -/
theorem exists_linesCh_of_recv {s s' : World} {timer : Timer} {p : ℕ} {l : Line}
    (hexec : s.exec (.recv timer p) (.line l) = some s') :
    ∃ rest, s.linesCh p = l :: rest ∧
      s' = { s with linesCh := Function.update s.linesCh p rest } := by
  cases hch : s.linesCh p with
  | nil =>
    simp only [World.exec, hch] at hexec
    cases hexec
  | cons l' rest =>
    simp only [World.exec, hch] at hexec
    obtain ⟨rfl, hs⟩ := Option.ite_none_right_eq_some.mp hexec
    exact ⟨rest, rfl, (Option.some.inj hs).symm⟩

/-- A view of the world does not depend on the fields that a call may change. -/
def Call.Leaves {β : Type} (f : World → β) : Call → Prop
  | scan => ∀ s x, f { s with scanner := x } = f s
  | trySendURC _ | tryRecvURC => ∀ s x, f { s with urcCh := x } = f s
  | loadPending _ => ∀ s x, f { s with loaded := x } = f s
  | trySendLine _ _ =>
    ∀ s x y z, f { s with linesCh := x, routed := y, overflow := z } = f s
  | closeClosed => ∀ s x, f { s with closed := x } = f s
  | pollClosed => True
  | install => ∀ s x y z, f { s with made := x, pending := y, since := z } = f s
  | clear => ∀ s x, f { s with pending := x } = f s
  | write _ => ∀ s x, f { s with written := x } = f s
  | recv _ _ => ∀ s x, f { s with linesCh := x } = f s
  | close => ∀ s x, f { s with ended := x } = f s

/-- A call changes nothing in a view that leaves out its fields. -/
theorem view_of_exec {β : Type} {f : World → β} {s s' : World} {c : Call} {a : c.Ans}
    (hc : c.Leaves f) (hexec : s.exec c a = some s') : f s' = f s := by
  cases c with
  | scan =>
    obtain ⟨p, -, hs⟩ := Option.bind_eq_some_iff.mp hexec
    obtain ⟨-, hs⟩ := Option.ite_none_right_eq_some.mp hs
    cases hs
    exact hc ..
  | trySendURC | trySendLine =>
    obtain ⟨-, hs⟩ := Option.ite_none_left_eq_some.mp hexec
    split_ifs at hs <;> cases hs
    · exact hc ..
    · first | rfl | exact hc ..
  | tryRecvURC | loadPending | install =>
    obtain ⟨-, hs⟩ := Option.ite_none_right_eq_some.mp hexec
    cases hs
    exact hc ..
  | pollClosed =>
    obtain ⟨-, hs⟩ := Option.ite_none_right_eq_some.mp hexec
    cases hs
    rfl
  | closeClosed | clear | close =>
    cases hexec
    exact hc ..
  | write data =>
    cases hexec
    split_ifs
    · exact hc ..
    · rfl
  | recv timer p =>
    cases a with
    | line l =>
      obtain ⟨rest, -, rfl⟩ := exists_linesCh_of_recv hexec
      exact hc ..
    | timer =>
      cases hexec
      rfl
    | closed =>
      obtain ⟨-, hs⟩ := Option.ite_none_right_eq_some.mp hexec
      cases hs
      rfl

/-- The same for what happens beside the goroutines. -/
def Outer.Leaves {β : Type} (f : World → β) : Outer → Prop
  | emit _ => ∀ s x y, f { s with incoming := x, emitted := y } = f s
  | fill _ => ∀ s x y, f { s with scanner := x, incoming := y } = f s
  | fillEnd => ∀ s x, f { s with scanner := x } = f s
  | unplug => ∀ s x, f { s with ended := x } = f s
  | takeURC => ∀ s x, f { s with urcCh := x } = f s

theorem view_of_outer {β : Type} {f : World → β} {mayEmit : World → List UInt8 → Bool}
    {s s' : World} {v : Outer} (hv : v.Leaves f) (hstep : v.step mayEmit s = some s') :
    f s' = f s := by
  cases v with
  | emit bytes =>
    obtain ⟨-, hs⟩ := Option.ite_none_right_eq_some.mp hstep
    cases hs
    exact hv ..
  | fill chunk | fillEnd =>
    obtain ⟨-, hs⟩ := Option.ite_none_right_eq_some.mp hstep
    obtain ⟨sc, -, rfl⟩ := Option.map_eq_some_iff.mp hs
    exact hv ..
  | unplug | takeURC =>
    cases hstep
    exact hv ..

/-- The world without the URCs, what was written, `closed` and the end of the port. -/
def World.routes (s : World) : World :=
  { s with urcCh := [], written := [], closed := false, ended := false }

/-- The invariant, for a stream that starts with what the reader had not taken at first. -/
structure RoutingInv (stream : List UInt8) (s : World) (r : ReaderStage) : Prop where
  /-- The lines handed out are those for which `pending` was read, and one that waits for it. -/
  lines : s.scanner.eof = false → ∃ tokens,
    Bufio.Scanned (stream ++ s.emitted) tokens (s.scanner.buf ++ s.incoming) ∧
      answersOf tokens = s.loaded ++ r.held
  /-- What was read since a command is pending was routed to it or is on its way. -/
  pending : ∀ p, s.pending = some p → s.since p ≤ s.loaded.length ∧
    (s.overflow = false → s.routed p ++ r.inFlight p = s.loaded.drop (s.since p))
  /-- Commands get new channels. -/
  fresh : ∀ p, s.made ≤ p → s.routed p = [] ∧ r.inFlight p = [] ∧ s.pending ≠ some p
  queued : ∀ p, s.linesCh p ⊆ s.routed p

namespace RoutingInv

variable {stream : List UInt8} {s s' : World} {r : ReaderStage}

/-- Before anything happens. -/
theorem idle (buf incoming : List UInt8) :
    RoutingInv (buf ++ incoming) (World.idle buf incoming) .scanning := by
  refine ⟨fun _ => ⟨[], ?_, rfl⟩, nofun, fun _ _ => ⟨rfl, rfl, nofun⟩, fun _ => List.Subset.refl _⟩
  rw [World.idle, List.append_nil]
  exact Bufio.scanned_start _

/-- Nothing depends on the URCs, on what was written, on `closed` and on the end of the port. -/
theorem other {r' : ReaderStage} (hinv : RoutingInv stream s r) (hsame : s'.routes = s.routes)
    (hheld : r'.held = r.held) (hflight : ∀ p, r'.inFlight p = r.inFlight p) :
    RoutingInv stream s' r' := by
  have h : RoutingInv stream s.routes r' := by
    refine ⟨?_, fun p => ?_, fun p => ?_, hinv.queued⟩
    · rw [hheld]; exact hinv.lines
    · rw [hflight]; exact hinv.pending p
    · rw [hflight]; exact hinv.fresh p
  rw [← hsame] at h
  exact ⟨h.lines, h.pending, h.fresh, h.queued⟩

/-- The lines for which `pending` was read are those that the modem has sent first. -/
theorem prefix_loaded (hinv : RoutingInv stream s r) (heof : s.scanner.eof = false) :
    s.loaded ++ r.held <+: answers (stream ++ s.emitted) := by
  obtain ⟨tokens, hscanned, hloaded⟩ := hinv.lines heof
  rw [answers, hscanned.lines_append, answersOf_append, hloaded]
  exact List.prefix_append _ _

/-- `Scan` hands out the next line. -/
theorem scan {token : Option (List UInt8)} (hinv : RoutingInv stream s .scanning)
    (hexec : s.exec .scan token = some s') :
    RoutingInv stream s' (ReaderStage.next .scanning .scan token) := by
  obtain ⟨⟨token', sc⟩, hscan, hs⟩ := Option.bind_eq_some_iff.mp hexec
  obtain ⟨htoken, hs⟩ := Option.ite_none_right_eq_some.mp hs
  cases hs
  dsimp only at htoken
  subst htoken
  have hflight := inFlight_scan token
  refine ⟨fun heof => ?_, fun p hp => ?_, fun p hp => ?_, hinv.queued⟩
  · rcases Bufio.Scanner.scan_cases hscan with ⟨l, rest, hbuf, hl, htok, hsc⟩ | hend | ⟨htok, hsc⟩
    · rw [hsc] at heof ⊢
      obtain ⟨tokens, hscanned, hloaded⟩ := hinv.lines heof
      rw [hbuf, List.append_assoc, List.cons_append] at hscanned
      refine ⟨_, hscanned.scan hl, ?_⟩
      rw [answersOf_concat, hloaded, htok]
      dsimp only [ReaderStage.next]
      split_ifs with hempty hurc <;> simp [ReaderStage.held, isAnswer, *]
    · dsimp only at heof
      rw [hend] at heof
      cases heof
    · rw [hsc] at heof ⊢
      rw [htok]
      exact hinv.lines heof
  · rw [hflight]
    exact hinv.pending p hp
  · exact ⟨(hinv.fresh p hp).1, hflight p, (hinv.fresh p hp).2.2⟩

/-- The reader finds the command that is pending. -/
theorem load {line : Line} {pending : Option ℕ} (hinv : RoutingInv stream s (.holding line))
    (hexec : s.exec (.loadPending line) pending = some s') :
    RoutingInv stream s' (ReaderStage.next (.holding line) (.loadPending line) pending) := by
  obtain ⟨hpending, hs⟩ := Option.ite_none_right_eq_some.mp hexec
  cases hs
  have hheld : ReaderStage.held (ReaderStage.next (.holding line) (.loadPending line) pending) =
      [] := by
    cases pending <;> rfl
  refine ⟨fun heof => ?_, fun p hp => ?_, fun p hp => ?_, hinv.queued⟩
  · obtain ⟨tokens, hscanned, hloaded⟩ := hinv.lines heof
    refine ⟨tokens, hscanned, ?_⟩
    rw [hloaded, hheld, List.append_nil]
    rfl
  · have hp' : s.pending = some p := hp
    obtain ⟨hsince, hrouted⟩ := hinv.pending p hp'
    refine ⟨hsince.trans (List.length_append ▸ Nat.le_add_right _ _), fun hover => ?_⟩
    have hrouted := hrouted hover
    rw [hpending, hp']
    dsimp only [ReaderStage.next, ReaderStage.inFlight] at hrouted ⊢
    rw [if_pos rfl, List.drop_append_of_le_length hsince, ← hrouted, List.append_nil]
  · obtain ⟨hrouted, -, hnot⟩ := hinv.fresh p hp
    refine ⟨hrouted, ?_, hnot⟩
    cases pending with
    | none => rfl
    | some p' =>
      have hne : p' ≠ p := by
        rintro rfl
        exact hnot hpending.symm
      exact if_neg hne

/-- The line in flight arrives, or is dropped. -/
theorem sendLine {p : ℕ} {line : Line} {ok : Bool} (hinv : RoutingInv stream s (.sending p line))
    (hexec : s.exec (.trySendLine p line) ok = some s') : RoutingInv stream s' .scanning := by
  obtain ⟨hok, hs⟩ := Option.ite_none_left_eq_some.mp hexec
  cases ok with
  | false =>
    cases hs
    exact ⟨hinv.lines, fun p' hp' => ⟨(hinv.pending p' hp').1, nofun⟩,
      fun p' hp' => ⟨(hinv.fresh p' hp').1, rfl, (hinv.fresh p' hp').2.2⟩, hinv.queued⟩
  | true =>
    cases hs
    -- the line leaves the flight and joins what was routed
    have hrouted := fun p' => update_concat s.routed p p' line
    refine ⟨hinv.lines, fun p' hp' => ⟨(hinv.pending p' hp').1, fun hover => ?_⟩,
      fun p' hp' => ?_, fun p' => ?_⟩
    · rw [← (hinv.pending p' hp').2 hover]
      exact (List.append_nil _).trans (hrouted p')
    · obtain ⟨hempty, hflight, hnot⟩ := hinv.fresh p' hp'
      exact ⟨(hrouted p').trans (by rw [hempty, hflight]; rfl), rfl, hnot⟩
    · by_cases hp : p' = p
      · subst hp
        dsimp only
        rw [Function.update_self, Function.update_self]
        exact List.append_subset.mpr ⟨List.Subset.trans (hinv.queued p')
          (List.subset_append_left _ _), List.subset_append_right _ _⟩
      · dsimp only
        rw [Function.update_of_ne hp, Function.update_of_ne hp]
        exact hinv.queued p'

/-- A command is made pending. -/
theorem install {p : ℕ} (hinv : RoutingInv stream s r) (hexec : s.exec .install p = some s') :
    RoutingInv stream s' r := by
  obtain ⟨hp, hs⟩ := Option.ite_none_right_eq_some.mp hexec
  cases hs
  obtain ⟨hrouted, hflight, -⟩ := hinv.fresh p hp.ge
  refine ⟨hinv.lines, fun p' hp' => ?_, fun p' hp' => ?_, hinv.queued⟩
  · cases hp'
    dsimp only
    rw [Function.update_self]
    refine ⟨le_rfl, fun _ => ?_⟩
    rw [hrouted, hflight, List.drop_length]
    rfl
  · have hlt : s.made < p' := hp'
    obtain ⟨hrouted', hflight', -⟩ := hinv.fresh p' hlt.le
    refine ⟨hrouted', hflight', fun hsome => ?_⟩
    cases hsome
    omega

/-- A caller takes a line from its channel. -/
theorem recv {timer : Timer} {p : ℕ} {l : Line} (hinv : RoutingInv stream s r)
    (hexec : s.exec (.recv timer p) (.line l) = some s') : RoutingInv stream s' r := by
  obtain ⟨rest, hch, rfl⟩ := exists_linesCh_of_recv hexec
  refine ⟨hinv.lines, hinv.pending, hinv.fresh, fun p' => ?_⟩
  by_cases hp : p' = p
  · subst hp
    have hqueued := hinv.queued p'
    rw [hch] at hqueued
    dsimp only
    rw [Function.update_self]
    exact List.Subset.trans (List.subset_cons_self l rest) hqueued
  · dsimp only
    rw [Function.update_of_ne hp]
    exact hinv.queued p'

/-- The reader keeps the invariant. -/
theorem reader {c : Call} {a : c.Ans} (hinv : RoutingInv stream s r) (hallow : r.Allows c)
    (hexec : s.exec c a = some s') :
    RoutingInv stream s' (r.next c a) := by
  cases c with
  | scan =>
    obtain rfl : r = .scanning := hallow
    exact hinv.scan hexec
  | loadPending line =>
    obtain rfl : r = .holding line := hallow
    exact hinv.load hexec
  | trySendLine p line =>
    obtain rfl : r = .sending p line := hallow
    exact hinv.sendLine hexec
  | trySendURC | tryRecvURC | closeClosed =>
    obtain ⟨⟨hheld, hflight⟩, hheld', hflight'⟩ := aside_of_allows (a := a) hallow rfl
    exact hinv.other (view_of_exec (by simp [Call.Leaves, World.routes]) hexec)
      (hheld'.trans hheld.symm) fun p => (hflight' p).trans (hflight p).symm
  | _ => exact hallow.elim

/-- So do those who execute commands. -/
theorem caller {c : Call} {a : c.Ans} (hinv : RoutingInv stream s r) (hc : c.ofCaller)
    (hexec : s.exec c a = some s') : RoutingInv stream s' r := by
  cases c with
  | install => exact hinv.install hexec
  | clear =>
    cases hexec
    exact ⟨hinv.lines, nofun, fun p hp => ⟨(hinv.fresh p hp).1, (hinv.fresh p hp).2.1, nofun⟩,
      hinv.queued⟩
  | recv timer p =>
    cases a with
    | line l => exact hinv.recv hexec
    | timer =>
      cases hexec
      exact hinv
    | closed =>
      obtain ⟨-, hs⟩ := Option.ite_none_right_eq_some.mp hexec
      cases hs
      exact hinv
  | write | pollClosed | close =>
    exact hinv.other (view_of_exec (by simp [Call.Leaves, World.routes]) hexec) rfl fun _ => rfl
  | _ => cases hc

/-- What happens beside the goroutines moves bytes towards the scanner. -/
theorem outer {mayEmit : World → List UInt8 → Bool} {v : Outer} (hinv : RoutingInv stream s r)
    (hstep : v.step mayEmit s = some s') : RoutingInv stream s' r := by
  cases v with
  | emit bytes =>
    obtain ⟨-, hs⟩ := Option.ite_none_right_eq_some.mp hstep
    cases hs
    refine ⟨fun heof => ?_, hinv.pending, hinv.fresh, hinv.queued⟩
    obtain ⟨tokens, hscanned, hloaded⟩ := hinv.lines heof
    refine ⟨tokens, ?_, hloaded⟩
    have happend := hscanned.append bytes
    rwa [List.append_assoc, List.append_assoc] at happend
  | fill chunk =>
    obtain ⟨hfront, hs⟩ := Option.ite_none_right_eq_some.mp hstep
    obtain ⟨sc, hfill, rfl⟩ := Option.map_eq_some_iff.mp hs
    obtain ⟨-, hsc⟩ := Option.ite_none_right_eq_some.mp hfill
    cases hsc
    refine ⟨fun heof => ?_, hinv.pending, hinv.fresh, hinv.queued⟩
    obtain ⟨tokens, hscanned, hloaded⟩ := hinv.lines heof
    refine ⟨tokens, ?_, hloaded⟩
    -- the chunk is the front of what waits
    obtain ⟨rest, hrest⟩ := List.isPrefixOf_iff_prefix.mp hfront
    dsimp only
    rw [← hrest] at hscanned ⊢
    rwa [List.drop_left, List.append_assoc]
  | fillEnd =>
    obtain ⟨-, hs⟩ := Option.ite_none_right_eq_some.mp hstep
    obtain ⟨sc, hfinish, rfl⟩ := Option.map_eq_some_iff.mp hs
    obtain ⟨-, hsc⟩ := Option.ite_none_right_eq_some.mp hfinish
    cases hsc
    exact ⟨nofun, hinv.pending, hinv.fresh, hinv.queued⟩
  | unplug | takeURC =>
    exact hinv.other (view_of_outer (by simp [Outer.Leaves, World.routes]) hstep) rfl fun _ => rfl

end RoutingInv

end SmsGate.At.Serializer
