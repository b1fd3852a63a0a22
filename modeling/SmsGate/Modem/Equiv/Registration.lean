import SmsGate.At.Equiv.Urc
import SmsGate.Modem.Worker

/-!
# Registration changes

`+CREG:` starts the reply to `AT+CREG?` as well as the line that tells of a change, and is not among
the prefixes of URCs.  A line that starts so goes to the command that is pending.  If there is none,
it goes nowhere, and the worker never learns of the change: `handleURC` has a branch for such lines,
and gets none (`creg_routed_iff`).
-/

namespace SmsGate.At.Serializer

open Go Go.Strings

/-- A line that tells of the registration. -/
def isCREG (line : Line) : Bool := hasPrefix line (lit "+CREG:")

theorem not_isCREG_of_isURC {line : Line} (hurc : isURC line) : ¬ isCREG line := by
  intro hcreg
  obtain ⟨rest, rfl⟩ := List.isPrefixOf_iff_prefix.mp hcreg
  cases hurc

section

variable {κ : Type}

/-! ### Where the reader sends a line -/

/-- A line was put into `URCCH`. -/
def posted : Event κ → List Line
  | .call _ (.trySendURC line) (true : Bool) _ => [line]
  | _ => []

/-- No command was pending for a line. -/
def unclaimed : Event κ → List Line
  | .call _ (.loadPending line) (none : Option ℕ) _ => [line]
  | _ => []

/-- A command was pending for a line. -/
def claimed : Event κ → List (ℕ × Line)
  | .call _ (.loadPending line) (some p : Option ℕ) _ => [(p, line)]
  | _ => []

/-- A line was put into the channel of a command. -/
def given : Event κ → List (ℕ × Line)
  | .call _ (.trySendLine p line) (true : Bool) _ => [(p, line)]
  | _ => []

/-- A line was dropped, since the channel was full. -/
def dropped : Event κ → List (ℕ × Line)
  | .call _ (.trySendLine p line) (false : Bool) _ => [(p, line)]
  | _ => []

theorem dealt_eq (x : Event κ) :
    dealt x = posted x ++ (unclaimed x ++ (claimed x).map Prod.snd) := by
  rcases x with ⟨t, c, a, s⟩ | ⟨v, s⟩ | ⟨t, s⟩
  · cases c with
    | trySendURC line => cases a <;> rfl
    | loadPending line => cases a <;> rfl
    | _ => rfl
  · rfl
  · rfl

/-- A command that the reader has found for its line. -/
def ReaderStage.claim : ReaderStage → List (ℕ × Line)
  | sending p line => [(p, line)]
  | _ => []

/-- The account of the lines. -/
structure RouteInv (past : History κ) (r : ReaderStage) : Prop where
  posted : ∀ line ∈ System.collected posted past, isURC line
  claimed : (System.collected claimed past).Perm
    (System.collected given past ++ (System.collected dropped past ++ r.claim))

variable {s s' : World} {past : History κ} {r : ReaderStage} {t : Thread κ} {c : Call} {a : c.Ans}

namespace RouteInv

theorem start : RouteInv ([] : History κ) .scanning := ⟨nofun, .refl _⟩

/-- One more event. -/
theorem step {r' : ReaderStage} {x : Event κ} (h : RouteInv past r)
    (hposted : ∀ line ∈ Serializer.posted x, isURC line)
    (hclaim : (r.claim ++ Serializer.claimed x).Perm (given x ++ (dropped x ++ r'.claim))) :
    RouteInv (x :: past) r' := by
  constructor
  · intro line hline
    rcases List.mem_append.mp hline with hold | hnew
    · exact h.posted line hold
    · exact hposted line hnew
  · rw [System.collected, System.collected, System.collected]
    refine (h.claimed.append_right _).trans ?_
    rw [List.append_assoc, List.append_assoc, List.append_assoc, List.append_assoc]
    exact .append_left _ ((hclaim.append_left _).trans (List.perm_append_comm_assoc _ _ _))

theorem caller (h : RouteInv past r) (hc : c.ofCaller) : RouteInv (.call t c a s :: past) r := by
  cases c with
  | install | pollClosed | clear | close | write data | recv timer p =>
    exact h.step (List.forall_mem_nil _) (.of_eq (List.append_nil _))
  | _ => cases hc

theorem reader (h : RouteInv past r) (hinv : ReaderInv s past r) (hallow : r.Allows c) :
    RouteInv (.call t c a s :: past) (r.next c a) := by
  have hstage := hinv.stage
  cases c with
  | scan =>
    obtain rfl : r = .scanning := hallow
    refine h.step nofun ?_
    cases a with
    | none => rfl
    | some text =>
      dsimp only [ReaderStage.next]
      split_ifs <;> rfl
  | trySendURC line =>
    have hurc : isURC line := by
      rcases hallow with rfl | rfl
      · exact hstage
      · exact hstage.1
    cases a with
    | true =>
      refine h.step (List.forall_mem_singleton.mpr hurc) ?_
      rcases hallow with rfl | rfl <;> rfl
    | false =>
      refine h.step nofun ?_
      rcases hallow with rfl | rfl <;> rfl
  | tryRecvURC =>
    obtain ⟨line, rfl⟩ : ∃ line, r = .refused line := hallow
    exact h.step nofun (.refl _)
  | loadPending line =>
    obtain rfl : r = .holding line := hallow
    cases a with
    | none => exact h.step nofun (.refl _)
    | some p => exact h.step nofun (.refl _)
  | trySendLine p line =>
    obtain rfl : r = .sending p line := hallow
    cases a with
    | true => exact h.step nofun (.refl _)
    | false => exact h.step nofun (.refl _)
  | closeClosed =>
    obtain rfl : r = .ended := hallow
    exact h.step nofun (.refl _)
  | _ => exact hallow.elim

theorem outer {v : Outer} (h : RouteInv past r) : RouteInv (.env v s :: past) r :=
  h.step (List.forall_mem_nil _) (.of_eq (List.append_nil _))

end RouteInv

/-! ### The main result -/

/-- What is asked of the reader: a line that tells of the registration reaches the worker if no
command is pending, and else the command that is. -/
structure RoutesCREG (past : History κ) : Prop where
  unsolicited : ((System.collected unclaimed past).filter isCREG).Subperm
    (System.collected posted past)
  solicited : ((System.collected claimed past).filter fun x => isCREG x.2).Subperm
    (System.collected given past)

/-- If what was to be handed on was given or dropped, then all of one kind was given iff none of it
was dropped. -/
theorem subperm_given_iff {α : Type} {all given dropped : List α} (p : α → Bool)
    (h : all.Perm (given ++ dropped)) :
    (all.filter p).Subperm given ↔ ∀ x ∈ dropped, ¬ p x := by
  have hfilter : (all.filter p).Perm (given.filter p ++ dropped.filter p) := by
    rw [← List.filter_append]
    exact h.filter p
  rw [← List.filter_eq_nil_iff]
  constructor
  · intro hsub
    have hle := (hsub.filter p).length_le
    simp only [List.filter_filter, Bool.and_self] at hle
    rw [hfilter.length_eq, List.length_append] at hle
    exact List.length_eq_zero_iff.mp (by omega)
  · intro hnone
    rw [hnone, List.append_nil] at hfilter
    exact hfilter.subperm.trans List.filter_sublist.subperm

namespace RouteInv

theorem not_isCREG_of_posted (h : RouteInv past r) {line : Line}
    (hline : line ∈ System.collected Serializer.posted past) : ¬ isCREG line :=
  not_isCREG_of_isURC (h.posted line hline)

/-- The reader looks for a pending command for every line that tells of the registration. -/
theorem scanned_perm (h : RouteInv past r) (hinv : ReaderInv s past .scanning) :
    ((System.collected scanned past).filter isCREG).Perm
      ((System.collected unclaimed past ++
        (System.collected Serializer.claimed past).map Prod.snd).filter isCREG) := by
  have hscanned : System.collected scanned past = System.collected dealt past :=
    hinv.lines.trans (List.append_nil _)
  have hdealt : (System.collected dealt past).Perm (System.collected Serializer.posted past ++
      (System.collected unclaimed past ++
        (System.collected Serializer.claimed past).map Prod.snd)) := by
    rw [← System.collected_map]
    exact (System.collected_perm dealt_eq past).trans
      ((System.collected_perm (fun _ => rfl) past).append_left _)
  have hposted : (System.collected Serializer.posted past).filter isCREG = [] :=
    List.filter_eq_nil_iff.mpr fun _ => h.not_isCREG_of_posted
  rw [hscanned]
  refine (hdealt.filter isCREG).trans ?_
  rw [List.filter_append, hposted, List.nil_append]

theorem routesCREG_iff (h : RouteInv past .scanning) :
    RoutesCREG past ↔ (∀ line ∈ System.collected unclaimed past, ¬ isCREG line) ∧
      ∀ x ∈ System.collected dropped past, ¬ isCREG x.2 := by
  have hclaimed : (System.collected Serializer.claimed past).Perm
      (System.collected given past ++ System.collected dropped past) :=
    h.claimed.trans (.of_eq (congrArg _ (List.append_nil _)))
  have hsolicited := subperm_given_iff (fun x => isCREG x.2) hclaimed
  constructor
  · intro hroutes
    refine ⟨fun line hline hcreg => ?_, hsolicited.mp hroutes.solicited⟩
    have hmem := List.mem_filter.mpr ⟨hline, hcreg⟩
    exact h.not_isCREG_of_posted (hroutes.unsolicited.subset hmem) hcreg
  · rintro ⟨hunclaimed, hdropped⟩
    refine ⟨?_, hsolicited.mpr hdropped⟩
    rw [List.filter_eq_nil_iff.mpr hunclaimed]
    exact List.nil_subperm

end RouteInv

/-- On a URC, `handleURC` does nothing but receive a message. -/
theorem handleURC_of_isURC (h : Modem.Host) (w : Modem.Worker) (id : Modem.Identity) {urc : Line}
    (hurc : isURC urc) (hcmti : ¬ hasPrefix urc (lit "+CMTI:")) :
    Modem.handleURC h w id urc = pure () := by
  unfold Modem.handleURC
  rw [if_neg hcmti, if_neg fun hcreg => not_isCREG_of_isURC hurc hcreg.2]

section

variable [DecidableEq κ] {mayEmit : World → List UInt8 → Bool}

/-- The proof outline: that of the URCs, with the account of the lines. -/
def routeOutline (mayEmit : World → List UInt8 → Bool) :
    System.Outline (system κ mayEmit).recorded urcProtocols :=
  { urcOutline mayEmit with
    inv := fun s q =>
      (urcOutline mayEmit).inv s q ∧ RouteInv s.history (q .reader).1
    call_inv := by
      intro t ch s q c a s' hinv hallow hexec
      refine ⟨(urcOutline mayEmit).call_inv t ch s q c a s' hinv.1 hallow hexec, ?_⟩
      obtain ⟨s₁, -, rfl⟩ := System.recorded_exec_iff.mp hexec
      cases t with
      | reader => exact hinv.2.reader hinv.1.1 hallow
      | caller k => exact hinv.2.caller hallow
    env_inv := by
      intro v s q s' hinv hstep
      refine ⟨(urcOutline mayEmit).env_inv v s q s' hinv.1 hstep, ?_⟩
      obtain ⟨s₁, -, rfl⟩ := System.recorded_env_iff.mp hstep
      exact hinv.2.outer
    crash_inv := fun _ _ _ _ _ _ hcrash => by cases hcrash }

theorem routeInv_reach {buf incoming : List UInt8} {request : κ → Request} {c : CallConfig κ}
    (hreach : (system κ mayEmit).recorded.Reach
      (callsStart mayEmit (World.idle buf incoming) request) c) :
    (routeOutline mayEmit).Holds c := by
  refine System.Outline.reach _ (System.Outline.holds_start _ ⟨?_, RouteInv.start⟩
    (urcHead_entry mayEmit request)) hreach
  exact ⟨ReaderInv.start (Nat.zero_le _), UrcAccount.idle buf incoming⟩

/-- **Where registration changes go.**  Any goroutines execute commands next to the reader, the
modem sends any bytes at any time, and the worker receives from `URCCH` at any time.  When the
reader is about to scan again, it has looked for a pending command for every line that starts with
`+CREG:`.  The lines for which there was none have reached the worker, and the others their
commands, iff there were no lines of the first kind, and none of the second has met a full channel.
Nothing that the worker has received starts with `+CREG:`, so that `handleURC` acts on nothing but
new messages. -/
theorem creg_routed_iff (mayEmit : World → List UInt8 → Bool) (buf incoming : List UInt8)
    (request : κ → Request) {c : CallConfig κ}
    (hreach : (system κ mayEmit).recorded.Reach
      (callsStart mayEmit (World.idle buf incoming) request) c)
    (next : Call.scan.Ans → Io (Label ⊕ Exit))
    (hscan : c.threads .reader = .running (.call .scan next))
    (h : Modem.Host) (w : Modem.Worker) (id : Modem.Identity) :
    ((System.collected scanned c.state.history).filter isCREG).Perm
        ((System.collected unclaimed c.state.history ++
          (System.collected claimed c.state.history).map Prod.snd).filter isCREG) ∧
      (RoutesCREG c.state.history ↔
        (∀ line ∈ System.collected unclaimed c.state.history, ¬ isCREG line) ∧
          ∀ x ∈ System.collected dropped c.state.history, ¬ isCREG x.2) ∧
      ∀ urc ∈ System.collected consumed c.state.history, ¬ isCREG urc ∧
        (¬ hasPrefix urc (lit "+CMTI:") → Modem.handleURC h w id urc = pure ()) := by
  obtain ⟨q, ⟨⟨hinv, hacc⟩, hroute⟩, hfollows⟩ := routeInv_reach hreach
  have hreader := hfollows .reader
  rw [hscan] at hreader
  have hstage : (q .reader).1 = .scanning := hreader.1
  rw [hstage] at hinv hroute
  refine ⟨hroute.scanned_perm hinv, hroute.routesCREG_iff, fun urc hconsumed => ?_⟩
  have harrived : urc ∈ arrivals c.state.history :=
    hacc.order.subset (List.mem_append_left _ hconsumed)
  have hurc : isURC urc := (List.mem_filter.mp harrived).2
  exact ⟨not_isCREG_of_isURC hurc, handleURC_of_isURC h w id hurc⟩

end

end

/-- The reply to `AT+CREG?` goes to the command. -/
theorem creg_routed_iff_reply :
    ∃ c : CallConfig Unit, (system Unit fun _ _ => true).recorded.Reach
        (callsStart (fun _ _ => true) (World.idle [] []) fun _ => .execute (lit "AT+CREG?")) c ∧
      System.collected claimed c.state.history = [(0, lit "+CREG: 0,1")] ∧
      RoutesCREG c.state.history := by
  have hplay : ∃ c next, (system Unit fun _ _ => true).recorded.play
      (callsStart (fun _ _ => true) (World.idle [] []) fun _ => .execute (lit "AT+CREG?"))
      (beginMoves 0 () ++ emitMoves (lit "+CREG: 0,1\r\n") ++ routeMoves 0 (lit "+CREG: 0,1")) =
        some c ∧
      c.threads .reader = .running (.call .scan next) ∧
      System.collected claimed c.state.history = [(0, lit "+CREG: 0,1")] ∧
      System.collected unclaimed c.state.history = [] ∧
      System.collected dropped c.state.history = [] :=
    ⟨_, _, rfl, rfl, rfl, rfl, rfl⟩
  obtain ⟨c, next, hplay, hscan, hclaimed, hunclaimed, hdropped⟩ := hplay
  have hreach := System.reach_of_play hplay
  obtain ⟨-, hroutes, -⟩ := creg_routed_iff _ [] [] _ hreach next hscan Modem.Host.plain
    Modem.Worker.plain ⟨[], [], []⟩
  refine ⟨c, hreach, hclaimed, hroutes.mpr ?_⟩
  rw [hunclaimed, hdropped]
  exact ⟨List.forall_mem_nil _, List.forall_mem_nil _⟩

/-- The answers while no command is pending. -/
def idleAnswer (token : List UInt8) : (c : Call) → c.Ans
  | .loadPending _ => none
  | c => runAnswer 0 (some token) .timer c

/-- The modem tells that it was denied registration, and nobody hears of it. -/
theorem not_creg_routed :
    ∃ c : CallConfig Unit, (system Unit fun _ _ => true).recorded.Reach
        (callsStart (fun _ _ => true) (World.idle [] []) fun _ => .execute (lit "AT")) c ∧
      System.collected scanned c.state.history = [lit "+CREG: 3"] ∧
      System.collected unclaimed c.state.history = [lit "+CREG: 3"] ∧
      System.collected posted c.state.history = [] ∧ ¬ RoutesCREG c.state.history := by
  have hplay : ∃ c, (system Unit fun _ _ => true).recorded.play
      (callsStart (fun _ _ => true) (World.idle [] []) fun _ => .execute (lit "AT"))
      (emitMoves (lit "+CREG: 3\r\n") ++ callMoves 2 .reader (idleAnswer (lit "+CREG: 3"))) =
        some c ∧
      System.collected scanned c.state.history = [lit "+CREG: 3"] ∧
      System.collected unclaimed c.state.history = [lit "+CREG: 3"] ∧
      System.collected posted c.state.history = [] :=
    ⟨_, rfl, rfl, rfl, rfl⟩
  obtain ⟨c, hplay, hscanned, hunclaimed, hposted⟩ := hplay
  refine ⟨c, System.reach_of_play hplay, hscanned, hunclaimed, hposted, fun hroutes => ?_⟩
  have hunsolicited := hroutes.unsolicited
  rw [hunclaimed, hposted, List.subperm_nil] at hunsolicited
  exact absurd hunsolicited (by decide)

end SmsGate.At.Serializer
