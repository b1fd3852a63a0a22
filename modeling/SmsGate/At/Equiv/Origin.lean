import SmsGate.At.Equiv.Routing
import SmsGate.Prog.History
import Mathlib.Data.List.Forall2

/-!
# Where the lines of a command come from

The lines for which the reader has read `pending` are numbered in the order in which they came.  A
history tells which of them were put into the channel of a command (`origins`), and how many were
taken out again (`takenFrom`); a channel is a queue, so this says which line a caller takes.

* `OriginInv`: what was put into the channel of a command came after the command was made pending.
  It is kept by every step (`OriginInv.reader`, `OriginInv.caller`, `OriginInv.outer`);
* `OriginInv.exists_origin`: the line that a caller takes, with its number.
-/

namespace SmsGate.At.Serializer

open Go Go.Strings

variable {κ : Type}

/-- What has happened, the newest first. -/
abbrev History (κ : Type) := List (System.Occurrence (Thread κ) World Call Call.Ans Outer)

/-- The number of the line that was put into the channel of command `p`. -/
def origin (p : ℕ) : System.Occurrence (Thread κ) World Call Call.Ans Outer → List ℕ
  | .call _ (.trySendLine p' _) (true : Bool) s => if p' = p then [s.loaded.length - 1] else []
  | _ => []

/-- The numbers of the lines that were put into the channel of command `p`, the oldest first. -/
def origins (p : ℕ) : History κ → List ℕ
  | [] => []
  | x :: past => origins p past ++ origin p x

/-- A line was taken from the channel of command `p`. -/
def takes (p : ℕ) : System.Occurrence (Thread κ) World Call Call.Ans Outer → Bool
  | .call _ (.recv _ p') (.line _ : Received) _ => p' = p
  | _ => false

/-- How many lines were taken from the channel of command `p`. -/
def takenFrom (p : ℕ) (past : History κ) : ℕ := past.countP (takes p)

/-- The lines that were read, and where they were put. -/
def World.queues (s : World) : List Line × (ℕ → ℕ) × (ℕ → List Line) × (ℕ → List Line) :=
  (s.loaded, s.since, s.routed, s.linesCh)

/-- The invariant. -/
structure OriginInv (s : World) (past : History κ) (r : ReaderStage) : Prop where
  /-- A line in flight is the last for which `pending` was read. -/
  flight : ∀ p line, r = .sending p line →
    s.since p ≤ s.loaded.length - 1 ∧ s.loaded[s.loaded.length - 1]? = some line
  lines : ∀ p, List.Forall₂ (fun j l => s.since p ≤ j ∧ s.loaded[j]? = some l) (origins p past)
    (s.routed p)
  /-- A channel is a queue. -/
  taken : ∀ p, ∃ front, s.routed p = front ++ s.linesCh p ∧ front.length = takenFrom p past

theorem origins_cons_of_nil {p : ℕ} {past : History κ}
    {x : System.Occurrence (Thread κ) World Call Call.Ans Outer} (h : origin p x = []) :
    origins p (x :: past) = origins p past := by
  rw [origins, h, List.append_nil]

theorem takenFrom_cons_of_not {p : ℕ} {past : History κ}
    {x : System.Occurrence (Thread κ) World Call Call.Ans Outer} (h : takes p x = false) :
    takenFrom p (x :: past) = takenFrom p past :=
  List.countP_cons_of_neg (by rw [h]; exact Bool.false_ne_true)

namespace OriginInv

variable {stream : List UInt8} {s s' : World} {past : History κ} {r : ReaderStage} {t : Thread κ}

theorem idle (buf incoming : List UInt8) :
    OriginInv (World.idle buf incoming) ([] : History κ) .scanning :=
  ⟨nofun, fun _ => .nil, fun _ => ⟨[], rfl, rfl⟩⟩

/-- What moves no line. -/
theorem other {r' : ReaderStage} {x : System.Occurrence (Thread κ) World Call Call.Ans Outer}
    (hinv : OriginInv s past r) (horigin : ∀ p, origin p x = []) (htakes : ∀ p, takes p x = false)
    (hsame : s'.queues = s.queues) (hflight : ∀ p line, r' = .sending p line → r = r') :
    OriginInv s' (x :: past) r' := by
  simp only [World.queues, Prod.mk.injEq] at hsame
  obtain ⟨hloaded, hsince, hrouted, hlines⟩ := hsame
  refine ⟨fun p line hr => ?_, fun p => ?_, fun p => ?_⟩
  · rw [hsince, hloaded]
    exact hinv.flight p line ((hflight p line hr).trans hr)
  · rw [hsince, hloaded, hrouted, origins_cons_of_nil (horigin p)]
    exact hinv.lines p
  · rw [hlines, hrouted, takenFrom_cons_of_not (htakes p)]
    exact hinv.taken p

/-- The reader finds the command that is pending. -/
theorem load {line : Line} {pending : Option ℕ} (hinv : OriginInv s past (.holding line))
    (hrouting : RoutingInv stream s (.holding line))
    (hexec : s.exec (.loadPending line) pending = some s') :
    OriginInv s' (.call t (.loadPending line) pending s :: past)
      (ReaderStage.next (.holding line) (.loadPending line) pending) := by
  obtain ⟨hpending, hs⟩ := Option.ite_none_right_eq_some.mp hexec
  cases hs
  refine ⟨fun p line' hr => ?_, fun p => ?_, fun p => ?_⟩
  · cases pending with
    | none => cases hr
    | some p' =>
      cases hr
      dsimp only
      rw [List.length_append, List.length_singleton, Nat.add_sub_cancel]
      exact ⟨(hrouting.pending p hpending.symm).1, List.getElem?_concat_length⟩
  · rw [origins_cons_of_nil rfl]
    refine (hinv.lines p).imp fun j l hj => ⟨hj.1, ?_⟩
    dsimp only
    rw [List.getElem?_append_left (List.getElem?_eq_some_iff.mp hj.2).1]
    exact hj.2
  · rw [takenFrom_cons_of_not rfl]
    exact hinv.taken p

/-- The line in flight arrives, or is dropped. -/
theorem sendLine {p : ℕ} {line : Line} {ok : Bool} (hinv : OriginInv s past (.sending p line))
    (hexec : s.exec (.trySendLine p line) ok = some s') :
    OriginInv s' (.call t (.trySendLine p line) ok s :: past) .scanning := by
  obtain ⟨hok, hs⟩ := Option.ite_none_left_eq_some.mp hexec
  cases ok with
  | false =>
    cases hs
    exact hinv.other (fun _ => rfl) (fun _ => rfl) rfl nofun
  | true =>
    cases hs
    refine ⟨nofun, fun p' => ?_, fun p' => ?_⟩
    · by_cases hp : p' = p
      · subst hp
        dsimp only
        rw [origins, origin, if_pos rfl, Function.update_self]
        exact List.rel_append (hinv.lines p') (.cons (hinv.flight p' line rfl) .nil)
      · dsimp only
        rw [origins, origin, if_neg (Ne.symm hp), List.append_nil, Function.update_of_ne hp]
        exact hinv.lines p'
    · rw [takenFrom_cons_of_not rfl]
      by_cases hp : p' = p
      · subst hp
        dsimp only
        obtain ⟨front, hfront, hlength⟩ := hinv.taken p'
        rw [Function.update_self, Function.update_self, hfront, List.append_assoc]
        exact ⟨front, rfl, hlength⟩
      · dsimp only
        rw [Function.update_of_ne hp, Function.update_of_ne hp]
        exact hinv.taken p'

/-- A caller takes a line from its channel. -/
theorem recv {timer : Timer} {p : ℕ} {l : Line} (hinv : OriginInv s past r)
    (hexec : s.exec (.recv timer p) (.line l) = some s') :
    OriginInv s' (.call t (.recv timer p) (.line l) s :: past) r := by
  obtain ⟨rest, hch, rfl⟩ := exists_linesCh_of_recv hexec
  refine ⟨hinv.flight, fun p' => ?_, fun p' => ?_⟩
  · rw [origins_cons_of_nil rfl]
    exact hinv.lines p'
  · obtain ⟨front, hfront, hlength⟩ := hinv.taken p'
    by_cases hp : p' = p
    · subst hp
      have htakes : takes p' (.call t (.recv timer p') (.line l) s) = true := decide_eq_true rfl
      dsimp only
      rw [hch] at hfront
      rw [Function.update_self, takenFrom, List.countP_cons_of_pos htakes, hfront]
      refine ⟨front ++ [l], (List.append_assoc front [l] rest).symm, ?_⟩
      rw [List.length_append, hlength]
      rfl
    · have htakes : takes p' (.call t (.recv timer p) (.line l) s) = false :=
        decide_eq_false (Ne.symm hp)
      dsimp only
      rw [Function.update_of_ne hp, takenFrom_cons_of_not htakes]
      exact ⟨front, hfront, hlength⟩

/-- A command is made pending. -/
theorem install {p : ℕ} (hinv : OriginInv s past r) (hrouting : RoutingInv stream s r)
    (hexec : s.exec .install p = some s') : OriginInv s' (.call t .install p s :: past) r := by
  obtain ⟨hp, hs⟩ := Option.ite_none_right_eq_some.mp hexec
  cases hs
  -- nothing was routed to the new command, and nothing is on its way
  obtain ⟨hrouted, hflight, -⟩ := hrouting.fresh p hp.ge
  refine ⟨fun p' line hr => ?_, fun p' => ?_, fun p' => ?_⟩
  · have hp' : p' ≠ p := by
      rintro rfl
      rw [hr, ReaderStage.inFlight, if_pos rfl] at hflight
      cases hflight
    dsimp only
    rw [Function.update_of_ne hp']
    exact hinv.flight p' line hr
  · rw [origins_cons_of_nil rfl]
    by_cases hp' : p' = p
    · subst hp'
      have hlines := hinv.lines p'
      rw [hrouted] at hlines
      rw [List.forall₂_nil_right_iff.mp hlines]
      dsimp only
      rw [hrouted]
      exact .nil
    · dsimp only
      rw [Function.update_of_ne hp']
      exact hinv.lines p'
  · rw [takenFrom_cons_of_not rfl]
    exact hinv.taken p'

/-- The reader keeps the invariant. -/
theorem reader {c : Call} {a : c.Ans} (hinv : OriginInv s past r) (hrouting : RoutingInv stream s r)
    (hallow : r.Allows c) (hexec : s.exec c a = some s') :
    OriginInv s' (.call t c a s :: past) (r.next c a) := by
  -- a stage with nothing in flight is none in which a line is sent
  have hidle : ∀ {r' : ReaderStage} {r₁}, (∀ p, r'.inFlight p = []) →
      ∀ p line, r' = .sending p line → r₁ = r' := by
    intro r' r₁ hflight p line hr
    have hnone := hflight p
    rw [hr, ReaderStage.inFlight, if_pos rfl] at hnone
    cases hnone
  cases c with
  | scan =>
    obtain rfl : r = .scanning := hallow
    exact hinv.other (fun _ => rfl) (fun _ => rfl)
      (view_of_exec (by simp [Call.Leaves, World.queues]) hexec) (hidle (inFlight_scan a))
  | loadPending line =>
    obtain rfl : r = .holding line := hallow
    exact hinv.load hrouting hexec
  | trySendLine p line =>
    obtain rfl : r = .sending p line := hallow
    exact hinv.sendLine hexec
  | trySendURC | tryRecvURC | closeClosed =>
    exact hinv.other (fun _ => rfl) (fun _ => rfl)
      (view_of_exec (by simp [Call.Leaves, World.queues]) hexec)
      (hidle (aside_of_allows hallow rfl).2.2)
  | _ => exact hallow.elim

/-- So do those who execute commands. -/
theorem caller {c : Call} {a : c.Ans} (hinv : OriginInv s past r) (hrouting : RoutingInv stream s r)
    (hc : c.ofCaller) (hexec : s.exec c a = some s') : OriginInv s' (.call t c a s :: past) r := by
  cases c with
  | install => exact hinv.install hrouting hexec
  | recv timer p =>
    cases a with
    | line l => exact hinv.recv hexec
    | timer =>
      cases hexec
      exact hinv.other (fun _ => rfl) (fun _ => rfl) rfl fun _ _ _ => rfl
    | closed =>
      obtain ⟨-, hs⟩ := Option.ite_none_right_eq_some.mp hexec
      cases hs
      exact hinv.other (fun _ => rfl) (fun _ => rfl) rfl fun _ _ _ => rfl
  | write | pollClosed | clear | close =>
    exact hinv.other (fun _ => rfl) (fun _ => rfl)
      (view_of_exec (by simp [Call.Leaves, World.queues]) hexec) fun _ _ _ => rfl
  | _ => cases hc

theorem outer {mayEmit : World → List UInt8 → Bool} {v : Outer} (hinv : OriginInv s past r)
    (hstep : v.step mayEmit s = some s') : OriginInv s' (.env v s :: past) r := by
  refine hinv.other (fun _ => rfl) (fun _ => rfl) (view_of_outer ?_ hstep) fun _ _ _ => rfl
  cases v <;> simp [Outer.Leaves, World.queues]

/-- A line that was routed to a command has a number, and came after the command was made
pending. -/
theorem exists_origin_of_routed {p i : ℕ} {l : Line} (hinv : OriginInv s past r)
    (hl : (s.routed p)[i]? = some l) :
    ∃ j, (origins p past)[i]? = some j ∧ s.since p ≤ j ∧ s.loaded[j]? = some l := by
  obtain ⟨hi, rfl⟩ := List.getElem?_eq_some_iff.mp hl
  have hlines := hinv.lines p
  have hi' : i < (origins p past).length := hlines.length_eq ▸ hi
  exact ⟨_, List.getElem?_eq_getElem hi', hlines.get hi' hi⟩

theorem mem_drop_of_routed {p : ℕ} {l : Line} (hinv : OriginInv s past r) (hl : l ∈ s.routed p) :
    l ∈ s.loaded.drop (s.since p) := by
  obtain ⟨i, hi⟩ := List.getElem?_of_mem hl
  obtain ⟨j, -, hsince, hj⟩ := hinv.exists_origin_of_routed hi
  refine List.mem_of_getElem? (i := j - s.since p) ?_
  rw [List.getElem?_drop, Nat.add_sub_cancel' hsince]
  exact hj

/-- The line in front of a channel, and its number. -/
theorem exists_origin {p : ℕ} {l : Line} {rest : List Line} (hinv : OriginInv s past r)
    (hch : s.linesCh p = l :: rest) :
    ∃ j, (origins p past)[takenFrom p past]? = some j ∧ s.since p ≤ j ∧ s.loaded[j]? = some l := by
  obtain ⟨front, hfront, hlength⟩ := hinv.taken p
  refine hinv.exists_origin_of_routed ?_
  rw [hfront, hch, ← hlength, List.getElem?_append_right le_rfl, Nat.sub_self]
  rfl

end OriginInv

end SmsGate.At.Serializer
